import Wsddn.Http.Language

/-!
# The version of a request (`http_request_parser.cpp`)

The parser is to accept the versions 1.0 and 1.1 only, and adds the digits of a version one by one,
each within a bound (`boundedAddDigit`).  The bound is met by subtracting the digit from the
maximum, which for a digit above the maximum wraps: after a zero every digit is let through.

* `decimal_minor` : the numbers in the request are the values of the digits, whatever they are.
* `noWrap_iff` : `boundedAddDigit` wraps on the way exactly if the last digit is above one.
* `versionRead_iff` : the version of an accepted request is 1.0 or 1.1, and was read without
  wrapping, exactly if the last digit of its minor version is `0` or `1`.
-/

namespace Wsddn

namespace HttpRequestParser

open SysStringBuilder

/-- Versions in lexicographic order (`std::tuple`). -/
def versionLe (v v' : UInt32 × UInt32) : Prop := v.1 < v'.1 ∨ v.1 = v'.1 ∧ v.2 ≤ v'.2

instance (v v' : UInt32 × UInt32) : Decidable (versionLe v v') :=
  inferInstanceAs (Decidable (_ ∨ _ ∧ _))

/-- The number that some digits stand for. -/
def decimal (digits : List UInt8) : ℕ := digits.foldl (fun n d => 10 * n + (d.toNat - 48)) 0

/-- The digits before the point. -/
def Version.major (_ : Version) : List UInt8 := [49]

/-- The version in the request is one that is to be accepted, and the one of the request line. -/
structure VersionRead (req : HttpRequest) (v : Version) : Prop where
  ge : versionLe minVersion (req.versionMajor, req.versionMinor)
  le : versionLe (req.versionMajor, req.versionMinor) maxVersion
  major : req.versionMajor.toNat = decimal v.major
  minor : req.versionMinor.toNat = decimal v.minor

/-- The multiplication or the subtraction in a call of `boundedAddDigit` wraps.  Neither is made if
the value is already too large for one more digit. -/
def Wraps (value digit maxVal : UInt32) : Prop :=
  ¬ maxVal / 10 < value ∧ (2 ^ 32 ≤ value.toNat * 10 ∨ maxVal < digit)

instance (value digit maxVal : UInt32) : Decidable (Wraps value digit maxVal) :=
  inferInstanceAs (Decidable (_ ∧ _))

/-- The arguments of the call of `boundedAddDigit` that a byte leads to. -/
def digitCall (p : HttpRequestParser) (input : UInt8) : Option (UInt32 × UInt32 × UInt32) :=
  if isDigit input then
    match p.state with
    | .httpVersionMajor => some (p.versionMajor, input.toUInt32 - 48, maxVersion.1)
    | .httpVersionMinor => some (p.versionMinor, input.toUInt32 - 48,
        if p.versionMajor = maxVersion.1 then maxVersion.2 else 4294967295)
    | _ => none
  else none

/-- `boundedAddDigit` does not wrap while the bytes are read. -/
def NoWrap (w₀ : Work) (bytes : List UInt8) : Prop :=
  ∀ pre b post w, bytes = pre ++ b :: post → consumer.run w₀ pre = (w, none, []) →
    ∀ value digit maxVal, digitCall w.1 b = some (value, digit, maxVal) →
      ¬ Wraps value digit maxVal

variable {w : Work} {bytes rest : List UInt8} {b : UInt8}

/-! ### The numbers -/

theorem decimal_minor (v : Version) : decimal v.minor = v.stored.toNat := by
  have hzeros : ∀ k, decimal (List.replicate k 48 ++ [v.digit]) = v.digit.toNat - 48 := by
    intro k
    induction k with
    | zero => simp [decimal]
    | succ k ih => simpa [decimal, List.replicate_succ] using ih
  rw [Version.minor, hzeros, Version.stored, digit_toNat v.isDigit_digit]

theorem stored_le_one_iff (v : Version) : v.stored ≤ 1 ↔ v.digit ≤ 49 := by
  rw [UInt32.le_iff_toNat_le, UInt8.le_iff_toNat_le, Version.stored, digit_toNat v.isDigit_digit]
  show v.digit.toNat - 48 ≤ 1 ↔ v.digit.toNat ≤ 49
  omega

/-- The request of a head has a version to be accepted exactly if the last digit is `0` or `1`. -/
theorem versionRead_request (d : Head) :
    VersionRead d.request d.version ↔ d.version.digit ≤ 49 := by
  rw [← stored_le_one_iff]
  constructor
  · intro h
    rcases h.le with hlt | ⟨-, hle⟩
    · exact absurd hlt (by simp [Head.request, maxVersion])
    · exact hle
  · intro h
    exact ⟨.inr ⟨rfl, UInt32.zero_le⟩, .inr ⟨rfl, h⟩, rfl, (decimal_minor _).symm⟩

/-! ### The calls -/

/-- After a digit other than zero no further one is added, and the others are added to zero. -/
theorem wraps_iff {value digit : UInt32} : Wraps value digit 1 ↔ value = 0 ∧ 1 < digit := by
  have hdiv : (1 : UInt32) / 10 = 0 := by decide
  unfold Wraps
  rw [hdiv]
  constructor
  · rintro ⟨hv, h⟩
    have hzero : value = 0 := by simpa using hv
    subst hzero
    exact ⟨rfl, h.resolve_left (by decide)⟩
  · rintro ⟨rfl, h⟩
    exact ⟨by decide, .inr h⟩

theorem run_uri_or {m u u₀ : List UInt8} (hu : ∀ b ∈ u, isCtl b = false ∧ b ≠ 32)
    (hne : u₀ ++ u ≠ []) :
    consumer.run (inUri m u₀) (u ++ [32]) =
        (({ state := .httpVersionH }, { method := m, uri := stored (u₀ ++ u) }), none, []) ∨
      ∃ w rest, consumer.run (inUri m u₀) (u ++ [32]) = (w, some .bad, rest) := by
  induction u generalizing u₀ with
  | nil =>
    rw [List.append_nil] at hne ⊢
    exact .inl (run_consume (consume_uri_space hne))
  | cons b u ih =>
    have hb := hu b List.mem_cons_self
    by_cases hfull : (stored u₀).length = maxUriSize
    · -- there is no room for the byte
      have hsize : storageSize (stored u₀) = maxUriSize := hfull
      have hbad : consume (inUri m u₀) b = (inUri m u₀, some .bad) := by
        simp [consume, inUri, hb.1, hb.2, hsize]
      exact .inr ⟨_, _, Consumer.run_cons_of_some (C := consumer) hbad⟩
    · have hassoc : u₀ ++ b :: u = u₀ ++ [b] ++ u := List.append_cons _ _ _
      rw [List.cons_append, run_consume (consume_uri hb hfull), hassoc]
      exact ih (fun c hc => hu c (List.mem_cons_of_mem _ hc)) (by simp)

/-- The text of a target leads to the version, if what follows is accepted. -/
theorem run_target_of_good {t : Target} {more : List UInt8}
    (h : consumer.run ({}, {}) (t.encode ++ more) = (w, some .good, rest)) :
    consumer.run ({}, {}) t.encode = (inVersion t .httpVersionH 0 0, none, []) := by
  have hencode :
      consumer.run ({}, {}) t.encode = consumer.run (inUri t.method []) (t.uri ++ [32]) :=
    run_methodStart t
  have hne : [] ++ t.uri ≠ [] := t.uri_ne
  rcases run_uri_or (m := t.method) t.uri_text hne with hr | ⟨w', r, hr⟩
  · rw [hencode, hr]
    rfl
  · rw [← hencode] at hr
    rw [Consumer.run_append_of_some more hr] at h
    simp at h

/-- One more digit, of which only the first zeros are known. -/
theorem eq_of_replicate_append {b d : UInt8} (hb : b ≠ 48) (hb' : b ≠ 13) {r r' : List UInt8} :
    ∀ {k z : ℕ}, List.replicate k 48 ++ b :: r = List.replicate z 48 ++ d :: 13 :: r' → b = d
  | 0, 0, h => (List.cons.inj h).1
  | 0, _ + 1, h => absurd (List.cons.inj h).1 hb
  | 1, 0, h => absurd (List.cons.inj (List.cons.inj h).2).1 hb'
  | _ + 2, 0, h => absurd (List.cons.inj (List.cons.inj h).2).1 (by decide)
  | _ + 1, _ + 1, h => eq_of_replicate_append hb hb' (List.cons.inj h).2

theorem state_of_digitCall {p : HttpRequestParser} {c : UInt32 × UInt32 × UInt32}
    (h : digitCall p b = some c) : p.state = .httpVersionMajor ∨ p.state = .httpVersionMinor := by
  by_cases hd : isDigit b = true
  · cases hst : p.state <;> simp [digitCall, hd, hst] at h ⊢
  · simp [digitCall, hd] at h

/-- Before the last digit of an accepted version the parser holds zero, if there are zeros. -/
theorem run_zeros {d : Head} {k : ℕ} {v : Version}
    (h : consumer.run ({}, {}) (d.encode ++ rest) = (w, some .good, rest))
    (hk : d.version.zeros = k + 1) (hv : v.zeros = k) (hdigit : v.digit = 48) :
    (∃ post, d.encode ++ rest =
        d.target.encode ++ (protocol ++ v.text) ++ d.version.digit :: post) ∧
      consumer.run ({}, {}) (d.target.encode ++ (protocol ++ v.text)) =
        (inVersion d.target .httpVersionMinor 1 0, none, []) := by
  have htext : d.version.text = v.text ++ [d.version.digit] := by
    simp [Version.text, Version.minor, hk, hv, hdigit, List.replicate_succ']
  have hsplit : d.encode ++ rest = d.target.encode ++ (protocol ++ v.text) ++ d.version.digit ::
      (13 :: 10 :: d.headers.flatMap Header.encode ++ [13, 10] ++ rest) := by
    simp [Head.encode, Head.lines, Head.line, htext]
  have ht : consumer.run ({}, {}) d.target.encode = _ :=
    run_target_of_good (by rw [← h, hsplit, List.append_assoc])
  have hr : consumer.run (inVersion d.target .httpVersionMajorStart 0 0) (v.text ++ []) = _ :=
    run_version d.target v
  rw [List.append_nil, stored_eq_zero_iff.2 hdigit] at hr
  refine ⟨⟨_, hsplit⟩, ?_⟩
  rw [Consumer.run_append_of_none _ ht, run_protocol, hr, Consumer.run_nil]

theorem digit_le_of_noWrap {d : Head}
    (h : consumer.run ({}, {}) (d.encode ++ rest) = (w, some .good, rest))
    (hno : NoWrap ({}, {}) (d.encode ++ rest)) : d.version.digit ≤ 49 := by
  by_contra hgt
  -- before the digit there are zeros
  obtain ⟨k, hk⟩ : ∃ k, d.version.zeros = k + 1 :=
    Nat.exists_eq_add_one_of_ne_zero fun hz => hgt (d.version.digit_le hz)
  obtain ⟨⟨post, hsplit⟩, hrun⟩ :=
    run_zeros (v := ⟨k, 48, by decide, fun _ => by decide⟩) h hk rfl rfl
  have hcall : digitCall (inVersion d.target .httpVersionMinor 1 0).1 d.version.digit =
      some (0, d.version.stored, 1) := by
    simp [digitCall, inVersion, d.version.isDigit_digit, maxVersion, Version.stored]
  refine hno _ _ _ _ hsplit hrun _ _ _ hcall (wraps_iff.2 ⟨rfl, ?_⟩)
  exact UInt32.not_le.1 fun hle => hgt ((stored_le_one_iff _).1 hle)

/-- A digit other than zero after the zeros of a version is its last one. -/
theorem digit_eq_of_encode {d : Head} {t : Target} {v : Version} {post : List UInt8}
    (h : d.encode ++ rest = t.encode ++ protocol ++ v.text ++ b :: post) (hv : v.digit = 48)
    (hd : isDigit b = true) (hne : b ≠ 48) : b = d.version.digit := by
  simp only [Head.encode, Head.lines, Head.line, Version.text, Version.minor, hv,
    List.append_assoc, List.cons_append, List.nil_append] at h
  obtain ⟨rfl, hl⟩ := Target.encode_prefix h
  have hdigits := (List.cons.inj (List.cons.inj (List.append_cancel_left hl)).2).2.symm
  rw [List.append_cons (List.replicate v.zeros 48), ← List.replicate_succ'] at hdigits
  exact eq_of_replicate_append hne (ne_of_isDigit hd (by decide)) hdigits

theorem noWrap_of_digit_le {d : Head} (hle : d.version.digit ≤ 49) :
    NoWrap ({}, {}) (d.encode ++ rest) := by
  intro pre b post u hb hu value digit maxVal hcall hwraps
  have hst := state_of_digitCall hcall
  cases at_of_run hu with
  | major t =>
    -- the digit is refused before it is added
    obtain ⟨-, rfl, -, rfl⟩ : _ ∧ 1 = value ∧ _ ∧ 1 = maxVal := by
      simpa [digitCall, inVersion, maxVersion] using hcall
    exact absurd (wraps_iff.1 hwraps).1 (by decide)
  | minor t v =>
    obtain ⟨hd, rfl, rfl, rfl⟩ : isDigit b = true ∧ v.stored = value ∧ _ ∧ 1 = maxVal := by
      simpa [digitCall, inVersion, maxVersion] using hcall
    obtain ⟨hzero, hgt⟩ := wraps_iff.1 hwraps
    have hb1 : ¬ b ≤ 49 := by
      rw [UInt32.lt_iff_toNat_lt, digit_toNat hd] at hgt
      rw [UInt8.le_iff_toNat_le]
      replace hgt : 1 < b.toNat - 48 := hgt
      show ¬ b.toNat ≤ 49
      omega
    have hne : b ≠ 48 := by
      rintro rfl
      exact hb1 (by decide)
    obtain rfl := digit_eq_of_encode hb (stored_eq_zero_iff.1 hzero) hd hne
    exact hb1 hle
  | @letters t _ state hk =>
    have hmem := List.mem_of_getElem? hk
    rcases (hst : state = _ ∨ state = _) with rfl | rfl <;> exact absurd hmem (by decide)
  | _ => exact absurd hst (by simp [inMethod, inUri, inVersion, inHeaders])

/-- **`boundedAddDigit` wraps** on the way to a head exactly if the last digit of its version is
above one. -/
theorem noWrap_iff {d : Head}
    (h : consumer.run ({}, {}) (d.encode ++ rest) = (w, some .good, rest)) :
    NoWrap ({}, {}) (d.encode ++ rest) ↔ d.version.digit ≤ 49 :=
  ⟨digit_le_of_noWrap h, noWrap_of_digit_le⟩

/-! ### Accepted requests -/

/-- What a request held before makes no difference to the parser. -/
theorem agree_run (p : HttpRequestParser) (req : HttpRequest) (bytes : List UInt8) :
    Agree req.headers (consumer.run (p.reset, req) bytes).1 (consumer.run ({}, {}) bytes).1 ∧
      (consumer.run (p.reset, req) bytes).2 = (consumer.run ({}, {}) bytes).2 :=
  parse_agree ⟨rfl, by simp, by simp [reset, pastMethod], by simp [reset, pastUri],
    by simp [reset, pastVersion]⟩

theorem noWrap_congr (p : HttpRequestParser) (req : HttpRequest) (bytes : List UInt8) :
    NoWrap (p.reset, req) bytes ↔ NoWrap ({}, {}) bytes := by
  constructor
  · intro h pre b post w hb hw
    obtain ⟨ha, hr⟩ := agree_run p req pre
    rw [hw] at ha hr
    have := h pre b post _ hb (Prod.ext rfl hr)
    rwa [ha.parser] at this
  · intro h pre b post w hb hw
    obtain ⟨ha, hr⟩ := agree_run p req pre
    rw [hw] at ha hr
    have := h pre b post _ hb (Prod.ext rfl hr.symm)
    rwa [← ha.parser] at this

/-- **The version of an accepted request** is 1.0 or 1.1, is the one that stands in the request line
and was read without wrapping exactly if the last digit of its minor version is `0` or `1`. -/
theorem versionRead_iff (p : HttpRequestParser) (req : HttpRequest)
    (h : parse p.reset req bytes = (w, some .good, rest)) :
    ∃ d : Head, bytes = d.encode ++ rest ∧
      (VersionRead w.2 d.version ∧ NoWrap (p.reset, req) bytes ↔ d.version.digit ≤ 49) := by
  obtain ⟨ha, hr⟩ := agree_run p req bytes
  replace h : consumer.run (p.reset, req) bytes = (w, some .good, rest) := h
  rw [h] at ha hr
  have hrun : consumer.run ({}, {}) bytes =
      ((consumer.run ({}, {}) bytes).1, some .good, rest) := Prod.ext rfl hr.symm
  obtain ⟨d, rfl, hd⟩ := exists_head hrun
  have hst : pastVersion w.1.state = true := by
    obtain ⟨pre, b, u, -, -, hb⟩ := Consumer.run_eq_some_iff.1 h
    obtain ⟨hst, -, rfl⟩ := consume_eq_good hb
    rw [hst]
    rfl
  obtain ⟨hmajor, hminor⟩ := ha.version hst
  rw [hd] at hmajor hminor
  have hread : VersionRead w.2 d.version ↔ VersionRead d.request d.version := by
    constructor
    · rintro ⟨h₁, h₂, h₃, h₄⟩
      rw [hmajor, hminor] at h₁ h₂
      exact ⟨h₁, h₂, hmajor ▸ h₃, hminor ▸ h₄⟩
    · rintro ⟨h₁, h₂, h₃, h₄⟩
      rw [← hmajor, ← hminor] at h₁ h₂
      exact ⟨h₁, h₂, hmajor ▸ h₃, hminor ▸ h₄⟩
  refine ⟨d, rfl, ?_⟩
  rw [hread, versionRead_request, noWrap_congr, noWrap_iff hrun, and_self]

/-- A request for version 1.05. -/
def zeroFive : List UInt8 := SysString.ofLiteral "G / HTTP/1.05\r\n\r\n"

/-- Version 1.05 is accepted, as 1.5. -/
theorem zeroFive_accepted : ∃ w, parse (reset {}) {} zeroFive = (w, some .good, []) ∧
    w.2.versionMinor = 5 ∧ ¬ versionLe (w.2.versionMajor, w.2.versionMinor) maxVersion :=
  ⟨(parse (reset {}) {} zeroFive).1, by decide +kernel, by decide +kernel, by decide +kernel⟩

/-- A request for version 1.01. -/
def zeroOne : Head where
  target := ⟨[71], [47], by simp, by decide, List.forall_mem_singleton.2 (by decide), by simp,
    List.forall_mem_singleton.2 (by decide)⟩
  version := ⟨1, 49, by decide, by simp⟩
  headers := []
  size_le := Nat.zero_le _

/-- Version 1.01 is accepted, as 1.1. -/
theorem versionRead_zeroOne :
    VersionRead (parse (reset {}) {} zeroOne.encode).1.2 zeroOne.version ∧
      NoWrap (reset {}, {}) zeroOne.encode := by
  have hrun : parse (reset {}) {} zeroOne.encode =
      ((parse (reset {}) {} zeroOne.encode).1, some .good, []) := by decide +kernel
  obtain ⟨d, hd, hiff⟩ := versionRead_iff {} {} hrun
  rw [List.append_nil] at hd
  obtain rfl := Head.encode_injective hd
  exact hiff.2 (by decide)

end HttpRequestParser

end Wsddn
