import Mathlib.Data.List.TakeWhile
import Wsddn.Http.Bounds

/-!
# The request parser recognizes the request heads (`http_request_parser.cpp`)

`At bytes w` says what a parser `w` that has read `bytes` and not stopped has read: the text of a
head up to some place in it.  One byte leads from one such place to the next (`At.step`), so it is
true of every run (`at_of_run`), and from every place the text can be completed to a head
(`At.viable`).

* `recognizes` : on requests whose request line is ASCII, the parser recognizes `Language`.
* `recognizes_heads` : what each result of `parse` says about the bytes.
* `accented_value_changes` : a value that is not ASCII is stored in other bytes.
-/

namespace Wsddn

namespace HttpRequestParser

open SysStringBuilder

/-- The states after the letters of `HTTP/`. -/
def protocolStates : List ParserState :=
  [.httpVersionH, .httpVersionT1, .httpVersionT2, .httpVersionP, .httpVersionSlash,
    .httpVersionMajorStart]

/-- A method, or the beginning of one. -/
structure IsMethod (m : List UInt8) : Prop where
  ne : m ≠ []
  le : m.length ≤ maxMethodSize
  token : ∀ b ∈ m, isToken b = true

/-- The name of a header, or the beginning of one, after `size` bytes of headers. -/
structure IsName (size : ℕ) (n : List UInt8) : Prop where
  ne : n ≠ []
  token : ∀ b ∈ n, isToken b = true
  le : size + n.length ≤ maxHeadersSize

/-- The name of a header and the beginning of its value. -/
structure IsField (size : ℕ) (n x : List UInt8) : Prop extends IsName size n where
  text : ∀ b ∈ x, isCtl b = false
  field_le : size + n.length + x.length ≤ maxHeadersSize

/-- What a parser has read that has not stopped. -/
inductive At : List UInt8 → Work → Prop
  | start : At [] ({}, {})
  | method {m : List UInt8} (hm : IsMethod m) : At m (inMethod m)
  | uri {m u : List UInt8} (hm : IsMethod m) (hu : ∀ b ∈ u, isCtl b = false ∧ b ≠ 32) :
      At (m ++ 32 :: u) (inUri m u)
  | letters (t : Target) {k : ℕ} {state : ParserState} (hk : protocolStates[k]? = some state) :
      At (t.encode ++ protocol.take k) (inVersion t state 0 0)
  | major (t : Target) : At (t.encode ++ protocol ++ [49]) (inVersion t .httpVersionMajor 1 0)
  | minorStart (t : Target) :
      At (t.encode ++ protocol ++ [49, 46]) (inVersion t .httpVersionMinorStart 1 0)
  | minor (t : Target) (v : Version) :
      At (t.encode ++ protocol ++ v.text) (inVersion t .httpVersionMinor 1 v.stored)
  | newline1 (t : Target) (v : Version) :
      At (t.encode ++ protocol ++ v.text ++ [13]) (inHeaders t v [] .expectingNewline1 [] [] 0)
  | lineStart (d : Head) :
      At d.lines (inHeaders d.target d.version d.headers .headerLineStart [] [] d.size)
  | name (d : Head) {n : List UInt8} (hn : IsName d.size n) :
      At (d.lines ++ n)
        (inHeaders d.target d.version d.headers .headerName n [] (d.size + n.length))
  | colon (d : Head) {n : List UInt8} (hn : IsName d.size n) :
      At (d.lines ++ n ++ [58])
        (inHeaders d.target d.version d.headers .spaceBeforeHeaderValue n [] (d.size + n.length))
  | value (d : Head) {n x : List UInt8} (hx : IsField d.size n x) :
      At (d.lines ++ n ++ [58, 32] ++ x)
        (inHeaders d.target d.version d.headers .headerValue n x (d.size + n.length + x.length))
  | newline2 (d : Head) {n x : List UInt8} (hx : IsField d.size n x) :
      At (d.lines ++ n ++ [58, 32] ++ x ++ [13]) (inHeaders d.target d.version d.headers
        .expectingNewline2 n x (d.size + n.length + x.length))
  | newline3 (d : Head) :
      At (d.lines ++ [13])
        (inHeaders d.target d.version d.headers .expectingNewline3 [] [] d.size)

variable {w w' : Work} {bytes : List UInt8} {b : UInt8}

/-- What `expect` goes on with. -/
theorem expect_eq_none {c : UInt8} {next : ParserState} (h : expect w b c next = (w', none)) :
    b = c ∧ w' = ({ w.1 with state := next }, w.2) := by
  unfold expect at h
  split_ifs at h with hb
  · exact ⟨hb, (congrArg Prod.fst h).symm⟩
  · simp at h

theorem step_start (h : consume ({}, {}) b = (w', none)) : At [b] w' := by
  by_cases htok : isToken b = true
  · have hw : consume ({}, {}) b = (inMethod [b], none) := by
      simp [consume, inMethod, htok, append_of_lt (lt_of_isToken htok)]
    obtain rfl : inMethod [b] = w' := (Prod.mk.inj (hw.symm.trans h)).1
    exact .method ⟨by simp, by simp [maxMethodSize], by simpa using htok⟩
  · simp [consume, htok] at h

theorem step_method {m : List UInt8} (hm : IsMethod m)
    (h : consume (inMethod m) b = (w', none)) : At (m ++ [b]) w' := by
  by_cases hspace : b = 32
  · subst hspace
    have hw : consume (inMethod m) 32 = (inUri m [], none) := by simp [consume, inMethod, inUri]
    obtain rfl := (Prod.mk.inj (hw.symm.trans h)).1
    exact .uri (u := []) hm (by simp)
  · by_cases htok : isToken b = true
    · by_cases hlt : m.length < maxMethodSize
      · obtain rfl := (Prod.mk.inj ((consume_method htok hlt).symm.trans h)).1
        refine .method ⟨by simp, ?_, ?_⟩
        · rw [List.length_append]
          exact hlt
        · intro c hc
          rcases List.mem_append.1 hc with hc | hc
          · exact hm.token c hc
          · exact List.mem_singleton.1 hc ▸ htok
      · have hfull : storageSize m = maxMethodSize := Nat.le_antisymm hm.le (Nat.le_of_not_lt hlt)
        simp [consume, inMethod, hspace, hfull] at h
    · simp [consume, inMethod, hspace, htok] at h

theorem step_uri {m u : List UInt8} (hm : IsMethod m) (hu : ∀ b ∈ u, isCtl b = false ∧ b ≠ 32)
    (h : consume (inUri m u) b = (w', none)) : At (m ++ 32 :: u ++ [b]) w' := by
  by_cases hspace : b = 32
  · subst hspace
    by_cases hne : u = []
    · simp [consume, inUri, hne] at h
    · -- the target is complete
      obtain rfl := (Prod.mk.inj ((consume_uri_space hne).symm.trans h)).1
      have := At.letters ⟨m, u, hm.ne, hm.le, hm.token, hne, hu⟩ (k := 0) rfl
      simpa [Target.encode, inVersion] using this
  · by_cases hctl : isCtl b = false
    · by_cases hfull : (stored u).length = maxUriSize
      · have hsize : storageSize (stored u) = maxUriSize := hfull
        simp [consume, inUri, hspace, hsize] at h
      · obtain rfl := (Prod.mk.inj ((consume_uri ⟨hctl, hspace⟩ hfull).symm.trans h)).1
        rw [List.append_assoc, List.cons_append]
        refine .uri hm fun c hc => ?_
        rcases List.mem_append.1 hc with hc | hc
        · exact hu c hc
        · exact List.mem_singleton.1 hc ▸ ⟨hctl, hspace⟩
    · simp [consume, inUri, hspace, hctl] at h

theorem step_majorStart (t : Target)
    (h : consume (inVersion t .httpVersionMajorStart 0 0) b = (w', none)) :
    At (t.encode ++ protocol ++ [b]) w' := by
  have hb : b = 49 := by
    by_contra hne
    by_cases hd : isDigit b = true
    · -- a digit that is neither zero nor more than one
      have hdigit : b.toUInt32 - 48 = 0 ∨ 1 < b.toUInt32 - 48 := by
        have hn : b.toNat ≠ 49 := fun he => hne (UInt8.toNat_inj.1 he)
        have hrange := isDigit_iff.1 hd
        rw [← UInt32.toNat_inj, UInt32.lt_iff_toNat_lt, digit_toNat hd]
        show b.toNat - 48 = 0 ∨ 1 < b.toNat - 48
        omega
      simp [consume, inVersion, hd, maxVersion, hdigit] at h
    · simp [consume, inVersion, hd] at h
  subst hb
  obtain rfl := (Prod.mk.inj ((consume_major t).symm.trans h)).1
  exact .major t

theorem step_letters (t : Target) {k : ℕ} {state : ParserState}
    (hk : protocolStates[k]? = some state) (h : consume (inVersion t state 0 0) b = (w', none)) :
    At (t.encode ++ protocol.take k ++ [b]) w' := by
  have hnext : ∀ (c : UInt8) (next : ParserState),
      expect (inVersion t state 0 0) b c next = (w', none) →
      protocolStates[k + 1]? = some next → protocol.take (k + 1) = protocol.take k ++ [c] →
      At (t.encode ++ protocol.take k ++ [b]) w' := by
    intro c next he hk' hp
    obtain ⟨rfl, rfl⟩ := expect_eq_none he
    have := At.letters t hk'
    rwa [hp, ← List.append_assoc] at this
  rcases k with _ | _ | _ | _ | _ | _ | k
  · obtain rfl := Option.some.inj hk
    exact hnext 72 .httpVersionT1 h rfl rfl
  · obtain rfl := Option.some.inj hk
    exact hnext 84 .httpVersionT2 h rfl rfl
  · obtain rfl := Option.some.inj hk
    exact hnext 84 .httpVersionP h rfl rfl
  · obtain rfl := Option.some.inj hk
    exact hnext 80 .httpVersionSlash h rfl rfl
  · obtain rfl := Option.some.inj hk
    exact hnext 47 .httpVersionMajorStart h rfl rfl
  · obtain rfl := Option.some.inj hk
    exact step_majorStart t h
  · simp [protocolStates] at hk

theorem step_major (t : Target) (h : consume (inVersion t .httpVersionMajor 1 0) b = (w', none)) :
    At (t.encode ++ protocol ++ [49] ++ [b]) w' := by
  have hb : b = 46 := by
    by_contra hne
    by_cases hd : isDigit b = true
    · simp [consume, inVersion, hne, hd, maxVersion, boundedAddDigit_of_ne_zero] at h
    · simp [consume, inVersion, hne, hd] at h
  subst hb
  obtain rfl := (Prod.mk.inj ((consume_point t).symm.trans h)).1
  rw [List.append_assoc]
  exact .minorStart t

theorem step_minorStart (t : Target)
    (h : consume (inVersion t .httpVersionMinorStart 1 0) b = (w', none)) :
    At (t.encode ++ protocol ++ [49, 46] ++ [b]) w' := by
  by_cases hd : isDigit b = true
  · have hle : b ≤ 49 := by
      by_contra hgt
      have hmore : (1 : UInt32) < b.toUInt32 - 48 := by
        rw [UInt8.le_iff_toNat_le] at hgt
        rw [UInt32.lt_iff_toNat_lt, digit_toNat hd]
        have h49 : (49 : UInt8).toNat = 49 := rfl
        show 1 < b.toNat - 48
        omega
      simp [consume, inVersion, hd, maxVersion, hmore] at h
    obtain rfl := (Prod.mk.inj ((consume_minorStart t hd hle).symm.trans h)).1
    rw [List.append_assoc]
    exact .minor t ⟨0, b, hd, fun _ => hle⟩
  · simp [consume, inVersion, hd] at h

/-- The digit zero, after which any other may follow. -/
theorem stored_eq_zero_iff {v : Version} : v.stored = 0 ↔ v.digit = 48 := by
  rw [Version.stored, ← UInt32.toNat_inj, digit_toNat v.isDigit_digit, ← UInt8.toNat_inj]
  have := (isDigit_iff.1 v.isDigit_digit).1
  have h0 : (0 : UInt32).toNat = 0 := rfl
  have h48 : (48 : UInt8).toNat = 48 := rfl
  omega

theorem step_minor (t : Target) (v : Version)
    (h : consume (inVersion t .httpVersionMinor 1 v.stored) b = (w', none)) :
    At (t.encode ++ protocol ++ v.text ++ [b]) w' := by
  by_cases hcr : b = 13
  · subst hcr
    have hw : consume (inVersion t .httpVersionMinor 1 v.stored) 13 =
        (inHeaders t v [] .expectingNewline1 [] [] 0, none) := by
      simp [consume, inVersion, inHeaders, minVersion]
    obtain rfl := (Prod.mk.inj (hw.symm.trans h)).1
    exact .newline1 t v
  · by_cases hd : isDigit b = true
    · by_cases hz : v.stored = 0
      · rw [hz] at h
        obtain rfl := (Prod.mk.inj ((consume_minor t hd).symm.trans h)).1
        -- the digits before are all zeros
        have htext : v.text ++ [b] = (⟨v.zeros + 1, b, hd, by simp⟩ : Version).text := by
          simp only [Version.text, Version.minor, stored_eq_zero_iff.1 hz, List.replicate_succ',
            List.cons_append]
        rw [List.append_assoc, htext]
        exact .minor t ⟨v.zeros + 1, b, hd, by simp⟩
      · simp [consume, inVersion, hcr, hd, maxVersion, boundedAddDigit_of_ne_zero hz] at h
    · simp [consume, inVersion, hcr, hd] at h

theorem step_newline1 (t : Target) (v : Version)
    (h : consume (inHeaders t v [] .expectingNewline1 [] [] 0) b = (w', none)) :
    At (t.encode ++ protocol ++ v.text ++ [13] ++ [b]) w' := by
  obtain ⟨rfl, rfl⟩ := expect_eq_none h
  have := At.lineStart ⟨t, v, [], Nat.zero_le _⟩
  simpa [Head.lines, Head.line, Head.size, inHeaders] using this

theorem step_lineStart (d : Head)
    (h : consume (inHeaders d.target d.version d.headers .headerLineStart [] [] d.size) b =
      (w', none)) : At (d.lines ++ [b]) w' := by
  by_cases hcr : b = 13
  · subst hcr
    obtain rfl := (Prod.mk.inj h).1
    exact .newline3 d
  · by_cases htok : isToken b = true
    · by_cases hlt : d.size < maxHeadersSize
      · obtain rfl := (Prod.mk.inj ((consume_name _ _ _ [] (.inl rfl) htok hlt).symm.trans h)).1
        exact .name (n := [b]) d ⟨by simp, by simpa using htok, hlt⟩
      · have hfull : d.size = maxHeadersSize := Nat.le_antisymm d.size_le (Nat.le_of_not_lt hlt)
        simp [consume, inHeaders, addToName, hcr, hfull] at h
    · simp [consume, inHeaders, hcr, htok] at h

theorem step_name (d : Head) {n : List UInt8} (hn : IsName d.size n)
    (h : consume (inHeaders d.target d.version d.headers .headerName n [] (d.size + n.length)) b =
      (w', none)) : At (d.lines ++ n ++ [b]) w' := by
  by_cases hcolon : b = 58
  · subst hcolon
    obtain rfl := (Prod.mk.inj h).1
    exact .colon d hn
  · by_cases htok : isToken b = true
    · by_cases hlt : d.size + n.length < maxHeadersSize
      · obtain rfl := (Prod.mk.inj ((consume_name _ _ _ n (.inr rfl) htok hlt).symm.trans h)).1
        have hn' : IsName d.size (n ++ [b]) := by
          refine ⟨by simp, fun c hc => ?_, ?_⟩
          · rcases List.mem_append.1 hc with hc | hc
            · exact hn.token c hc
            · exact List.mem_singleton.1 hc ▸ htok
          · rw [List.length_append]
            exact hlt
        have := At.name d hn'
        rwa [List.length_append, List.length_singleton, ← List.append_assoc,
          ← Nat.add_assoc] at this
      · have hfull : d.size + n.length = maxHeadersSize :=
          Nat.le_antisymm hn.le (Nat.le_of_not_lt hlt)
        simp [consume, inHeaders, addToName, hcolon, hfull] at h
    · simp [consume, inHeaders, hcolon, htok] at h

theorem step_colon (d : Head) {n : List UInt8} (hn : IsName d.size n)
    (h : consume (inHeaders d.target d.version d.headers .spaceBeforeHeaderValue n []
      (d.size + n.length)) b = (w', none)) : At (d.lines ++ n ++ [58] ++ [b]) w' := by
  obtain ⟨rfl, rfl⟩ := expect_eq_none h
  have := At.value (x := []) d ⟨hn, by simp, hn.le⟩
  simpa [inHeaders] using this

theorem step_value (d : Head) {n x : List UInt8} (hx : IsField d.size n x)
    (h : consume (inHeaders d.target d.version d.headers .headerValue n x
      (d.size + n.length + x.length)) b = (w', none)) :
    At (d.lines ++ n ++ [58, 32] ++ x ++ [b]) w' := by
  by_cases hcr : b = 13
  · subst hcr
    obtain rfl := (Prod.mk.inj h).1
    exact .newline2 d hx
  · by_cases hctl : isCtl b = false
    · by_cases hlt : d.size + n.length + x.length < maxHeadersSize
      · obtain rfl := (Prod.mk.inj ((consume_value _ _ _ n x hctl hlt).symm.trans h)).1
        have hx' : IsField d.size n (x ++ [b]) := by
          refine ⟨hx.toIsName, fun c hc => ?_, ?_⟩
          · rcases List.mem_append.1 hc with hc | hc
            · exact hx.text c hc
            · exact List.mem_singleton.1 hc ▸ hctl
          · rw [List.length_append]
            exact hlt
        have := At.value d hx'
        rwa [List.length_append, List.length_singleton, ← List.append_assoc,
          ← Nat.add_assoc] at this
      · have hfull : d.size + n.length + x.length = maxHeadersSize :=
          Nat.le_antisymm hx.field_le (Nat.le_of_not_lt hlt)
        simp [consume, inHeaders, addToValue, hcr, hctl, hfull] at h
    · simp [consume, inHeaders, hcr, hctl] at h

/-- A head with one more header. -/
def Head.addHeader (d : Head) (h : Header) (hle : d.size + h.size ≤ maxHeadersSize) : Head :=
  { d with
    headers := d.headers ++ [h]
    size_le := by
      rw [List.map_append, List.sum_append]
      simpa [Head.size] using hle }

theorem step_newline2 (d : Head) {n x : List UInt8} (hx : IsField d.size n x)
    (h : consume (inHeaders d.target d.version d.headers .expectingNewline2 n x
      (d.size + n.length + x.length)) b = (w', none)) :
    At (d.lines ++ n ++ [58, 32] ++ x ++ [13] ++ [b]) w' := by
  by_cases hlf : b = 10
  · subst hlf
    let f : Header := ⟨n, x, hx.ne, hx.token, hx.text⟩
    obtain rfl := (Prod.mk.inj ((consume_lf d.target d.version d.headers f _).symm.trans h)).1
    have hle : d.size + (n.length + x.length) ≤ maxHeadersSize := by
      rw [← Nat.add_assoc]
      exact hx.field_le
    have := At.lineStart (d.addHeader f hle)
    simpa [Head.addHeader, Head.lines, Head.line, Head.size, Header.encode, Header.size, f,
      Nat.add_assoc] using this
  · simp [consume, inHeaders, hlf] at h

theorem step_newline3 (d : Head)
    (h : consume (inHeaders d.target d.version d.headers .expectingNewline3 [] [] d.size) b =
      (w', none)) : False := by
  simp only [consume, inHeaders, Prod.mk.injEq] at h
  split_ifs at h <;> simp at h

/-- **One byte** leads from one place of a head to the next. -/
theorem At.step (ha : At bytes w) (h : consume w b = (w', none)) : At (bytes ++ [b]) w' := by
  cases ha with
  | start => exact step_start h
  | method hm => exact step_method hm h
  | uri hm hu => exact step_uri hm hu h
  | letters t hk => exact step_letters t hk h
  | major t => exact step_major t h
  | minorStart t => exact step_minorStart t h
  | minor t v => exact step_minor t v h
  | newline1 t v => exact step_newline1 t v h
  | lineStart d => exact step_lineStart d h
  | name d hn => exact step_name d hn h
  | colon d hn => exact step_colon d hn h
  | value d hx => exact step_value d hx h
  | newline2 d hx => exact step_newline2 d hx h
  | newline3 d => exact (step_newline3 d h).elim

/-- A run that has not stopped, before its last byte. -/
theorem run_concat {w₀ : Work} (h : consumer.run w₀ (bytes ++ [b]) = (w, none, [])) :
    ∃ u, consumer.run w₀ bytes = (u, none, []) ∧ consume u b = (w, none) := by
  rcases hr : consumer.run w₀ bytes with ⟨u, _ | r, rest⟩
  · obtain rfl := Consumer.rest_eq_nil_of_run_none hr
    rw [Consumer.run_append_of_none [b] hr] at h
    rcases hc : consume u b with ⟨v, _ | r⟩
    · rw [run_consume hc] at h
      obtain rfl := (Prod.mk.inj h).1
      exact ⟨u, rfl, hc⟩
    · rw [Consumer.run_cons_of_some (C := consumer) hc] at h
      simp at h
  · rw [Consumer.run_append_of_some [b] hr] at h
    simp at h

/-- **Every run** leads from one place of a head to another. -/
theorem At.run {w₀ : Work} {more : List UInt8} (ha : At bytes w₀)
    (h : consumer.run w₀ more = (w, none, [])) : At (bytes ++ more) w := by
  induction more using List.reverseRecOn generalizing w with
  | nil =>
    obtain rfl := (Prod.mk.inj h).1
    rwa [List.append_nil]
  | append_singleton more b ih =>
    obtain ⟨u, hu, hc⟩ := run_concat h
    rw [← List.append_assoc]
    exact (ih hu).step hc

theorem at_of_run (h : consumer.run ({}, {}) bytes = (w, none, [])) : At bytes w := At.start.run h

/-! ### Where a head ends -/

/-- The only way to accept is the end of the empty line. -/
theorem consume_eq_good (h : consume w b = (w', some .good)) :
    w.1.state = .expectingNewline3 ∧ b = 10 ∧ w' = w := by
  obtain ⟨p, req⟩ := w
  have hexpect : ∀ (c : UInt8) (next : ParserState),
      expect (p, req) b c next ≠ (w', some .good) := by
    intro c next he
    unfold expect at he
    split_ifs at he <;> simp at he
  have hname : ∀ next, addToName (p, req) b next ≠ (w', some .good) := by
    intro next he
    unfold addToName at he
    split_ifs at he <;> simp at he
  have hvalue : addToValue (p, req) b ≠ (w', some .good) := by
    intro he
    unfold addToValue at he
    split_ifs at he <;> simp at he
  cases hst : p.state <;> simp only [consume, hst] at h
  case expectingNewline3 =>
    split_ifs at h with hb
    · exact ⟨rfl, hb, (Prod.mk.inj h).1.symm⟩
    · simp at h
  case httpVersionMajor =>
    cases hd : boundedAddDigit p.versionMajor (b.toUInt32 - 48) maxVersion.1 <;>
      rw [hd] at h <;> split_ifs at h <;> simp at h
  case httpVersionMinor =>
    cases hd : boundedAddDigit p.versionMinor (b.toUInt32 - 48)
      (if p.versionMajor = maxVersion.1 then maxVersion.2 else 4294967295) <;>
      rw [hd] at h <;> split_ifs at h <;> simp at h
  all_goals first
    | exact absurd h (hexpect _ _)
    | split_ifs at h <;> first
      | exact absurd h (hname _)
      | exact absurd h hvalue
      | simp at h

/-- **What is accepted is a head**, and the request is the one it stands for. -/
theorem At.good (ha : At bytes w) (h : consume w b = (w', some .good)) :
    ∃ d : Head, d.encode = bytes ++ [b] ∧ w'.2 = d.request := by
  obtain ⟨hst, rfl, rfl⟩ := consume_eq_good h
  cases ha with
  | newline3 d => exact ⟨d, by simp [Head.encode], rfl⟩
  | letters t hk =>
    have hmem : ParserState.expectingNewline3 ∈ protocolStates := hst ▸ List.mem_of_getElem? hk
    exact absurd hmem (by decide)
  | _ => exact absurd hst (by simp [inMethod, inUri, inVersion, inHeaders])

/-- The bytes up to the end of a run that accepts are the text of a head. -/
theorem exists_head {rest : List UInt8}
    (h : consumer.run ({}, {}) bytes = (w, some .good, rest)) :
    ∃ d : Head, bytes = d.encode ++ rest ∧ w.2 = d.request := by
  obtain ⟨pre, a, u, rfl, hu, ha⟩ := Consumer.run_eq_some_iff.1 h
  obtain ⟨d, hd, hw⟩ := (at_of_run hu).good ha
  exact ⟨d, by simp [hd], hw⟩

/-! ### Request lines in ASCII -/

/-- The bytes before the first CR are ASCII. -/
def LineAscii (bytes : List UInt8) : Prop := ∀ b ∈ bytes.takeWhile (· ≠ 13), b < 128

instance (bytes : List UInt8) : Decidable (LineAscii bytes) :=
  inferInstanceAs (Decidable (∀ b ∈ _, b < 128))

theorem LineAscii.of_append {as bs : List UInt8} (h : LineAscii (as ++ bs)) : LineAscii as := by
  intro b hb
  refine h b ?_
  rw [List.takeWhile_append]
  split_ifs with hall
  · exact List.mem_append_left _ (List.takeWhile_subset _ hb)
  · exact hb

theorem LineAscii.lt {as : List UInt8} (h : LineAscii as) (hcr : 13 ∉ as) : ∀ b ∈ as, b < 128 := by
  have hself : as.takeWhile (· ≠ 13) = as := by
    rw [List.takeWhile_eq_self_iff]
    intro b hb
    simpa using fun hb' : b = 13 => hcr (hb' ▸ hb)
  intro b hb
  exact h b (hself.symm ▸ hb)

theorem At.cr_notMem (ha : At bytes w) (hst : w.1.state = .uri) : 13 ∉ bytes := by
  cases ha with
  | uri hm hu =>
    have hm' := notMem_of_isToken hm.token (c := 13) (by decide)
    have hu' := notMem_of_isCtl (fun b hb => (hu b hb).1) (c := 13) (by decide)
    simp [hm', hu']
  | letters t hk =>
    have hmem : ParserState.uri ∈ protocolStates := hst ▸ List.mem_of_getElem? hk
    exact absurd hmem (by decide)
  | start => simp
  | _ => exact absurd hst (by simp [inMethod, inVersion, inHeaders])

/-- The URI is not too long. -/
def Fits (w : Work) : Prop := w.1.uriBuilder.length ≤ maxUriSize ∧ w.2.uri.length ≤ maxUriSize

/-- With a request line in ASCII the limit on the URI is met exactly. -/
theorem Fits.step (ha : At bytes w) (hw : Fits w) (hline : LineAscii (bytes ++ [b])) :
    Fits (consume w b).1 := by
  have hc := consumed w b
  rcases hcons : consume w b with ⟨v, o⟩
  rw [hcons] at hc
  dsimp only at hc ⊢
  cases hc with
  | none _ h₂ h₃ => exact ⟨h₂ ▸ hw.1, h₃ ▸ hw.2⟩
  | method _ _ _ h => rw [h]; exact hw
  | methodEnd _ _ h => rw [h]; exact hw
  | uri h₁ h₂ h₃ h₄ _ h =>
    have hb : b < 128 := by
      refine hline.lt ?_ b (by simp)
      simpa using ⟨ha.cr_notMem h₁, (ne_cr_of_isCtl h₃).symm⟩
    rw [h]
    refine ⟨?_, hw.2⟩
    show (append w.1.uriBuilder b).length ≤ maxUriSize
    rw [append_of_lt hb, List.length_append]
    exact Nat.lt_of_le_of_ne hw.1 h₄
  | uriEnd _ _ h => rw [h]; exact ⟨Nat.zero_le _, hw.1⟩
  | header _ _ _ _ h₅ h₆ => exact ⟨h₅ ▸ hw.1, h₆ ▸ hw.2⟩

theorem fits_of_run (hline : LineAscii bytes) (h : consumer.run ({}, {}) bytes = (w, none, [])) :
    Fits w := by
  induction bytes using List.reverseRecOn generalizing w with
  | nil =>
    obtain rfl := (Prod.mk.inj h).1
    exact ⟨Nat.zero_le _, Nat.zero_le _⟩
  | append_singleton bytes b ih =>
    obtain ⟨u, hu, hc⟩ := run_concat h
    have := (ih hline.of_append hu).step (at_of_run hu) hline
    rwa [hc] at this

/-! ### Beginnings of heads -/

/-- A proper beginning of a head. -/
def Viable (bytes : List UInt8) : Prop := ∃ tail, tail ≠ [] ∧ Language (bytes ++ tail)

theorem Viable.of_append (more : List UInt8) (h : Viable (bytes ++ more)) : Viable bytes := by
  obtain ⟨tail, hne, hL⟩ := h
  exact ⟨more ++ tail, by simp [hne], by rwa [← List.append_assoc]⟩

theorem viable_lines (d : Head) (hd : d.target.uri.length ≤ maxUriSize) : Viable d.lines :=
  ⟨[13, 10], by simp, d, hd, rfl⟩

theorem viable_line (t : Target) (v : Version) (ht : t.uri.length ≤ maxUriSize) :
    Viable (t.encode ++ protocol ++ v.text) := by
  have h := viable_lines ⟨t, v, [], Nat.zero_le _⟩ ht
  exact .of_append [13, 10] (by simpa [Head.lines, Head.line] using h)

/-- Version 1.0. -/
def version10 : Version := ⟨0, 48, by decide, fun _ => by decide⟩

theorem viable_target (t : Target) (ht : t.uri.length ≤ maxUriSize) : Viable t.encode := by
  have h := viable_line t version10 ht
  rw [List.append_assoc] at h
  exact .of_append _ h

/-- After the name of a header and the beginning of its value the line can be ended. -/
theorem viable_field (d : Head) {n x : List UInt8} (hx : IsField d.size n x)
    (hd : d.target.uri.length ≤ maxUriSize) : Viable (d.lines ++ n ++ [58, 32] ++ x ++ [13]) := by
  have hle : d.size + (n.length + x.length) ≤ maxHeadersSize := by
    rw [← Nat.add_assoc]
    exact hx.field_le
  have h := viable_lines (d.addHeader ⟨n, x, hx.ne, hx.token, hx.text⟩ hle) hd
  refine .of_append [10] ?_
  simpa [Head.addHeader, Head.lines, Head.line, Header.encode] using h

/-- **Every place of a head** is on the way to the end of one. -/
theorem At.viable (ha : At bytes w) (hw : Fits w) : Viable bytes := by
  have huri : ∀ t : Target, w.2.uri = stored t.uri → t.uri.length ≤ maxUriSize := by
    intro t ht
    exact Nat.le_trans (length_le_stored _) (ht ▸ hw.2)
  have hroot : ∀ m, IsMethod m → Viable (m ++ [32, 47, 32]) := by
    intro m hm
    have huri : ∀ b ∈ [(47 : UInt8)], isCtl b = false ∧ b ≠ 32 :=
      List.forall_mem_singleton.2 (by decide)
    exact viable_target ⟨m, [47], hm.ne, hm.le, hm.token, by simp, huri⟩
      (show 1 ≤ maxUriSize by decide)
  cases ha with
  | start =>
    exact .of_append _ (hroot [71] ⟨by simp, by decide, List.forall_mem_singleton.2 (by decide)⟩)
  | method hm => exact .of_append [32, 47, 32] (hroot bytes hm)
  | @uri m u hm hu =>
    have hlen : u.length ≤ maxUriSize := Nat.le_trans (length_le_stored u) hw.1
    by_cases hne : u = []
    · subst hne
      refine .of_append [47, 32] ?_
      simpa using hroot m hm
    · have h := viable_target ⟨m, u, hm.ne, hm.le, hm.token, hne, hu⟩ hlen
      refine .of_append [32] ?_
      simpa [Target.encode] using h
  | @letters t k _ hk =>
    have h := viable_line t version10 (huri t rfl)
    refine .of_append (protocol.drop k) (.of_append version10.text ?_)
    rwa [List.append_assoc t.encode, List.take_append_drop]
  | major t =>
    refine .of_append [46, 48] ?_
    rw [List.append_assoc]
    exact viable_line t version10 (huri t rfl)
  | minorStart t =>
    refine .of_append [48] ?_
    rw [List.append_assoc]
    exact viable_line t version10 (huri t rfl)
  | minor t v => exact viable_line t v (huri t rfl)
  | newline1 t v =>
    have h := viable_lines ⟨t, v, [], Nat.zero_le _⟩ (huri t rfl)
    refine .of_append [10] ?_
    simpa [Head.lines, Head.line] using h
  | lineStart d => exact viable_lines d (huri d.target rfl)
  | name d hn =>
    have h := viable_field d ⟨hn, by simp, hn.le⟩ (huri d.target rfl) (x := [])
    refine .of_append [58, 32, 13] ?_
    simpa using h
  | colon d hn =>
    have h := viable_field d ⟨hn, by simp, hn.le⟩ (huri d.target rfl) (x := [])
    refine .of_append [32, 13] ?_
    simpa using h
  | value d hx => exact .of_append [13] (viable_field d hx (huri d.target rfl))
  | newline2 d hx => exact viable_field d hx (huri d.target rfl)
  | newline3 d => exact ⟨[10], by simp, d, huri d.target rfl, by simp [Head.encode]⟩

/-! ### No beginning of a head is refused -/

/-- A byte, or a letter in its place if it is not ASCII. -/
def toAscii (b : UInt8) : UInt8 := if b < 128 then b else 97

theorem toAscii_lt (b : UInt8) : toAscii b < 128 := by
  unfold toAscii
  split_ifs with h
  · exact h
  · decide

theorem map_toAscii {text : List UInt8} (h : ∀ b ∈ text, b < 128) : text.map toAscii = text := by
  refine (List.map_congr_left fun b hb => ?_).trans text.map_id
  exact if_pos (h b hb)

/-- A head with its URI in ASCII. -/
def Head.ascii (d : Head) : Head :=
  { d with
    target := { d.target with
      uri := d.target.uri.map toAscii
      uri_ne := by simpa using d.target.uri_ne
      uri_text := by
        intro b hb
        obtain ⟨c, hc, rfl⟩ := List.mem_map.1 hb
        unfold toAscii
        split_ifs
        · exact d.target.uri_text c hc
        · decide } }

/-- The text of a head after its URI. -/
def Head.afterUri (d : Head) : List UInt8 :=
  32 :: (protocol ++ d.version.text ++ 13 :: 10 :: d.headers.flatMap Header.encode ++ [13, 10])

theorem Head.encode_eq (d : Head) :
    d.encode = (d.target.method ++ 32 :: d.target.uri) ++ d.afterUri := by
  simp [Head.encode, Head.lines, Head.line, Head.afterUri, Target.encode]

theorem Head.encode_ascii (d : Head) :
    d.ascii.encode = (d.target.method ++ 32 :: d.target.uri).map toAscii ++ d.afterUri := by
  have hm : d.target.method.map toAscii = d.target.method :=
    map_toAscii fun b hb => lt_of_isToken (d.target.method_token b hb)
  have h32 : toAscii 32 = 32 := by decide
  rw [Head.encode_eq, List.map_append, List.map_cons, hm, h32]
  rfl

/-- A beginning of a head with its request line in ASCII is one of a head with its URI in ASCII. -/
theorem exists_ascii {as bs : List UInt8} {d : Head} (hline : LineAscii as)
    (hd : d.encode = as ++ bs) : ∃ bs', (bs' = [] ↔ bs = []) ∧ d.ascii.encode = as ++ bs' := by
  have hm := notMem_of_isToken d.target.method_token (c := 13) (by decide)
  have hu := notMem_of_isCtl (fun b hb => (d.target.uri_text b hb).1) (c := 13) (by decide)
  have hcr : 13 ∉ d.target.method ++ 32 :: d.target.uri := by simp [hm, hu]
  rw [Head.encode_eq] at hd
  rw [Head.encode_ascii]
  generalize d.target.method ++ 32 :: d.target.uri = front at hd hcr
  rcases List.append_eq_append_iff.1 hd with ⟨c, rfl, hc⟩ | ⟨c, rfl, rfl⟩
  · -- the URI is within the beginning
    refine ⟨bs, Iff.rfl, ?_⟩
    rw [map_toAscii (hline.of_append.lt hcr), hc, List.append_assoc]
  · refine ⟨c.map toAscii ++ d.afterUri, by simp [Head.afterUri], ?_⟩
    rw [List.map_append, map_toAscii (hline.lt fun h => hcr (List.mem_append_left _ h)),
      List.append_assoc]

/-- **A beginning of a head is read on**, and a head is accepted. -/
theorem complete_heads {as bs : List UInt8} (hline : LineAscii as) (hL : Language (as ++ bs)) :
    ∃ w, consumer.run ({}, {}) as = (w, if bs = [] then some .good else none, []) := by
  obtain ⟨d, hle, hd⟩ := hL
  obtain ⟨bs', hbs, hd'⟩ := exists_ascii hline hd
  have hascii : ∀ b ∈ d.ascii.target.uri, b < 128 := by
    intro b hb
    obtain ⟨c, -, rfl⟩ := List.mem_map.1 hb
    exact toAscii_lt c
  have hlen : d.ascii.target.uri.length ≤ maxUriSize :=
    Nat.le_trans (Nat.le_of_eq (List.length_map _)) hle
  have hrun : consumer.run ({}, {}) (d.ascii.encode ++ []) = _ := run_encode d.ascii hascii hlen
  rw [List.append_nil, hd'] at hrun
  split_ifs with hnil
  · rw [hbs.2 hnil, List.append_nil] at hrun
    exact ⟨_, hrun⟩
  · rcases hr : consumer.run ({}, {}) as with ⟨w, _ | r, rest⟩
    · obtain rfl := Consumer.rest_eq_nil_of_run_none hr
      exact ⟨w, rfl⟩
    · -- it would have stopped before the end of the head
      rw [Consumer.run_append_of_some _ hr] at hrun
      have hrest : rest ++ bs' = [] := congrArg (fun x => x.2.2) hrun
      exact absurd (hbs.1 (List.append_eq_nil_iff.1 hrest).2) hnil

/-- **The parser recognizes the heads** on requests whose request line is ASCII. -/
theorem recognizes : consumer.Recognizes ({}, {}) .good Language LineAscii where
  prefix_mem _ _ h := h.of_append
  sound as t hline h := by
    obtain ⟨pre, b, u, rfl, hu, hb⟩ := Consumer.run_eq_some_iff.1 h
    obtain ⟨d, hd, ht⟩ := (at_of_run hu).good hb
    have hfits := (fits_of_run hline.of_append hu).step (at_of_run hu) hline
    refine ⟨d, ?_, hd⟩
    have huri : t.2.uri.length ≤ maxUriSize := by
      have := hfits.2
      rwa [show consume u b = (t, some .good) from hb] at this
    rw [ht] at huri
    exact Nat.le_trans (length_le_stored _) huri
  viable as t hline h := (at_of_run h).viable (fits_of_run hline h)
  complete as bs hline hL := complete_heads hline hL

/-- The request holds what stands in the head, with the values as the builder stores them. -/
structure Captured (req : HttpRequest) (d : Head) : Prop where
  method : req.method = d.target.method
  uri : req.uri = d.target.uri
  headers : req.headers = d.headers.map Header.entry

theorem uri_ascii {d : Head} {rest : List UInt8} (hline : LineAscii (d.encode ++ rest)) :
    ∀ b ∈ d.target.uri, b < 128 := by
  have hm := notMem_of_isToken d.target.method_token (c := 13) (by decide)
  have hu := notMem_of_isCtl (fun b hb => (d.target.uri_text b hb).1) (c := 13) (by decide)
  intro b hb
  rw [Head.encode_eq, List.append_assoc] at hline
  exact hline.of_append.lt (by simp [hm, hu]) b (by simp [hb])

/-- **What each result of `parse` says** about a request whose request line is ASCII: the first `n`
bytes are a head, and it was captured; they are the first that no head begins with; or all bytes are
a proper beginning of one. -/
theorem recognizes_heads (p : HttpRequestParser) {bytes : List UInt8} (hline : LineAscii bytes) :
    (∀ n, (∃ w, parse p.reset {} bytes = (w, some .good, bytes.drop n)) ↔
      Language (bytes.take n)) ∧
    (∀ w n, parse p.reset {} bytes = (w, some .good, bytes.drop n) →
      ∃ d, (∀ d' : Head, d'.encode = bytes.take n ↔ d' = d) ∧ Captured w.2 d) ∧
    (∀ n ≤ bytes.length, (∃ w, parse p.reset {} bytes = (w, some .bad, bytes.drop n)) ↔
      0 < n ∧ Viable (bytes.take (n - 1)) ∧ ∀ tail, ¬ Language (bytes.take n ++ tail)) ∧
    ((∃ w, parse p.reset {} bytes = (w, none, [])) ↔ Viable bytes) := by
  refine ⟨fun n => recognizes.good_iff hline, fun w n h => ?_, fun n hn => ?_,
    recognizes.none_iff hline⟩
  · obtain ⟨d, hd, hw⟩ := exists_head h
    have htake : d.encode = bytes.take n :=
      List.append_cancel_right (hd.symm.trans (List.take_append_drop n bytes).symm)
    refine ⟨d, fun d' => ⟨fun h' => Head.encode_injective (h'.trans htake.symm), ?_⟩, ?_⟩
    · rintro rfl
      exact htake
    · have huri : stored d.target.uri = d.target.uri := stored_of_ascii (uri_ascii (hd ▸ hline))
      rw [hw]
      exact ⟨rfl, huri, rfl⟩
  · refine Iff.trans ⟨?_, ?_⟩ (recognizes.bad_iff hline hn)
    · rintro ⟨w, hw⟩
      exact ⟨w, .bad, by decide, hw⟩
    · rintro ⟨w, r, hr, hw⟩
      cases r with
      | good => exact absurd rfl hr
      | bad => exact ⟨w, hw⟩

/-- A request with one header, and the first byte of the next one. -/
def twoRequests : List UInt8 := SysString.ofLiteral "G / HTTP/1.1\r\nA: b\r\n\r\nG"

/-- The first request of the two ends after its empty line. -/
theorem recognizes_twoRequests :
    LineAscii twoRequests ∧ Language (twoRequests.take 22) ∧ ¬ Viable twoRequests := by
  have hline : LineAscii twoRequests := by decide +kernel
  obtain ⟨hgood, -, -, hnone⟩ := recognizes_heads {} hline
  have hrun : parse (reset {}) {} twoRequests =
      ((parse (reset {}) {} twoRequests).1, some .good, twoRequests.drop 22) := by decide +kernel
  refine ⟨hline, (hgood 22).1 ⟨_, hrun⟩, fun hv => ?_⟩
  obtain ⟨w, hw⟩ := hnone.2 hv
  rw [hrun] at hw
  simp at hw

/-- The request holds the bytes that stand in the head. -/
structure Holds (req : HttpRequest) (d : Head) : Prop where
  method : req.method = d.target.method
  uri : req.uri = d.target.uri
  headers : req.headers = d.headers.map fun h => (h.name, h.value)

/-- A request with a header `A`, whose value is an e with an acute accent in UTF-8. -/
def accented : List UInt8 :=
  SysString.ofLiteral "G / HTTP/1.1\r\nA: " ++ [0xc3, 0xa9] ++ SysString.ofLiteral "\r\n\r\n"

/-- **A value that is not ASCII is stored in other bytes**: each byte of it is appended as a code
point of its own. -/
theorem accented_value_changes :
    (parse (reset {}) {} accented).2 = (some .good, []) ∧
    (parse (reset {}) {} accented).1.2.headers = [([65], [0xc3, 0x83, 0xc2, 0xa9])] ∧
    ¬ ∀ (bytes : List UInt8) (w : Work) (n : ℕ), LineAscii bytes →
      parse (reset {}) {} bytes = (w, some .good, bytes.drop n) →
      ∃ d : Head, d.encode = bytes.take n ∧ Holds w.2 d := by
  have hgood : (parse (reset {}) {} accented).2 = (some .good, []) := by decide +kernel
  have hheaders : (parse (reset {}) {} accented).1.2.headers =
      [([65], [0xc3, 0x83, 0xc2, 0xa9])] := by decide +kernel
  refine ⟨hgood, hheaders, fun h => ?_⟩
  have hline : LineAscii accented := by decide +kernel
  have hrun : parse (reset {}) {} accented =
      ((parse (reset {}) {} accented).1, some .good, accented.drop accented.length) := by
    rw [List.drop_length, ← hgood]
  obtain ⟨d, hd, hholds⟩ := h _ _ _ hline hrun
  obtain ⟨d', hd', hw⟩ := exists_head hrun
  rw [List.drop_length, List.append_nil] at hd'
  rw [List.take_length, hd'] at hd
  obtain rfl := Head.encode_injective hd
  have hheld := hholds.headers
  rw [hheaders] at hheld
  obtain ⟨header, hlist, hentry⟩ := List.map_eq_singleton_iff.1 hheld.symm
  -- the head has these bytes as well, and the builder would store others for them
  have hentries := congrArg HttpRequest.headers hw
  rw [hheaders] at hentries
  have hstored : ([65], [0xc3, 0x83, 0xc2, 0xa9]) = header.entry := by
    have : [([65], [0xc3, 0x83, 0xc2, 0xa9])] = d.headers.map Header.entry := hentries
    rw [hlist] at this
    exact List.head_eq_of_cons_eq this
  have hvalue : header.value = [0xc3, 0x83, 0xc2, 0xa9] := (Prod.mk.inj hentry).2
  have hsame : stored header.value = [0xc3, 0x83, 0xc2, 0xa9] := (Prod.mk.inj hstored).2.symm
  rw [hvalue] at hsame
  exact absurd hsame (by decide)

end HttpRequestParser

end Wsddn
