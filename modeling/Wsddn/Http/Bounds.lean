import Wsddn.Http.Grammar
import Wsddn.Machine.Basic

/-!
# The text that the request parser holds (`http_request_parser.cpp`)

The parser limits what it stores: the method, the URI and all headers together.  The limits are
tested with `==`, before a byte is stored.  A byte of a method and a byte of a header count once; a
byte of a URI counts by what it takes in storage, two bytes if it is not ASCII, so the limit of the
URI can be stepped over.

* `feed` : a parser after a reset, byte by byte.
* `bounded_iff` : the limits are kept exactly if no byte that takes two arrives when there is room
  for one.
-/

namespace Wsddn

namespace HttpRequestParser

open SysStringBuilder

/-- A parser at work, with its result if it has stopped. -/
abbrev Fed := Work × Option ResultType

/-- The parser is reset and fed byte by byte, until it stops. -/
def feed : Machine Fed UInt8 where
  init x := ∃ p req, x = ((reset p, req), none)
  step x b := if x.2.isSome then none else some (consume x.1 b)

/-- A byte of a header name or value. -/
def isHeaderByte (state : ParserState) (b : UInt8) : Bool :=
  match state with
  | .headerLineStart | .headerName => isToken b
  | .headerValue => !isCtl b
  | .headerLws => !isCtl b && b ≠ 32
  | _ => false

/-- The bytes of header names and values that were accepted so far. -/
def countHeaderByte (count : ℕ) (x : Fed) (b : UInt8) : ℕ :=
  if isHeaderByte x.1.1.state b && (consume x.1 b).2.isNone then count + 1 else count

/-- The parser, with the number of header bytes it has accepted. -/
def counted : Machine (Fed × ℕ) UInt8 := feed.withHistory 0 countHeaderByte

/-- The stored text is within the limits. -/
structure Bounded (x : Fed × ℕ) : Prop where
  method : storageSize x.1.1.1.methodBuilder ≤ 10
  uri : storageSize x.1.1.1.uriBuilder ≤ 2048
  headers : x.1.1.1.totalHeadersSize = x.2
  headers_le : x.2 ≤ 8192

/-- No byte that takes two bytes of storage arrives when there is room for one. -/
def OneByteLeft (x : Fed × ℕ) (b : UInt8) : Prop :=
  x.1.1.1.state = .uri → storageSize x.1.1.1.uriBuilder = 2047 → b < 128

/-! ### One byte -/

theorem storageSize_append (s : SysStringBuilder) (b : UInt8) :
    storageSize (append s b) = storageSize s + if b < 128 then 1 else 2 := by
  unfold storageSize append
  split_ifs <;> simp

/-- What one byte does to the text that is held. -/
inductive Consumed (w : Work) (b : UInt8) (w' : Work) (o : Option ResultType) : Prop
  | none (hm : w'.1.methodBuilder = w.1.methodBuilder) (hu : w'.1.uriBuilder = w.1.uriBuilder)
      (hr : w'.2.uri = w.2.uri) (ht : w'.1.totalHeadersSize = w.1.totalHeadersSize)
      (hs : w'.1.state = .methodStart → w.1.state = .methodStart)
      (hb : isHeaderByte w.1.state b = true → o ≠ .none)
  | method (hs : w.1.state = .methodStart ∨
        w.1.state = .method ∧ storageSize w.1.methodBuilder ≠ maxMethodSize)
      (hb : isToken b = true) (ho : o = .none) (hw : w' =
        ({ w.1 with methodBuilder := append w.1.methodBuilder b, state := .method }, w.2))
  | methodEnd (hs : w.1.state = .method) (ho : o = .none) (hw : w' =
        ({ w.1 with methodBuilder := [], state := .uri }, { w.2 with method := w.1.methodBuilder }))
  | uri (hs : w.1.state = .uri) (hb : b ≠ 32) (hc : isCtl b = false)
      (hne : storageSize w.1.uriBuilder ≠ maxUriSize) (ho : o = .none)
      (hw : w' = ({ w.1 with uriBuilder := append w.1.uriBuilder b }, w.2))
  | uriEnd (hs : w.1.state = .uri) (ho : o = .none) (hw : w' =
        ({ w.1 with uriBuilder := [], state := .httpVersionH }, { w.2 with uri := w.1.uriBuilder }))
  | header (hb : isHeaderByte w.1.state b = true)
      (hne : w.1.totalHeadersSize ≠ maxHeadersSize) (ho : o = .none)
      (hm : w'.1.methodBuilder = w.1.methodBuilder) (hu : w'.1.uriBuilder = w.1.uriBuilder)
      (hr : w'.2.uri = w.2.uri) (ht : w'.1.totalHeadersSize = w.1.totalHeadersSize + 1)
      (hs : w'.1.state ≠ .methodStart)

theorem consumed (w : Work) (b : UInt8) : Consumed w b (consume w b).1 (consume w b).2 := by
  obtain ⟨p, req⟩ := w
  cases hst : p.state
  case methodStart =>
    simp only [consume, hst]
    split_ifs with hb
    · exact .none rfl rfl rfl rfl (fun h => h) (by simp [isHeaderByte, hst])
    · exact .method (.inl hst) (by simpa using hb) rfl rfl
  case method =>
    simp only [consume, hst]
    split_ifs with hb htok hsize
    · exact .methodEnd hst rfl rfl
    · exact .none rfl rfl rfl rfl (fun h => h) (by simp [isHeaderByte, hst])
    · exact .none rfl rfl rfl rfl (fun h => h) (by simp [isHeaderByte, hst])
    · exact .method (.inr ⟨hst, hsize⟩) (by simpa using htok) rfl (by rw [← hst])
  case uri =>
    simp only [consume, hst]
    split_ifs with hb hempty hctl hsize
    · exact .none rfl rfl rfl rfl (fun h => h) (by simp [isHeaderByte, hst])
    · exact .uriEnd hst rfl rfl
    · exact .none rfl rfl rfl rfl (fun h => h) (by simp [isHeaderByte, hst])
    · exact .none rfl rfl rfl rfl (fun h => h) (by simp [isHeaderByte, hst])
    · exact .uri hst hb (by simpa using hctl) hsize rfl (by rw [← hst])
  case headerLineStart =>
    simp only [consume, hst, addToName]
    split_ifs with hcr hlws htok hsize
    · exact .none rfl rfl rfl rfl (by simp) (by simp [isHeaderByte, hst, hcr]; decide)
    · refine .none rfl rfl rfl rfl (by simp) ?_
      rcases hlws.2 with h | h <;> simp [isHeaderByte, hst, h] <;> decide
    · exact .none rfl rfl rfl rfl (fun h => h) (by simp)
    · exact .none rfl rfl rfl rfl (fun h => h) (by simp)
    · exact .header (by simpa [isHeaderByte, hst] using htok) hsize rfl rfl rfl rfl rfl (by simp)
  case headerName =>
    simp only [consume, hst, addToName]
    split_ifs with hcolon htok hsize
    · exact .none rfl rfl rfl rfl (by simp) (by simp [isHeaderByte, hst, hcolon]; decide)
    · exact .none rfl rfl rfl rfl (fun h => h) (by simp)
    · exact .none rfl rfl rfl rfl (fun h => h) (by simp)
    · exact .header (by simpa [isHeaderByte, hst] using htok) hsize rfl rfl rfl rfl rfl (by simp)
  case headerLws =>
    simp only [consume, hst, addToValue]
    split_ifs with hcr hlws hctl hsize
    · exact .none rfl rfl rfl rfl (by simp) (by simp [isHeaderByte, hst, hcr]; decide)
    · refine .none rfl rfl rfl rfl (fun h => h) ?_
      rcases hlws with h | h <;> simp [isHeaderByte, hst, h]
      decide
    · exact .none rfl rfl rfl rfl (fun h => h) (by simp)
    · exact .none rfl rfl rfl rfl (by simp) (by simp)
    · refine .header ?_ hsize rfl rfl rfl rfl rfl (by simp)
      rw [not_or] at hlws
      simpa [isHeaderByte, hst, hlws.1] using hctl
  case headerValue =>
    simp only [consume, hst, addToValue]
    split_ifs with hcr hctl hsize
    · exact .none rfl rfl rfl rfl (by simp) (by simp [isHeaderByte, hst, hcr]; decide)
    · exact .none rfl rfl rfl rfl (fun h => h) (by simp)
    · exact .none rfl rfl rfl rfl (by simp) (by simp)
    · exact .header (by simpa [isHeaderByte, hst] using hctl) hsize rfl rfl rfl rfl rfl (by simp)
  case httpVersionMajor =>
    simp only [consume, hst]
    cases boundedAddDigit p.versionMajor (b.toUInt32 - 48) maxVersion.1 <;> split_ifs <;>
      exact .none rfl rfl rfl rfl (by simp [hst]) (by simp [isHeaderByte, hst])
  case httpVersionMinor =>
    simp only [consume, hst]
    cases boundedAddDigit p.versionMinor (b.toUInt32 - 48)
      (if p.versionMajor = maxVersion.1 then maxVersion.2 else 4294967295) <;> split_ifs <;>
      exact .none rfl rfl rfl rfl (by simp [hst]) (by simp [isHeaderByte, hst])
  case expectingNewline3 =>
    simp only [consume, hst]
    exact .none rfl rfl rfl rfl (fun h => h) (by simp [isHeaderByte, hst])
  all_goals
    simp only [consume, hst, expect]
    split_ifs <;> exact .none rfl rfl rfl rfl (by simp [hst]) (by simp [isHeaderByte, hst])

/-! ### Runs -/

/-- The limits, and no method before its first byte. -/
structure Limits (x : Fed × ℕ) : Prop extends Bounded x where
  start : x.1.1.1.state = .methodStart → x.1.1.1.methodBuilder = []

variable {x y : Fed × ℕ} {b : UInt8}

theorem counted_step_eq_some (h : counted.step x b = some y) :
    x.1.2 = none ∧ y.1 = consume x.1.1 b ∧ y.2 = countHeaderByte x.2 x.1 b := by
  obtain ⟨hst, hn⟩ := Machine.withHistory_step_eq_some.1 h
  replace hst : (if x.1.2.isSome then none else some (consume x.1.1 b)) = some y.1 := hst
  split_ifs at hst with ho
  exact ⟨by simpa using ho, (Option.some.inj hst).symm, hn⟩

theorem limits_init (h : counted.init x) : Limits x := by
  obtain ⟨⟨p, req, hx⟩, hn⟩ := h
  refine ⟨⟨?_, ?_, ?_, ?_⟩, ?_⟩
  · rw [hx]
    exact Nat.zero_le _
  · rw [hx]
    exact Nat.zero_le _
  · rw [hx, hn]
    rfl
  · rw [hn]
    exact Nat.zero_le _
  · rw [hx]
    exact fun _ => rfl

/-- One byte keeps the limits, if it is not the one that the URI has no room for. -/
theorem Limits.step (hx : Limits x) (hb : OneByteLeft x b) (hst : counted.step x b = some y) :
    Limits y := by
  obtain ⟨-, hy, hn⟩ := counted_step_eq_some hst
  have hm := hx.method
  have hu := hx.uri
  have ht := hx.headers
  have hle := hx.headers_le
  obtain ⟨⟨w', o⟩, n'⟩ := y
  obtain ⟨⟨w, o₀⟩, n⟩ := x
  have hcons := consumed w b
  dsimp only at hm hu ht hle hn hy
  unfold countHeaderByte at hn
  dsimp only at hn
  rw [← hy] at hcons hn
  dsimp only at hcons hn
  cases hcons with
  | none h₁ h₂ _ h₃ h₄ h₅ =>
    -- a header byte is counted only if the parser goes on
    have hcount : n' = n := by
      rw [hn, if_neg]
      rw [Bool.and_eq_true, Option.isNone_iff_eq_none]
      exact fun h => h₅ h.1 h.2
    refine ⟨⟨?_, ?_, ?_, ?_⟩, fun h => ?_⟩
    · exact Nat.le_trans (Nat.le_of_eq (congrArg storageSize h₁)) hm
    · exact Nat.le_trans (Nat.le_of_eq (congrArg storageSize h₂)) hu
    · exact h₃.trans (ht.trans hcount.symm)
    · exact hcount ▸ hle
    · exact h₁.trans (hx.start (h₄ h))
  | method h₁ h₂ h₃ h₄ =>
    have hcount : n' = n := by
      rcases h₁ with h | h <;> simpa [h, isHeaderByte] using hn
    rw [h₄]
    refine ⟨⟨?_, hu, ht.trans hcount.symm, hcount ▸ hle⟩, by simp⟩
    show storageSize (append w.1.methodBuilder b) ≤ 10
    rw [storageSize_append, if_pos (lt_of_isToken h₂)]
    rcases h₁ with h | ⟨-, h⟩
    · rw [show w.1.methodBuilder = [] from hx.start h]
      decide
    · exact Nat.lt_of_le_of_ne hm h
  | methodEnd h₁ h₂ h₃ =>
    have hcount : n' = n := by simpa [h₁, isHeaderByte] using hn
    rw [h₃]
    exact ⟨⟨Nat.zero_le _, hu, ht.trans hcount.symm, hcount ▸ hle⟩, by simp⟩
  | uri h₁ h₂ h₃ h₄ h₅ h₆ =>
    have hcount : n' = n := by simpa [h₁, isHeaderByte] using hn
    rw [h₆]
    refine ⟨⟨hm, ?_, ht.trans hcount.symm, hcount ▸ hle⟩, by simp [h₁]⟩
    show storageSize (append w.1.uriBuilder b) ≤ 2048
    have hroom : storageSize w.1.uriBuilder = 2047 → b < 128 := hb h₁
    have hne : storageSize w.1.uriBuilder ≠ 2048 := h₄
    rw [storageSize_append]
    split_ifs with hlt
    · omega
    · have : storageSize w.1.uriBuilder ≠ 2047 := mt hroom hlt
      omega
  | uriEnd h₁ h₂ h₃ =>
    have hcount : n' = n := by simpa [h₁, isHeaderByte] using hn
    rw [h₃]
    exact ⟨⟨hm, Nat.zero_le _, ht.trans hcount.symm, hcount ▸ hle⟩, by simp⟩
  | header h₁ h₂ h₃ h₄ h₅ _ h₆ h₇ =>
    have hcount : n' = n + 1 := by
      rw [hn, if_pos]
      rw [h₁, h₃]
      rfl
    have hlt : n < 8192 := Nat.lt_of_le_of_ne hle (ht ▸ h₂)
    refine ⟨⟨?_, ?_, ?_, ?_⟩, fun h => absurd h h₇⟩
    · exact Nat.le_trans (Nat.le_of_eq (congrArg storageSize h₄)) hm
    · exact Nat.le_trans (Nat.le_of_eq (congrArg storageSize h₅)) hu
    · exact h₆.trans ((congrArg (· + 1) ht).trans hcount.symm)
    · exact hcount ▸ hlt

theorem isCtl_of_not_lt {b : UInt8} (h : ¬ b < 128) : isCtl b = false := by
  have hge : 128 ≤ b.toNat := by
    rw [UInt8.lt_iff_toNat_lt] at h
    exact Nat.le_of_not_lt h
  have h31 : ¬ b ≤ 31 := by
    rw [UInt8.le_iff_toNat_le]
    show ¬ b.toNat ≤ 31
    omega
  have h127 : b ≠ 127 := by
    rintro rfl
    exact absurd hge (by decide)
  simp [isCtl, h31, h127]

/-- The byte that the URI has no room for is stored all the same. -/
theorem not_bounded_of_not_oneByteLeft (hb : ¬ OneByteLeft x b) (hst : counted.step x b = some y) :
    ¬ Bounded y := by
  obtain ⟨-, hy, -⟩ := counted_step_eq_some hst
  obtain ⟨hs, h⟩ := Classical.not_imp.1 hb
  obtain ⟨hsize, hge⟩ := Classical.not_imp.1 h
  have hspace : b ≠ 32 := by
    rintro rfl
    exact hge (by decide)
  have hne : storageSize x.1.1.1.uriBuilder ≠ maxUriSize := by
    rw [hsize]
    decide
  have hstored : y.1.1.1.uriBuilder = append x.1.1.1.uriBuilder b := by
    rw [hy]
    simp [consume, hs, hspace, isCtl_of_not_lt hge, hne]
  intro hbound
  have huri := hbound.uri
  rw [hstored, storageSize_append, if_neg hge, hsize] at huri
  omega

/-- **The stored text is bounded** in every state of a run exactly if no byte that takes two bytes
arrives in the URI when there is room for one. -/
theorem bounded_iff {x₀ : Fed × ℕ} {bytes : List UInt8} (h₀ : counted.init x₀)
    (hr : counted.run x₀ bytes = some x) :
    counted.Always Bounded x₀ bytes ↔ counted.Along OneByteLeft x₀ bytes :=
  Machine.always_iff_along (I := Limits) (fun _ h => h.toBounded)
    (fun _ _ _ h hok hst => h.step hok hst)
    (fun _ _ _ _ hst hno => not_bounded_of_not_oneByteLeft hno hst) (limits_init h₀) hr

/-- A new parser. -/
def newParser : Fed × ℕ := (((reset {}, {}), none), 0)

theorem newParser_init : counted.init newParser := ⟨⟨{}, {}, rfl⟩, rfl⟩

theorem counted_run_uri (m : List UInt8) (k : ℕ) : ∀ j, j + k ≤ maxUriSize →
    counted.run ((inUri m (List.replicate j 97), none), 0) (List.replicate k 97) =
      some ((inUri m (List.replicate (j + k) 97), none), 0) := by
  induction k with
  | zero => exact fun j _ => rfl
  | succ k ih =>
    intro j hj
    have hu : stored (List.replicate j 97) = List.replicate j 97 :=
      stored_of_ascii fun b hb => by rw [List.eq_of_mem_replicate hb]; decide
    have hstep : consume (inUri m (List.replicate j 97)) 97 =
        (inUri m (List.replicate (j + 1) 97), none) := by
      rw [List.replicate_succ']
      refine consume_uri (by decide) ?_
      rw [hu, List.length_replicate]
      omega
    rw [List.replicate_succ, Machine.run_cons_eq_some]
    refine ⟨((inUri m (List.replicate (j + 1) 97), none), 0), ?_, ?_⟩
    · refine Machine.withHistory_step_eq_some.2 ⟨congrArg some hstep, ?_⟩
      simp [countHeaderByte, inUri, isHeaderByte]
    · rw [ih (j + 1) (by omega), Nat.add_right_comm, Nat.add_assoc]

/-- `G`, a space and a URI of 2047 letters and one byte that is not ASCII. -/
def longUri : List UInt8 := 71 :: 32 :: (List.replicate 2047 97 ++ [195])

/-- After a URI that leaves room for one byte, a byte that takes two is stored. -/
theorem counted_run_overrun {n : ℕ} (hn : n + 1 = maxUriSize) :
    ∃ x, counted.run newParser (71 :: 32 :: (List.replicate n 97 ++ [195])) = some x ∧
      storageSize x.1.1.1.uriBuilder = n + 2 := by
  have huri := counted_run_uri [71] n 0 (by omega)
  rw [Nat.zero_add] at huri
  have hsize : storageSize (stored (List.replicate n 97)) = n := by
    rw [stored_of_ascii fun b hb => by rw [List.eq_of_mem_replicate hb]; decide]
    exact List.length_replicate
  have hlast : consume (inUri [71] (List.replicate n 97)) 195 =
      (inUri [71] (List.replicate n 97 ++ [195]), none) := by
    refine consume_uri (by decide) fun h => ?_
    have := hsize.symm.trans h
    omega
  refine ⟨((inUri [71] (List.replicate n 97 ++ [195]), none), 0), ?_, ?_⟩
  · show counted.run ((inUri [71] [], none), 0) (List.replicate n 97 ++ [195]) = _
    exact Machine.run_concat_eq_some.2 ⟨_, huri,
      Machine.withHistory_step_eq_some.2 ⟨congrArg some hlast, rfl⟩⟩
  · show storageSize (stored (List.replicate n 97 ++ [195])) = n + 2
    rw [stored_concat, storageSize_append, hsize]
    rfl

theorem uri_overrun : ∃ x, counted.run newParser longUri = some x ∧
    storageSize x.1.1.1.uriBuilder = 2049 ∧ ¬ counted.Always Bounded newParser longUri := by
  obtain ⟨x, hrun, hsize⟩ := counted_run_overrun (n := 2047) rfl
  refine ⟨x, hrun, hsize, fun h => ?_⟩
  have := (h.last hrun).uri
  omega

instance (x : Fed × ℕ) (b : UInt8) : Decidable (OneByteLeft x b) :=
  inferInstanceAs (Decidable (_ → _ → _))

/-- A short URI is held within the limits, whatever its bytes. -/
theorem bounded_short : counted.Always Bounded newParser [71, 32, 195, 32, 72] := by
  have hrun : (counted.run newParser [71, 32, 195, 32, 72]).isSome = true := by decide +kernel
  obtain ⟨x, hx⟩ := Option.isSome_iff_exists.1 hrun
  exact (bounded_iff newParser_init hx).2 (by decide +kernel)

end HttpRequestParser

end Wsddn
