import Mathlib.Data.Nat.Init
import Wsddn.Netlink.Handler

/-!
# What the code finds in a buffer (`parseBuffer`, `RTA_OK` and `RTA_NEXT`)

The loop over the messages goes by their lengths, and the loop over the attributes of a message by
the bytes that are left of the buffer, wherever the message ends.  Here is what they find there,
whatever they do with it.

* `attributes` : the attributes at the front of some bytes.
* `Overhangs` : the last of them ends within the bytes, and the bytes that fill it up do not.  The
  count of the bytes that remain wraps around then.
* `rtAttributes_eq_some_iff` : the loop goes through `attributes`, if they do not overhang.
* `goesOn` : the length and the type of a message behind which the loop over the messages goes on.
* `LooksForAttributes` : the message is about an address, and its attributes are looked at.
* `parseMessageFor_of_goesOn`, `parseAddressFor_eq_none_iff` : a round of that loop.
-/

namespace Wsddn

namespace Netlink

open LittleEndian

/-- An attribute, with the length in its header. -/
structure RtAttr where
  len : ℕ
  type : ℕ
  payload : List UInt8
  deriving DecidableEq, Repr

/-- The attribute at the front of some bytes (`RTA_OK`). -/
def front (bytes : List UInt8) : Option RtAttr :=
  match u16 bytes, u16 (bytes.drop 2) with
  | some len, some type =>
    if 4 ≤ len ∧ len ≤ bytes.length then some ⟨len, type, (bytes.drop 4).take (len - 4)⟩ else none
  | _, _ => none

/-- At most so many attributes, one after the other. -/
def attributesUpTo : ℕ → List UInt8 → List RtAttr
  | 0, _ => []
  | fuel + 1, bytes =>
    match front bytes with
    | none => []
    | some a => a :: attributesUpTo fuel (bytes.drop (align4 a.len))

/-- The attributes at the front of some bytes. -/
def attributes (bytes : List UInt8) : List RtAttr := attributesUpTo bytes.length bytes

/-- The last attribute fits, but not with what it is filled up with. -/
inductive Overhangs : List UInt8 → Prop
  | last {bytes : List UInt8} {a : RtAttr} (ha : front bytes = some a)
      (hlt : bytes.length < align4 a.len) : Overhangs bytes
  | next {bytes : List UInt8} {a : RtAttr} (ha : front bytes = some a)
      (h : Overhangs (bytes.drop (align4 a.len))) : Overhangs bytes

variable {bytes : List UInt8} {a : RtAttr} {fuel : ℕ}

theorem front_eq_some (ha : front bytes = some a) :
    u16 bytes = some a.len ∧ u16 (bytes.drop 2) = some a.type ∧ 4 ≤ a.len ∧
      a.len ≤ bytes.length ∧ a.payload = (bytes.drop 4).take (a.len - 4) := by
  unfold front at ha
  split at ha
  · rename_i len type hlen htype
    split_ifs at ha with hok
    obtain rfl := Option.some.inj ha
    exact ⟨hlen, htype, hok.1, hok.2, rfl⟩
  · cases ha

theorem length_drop_lt (ha : front bytes = some a) :
    (bytes.drop (align4 a.len)).length < bytes.length := by
  obtain ⟨-, -, hpos, hle, -⟩ := front_eq_some ha
  have := le_align4 a.len
  rw [List.length_drop]
  omega

theorem attributesUpTo_of_le {fuel' : ℕ} (h : bytes.length ≤ fuel) (h' : bytes.length ≤ fuel') :
    attributesUpTo fuel bytes = attributesUpTo fuel' bytes := by
  induction fuel generalizing bytes fuel' with
  | zero =>
    obtain rfl := List.length_eq_zero_iff.1 (Nat.le_zero.1 h)
    cases fuel' <;> rfl
  | succ fuel ih =>
    cases fuel' with
    | zero =>
      obtain rfl := List.length_eq_zero_iff.1 (Nat.le_zero.1 h')
      rfl
    | succ fuel' =>
      simp only [attributesUpTo]
      cases ha : front bytes with
      | none => rfl
      | some a =>
        have := length_drop_lt ha
        dsimp only
        rw [ih (by omega) (by omega : (bytes.drop (align4 a.len)).length ≤ fuel')]

theorem attributes_of_none (ha : front bytes = none) : attributes bytes = [] := by
  unfold attributes
  cases bytes.length with
  | zero => rfl
  | succ n => simp only [attributesUpTo, ha]

theorem attributes_of_some (ha : front bytes = some a) :
    attributes bytes = a :: attributes (bytes.drop (align4 a.len)) := by
  have hlt := length_drop_lt ha
  obtain ⟨n, hn⟩ : ∃ n, bytes.length = n + 1 := ⟨bytes.length - 1, by omega⟩
  unfold attributes
  rw [hn, attributesUpTo, ha]
  dsimp only
  rw [attributesUpTo_of_le (by omega) le_rfl]

theorem length_attributesUpTo_le (fuel : ℕ) (bytes : List UInt8) :
    (attributesUpTo fuel bytes).length ≤ fuel := by
  induction fuel generalizing bytes with
  | zero => exact le_rfl
  | succ fuel ih =>
    rw [attributesUpTo]
    cases front bytes with
    | none => exact Nat.zero_le _
    | some a => exact Nat.succ_le_succ (ih _)

theorem length_attributes_le (bytes : List UInt8) : (attributes bytes).length ≤ bytes.length :=
  length_attributesUpTo_le _ _

theorem not_overhangs_of_none (ha : front bytes = none) : ¬ Overhangs bytes := by
  rintro (⟨ha', -⟩ | ⟨ha', -⟩)
  · simp [ha] at ha'
  · simp [ha] at ha'

theorem overhangs_iff_of_some (ha : front bytes = some a) (hle : align4 a.len ≤ bytes.length) :
    Overhangs bytes ↔ Overhangs (bytes.drop (align4 a.len)) := by
  refine ⟨?_, .next ha⟩
  rintro (⟨ha', hlt⟩ | ⟨ha', h⟩)
  · obtain rfl := Option.some.inj (ha.symm.trans ha')
    omega
  · obtain rfl := Option.some.inj (ha.symm.trans ha')
    exact h

/-- In a message that is filled up nothing overhangs. -/
theorem not_overhangs_of_mod (hmod : bytes.length % 4 = 0) : ¬ Overhangs bytes := by
  intro h
  induction h with
  | last ha hlt =>
    obtain ⟨-, -, -, hle, -⟩ := front_eq_some ha
    unfold align4 at hlt
    omega
  | @next bytes a ha h ih =>
    refine ih ?_
    have := align4_mod a.len
    rw [List.length_drop]
    omega

/-! ### The loop -/

section Loop

variable {cfg : MonitorConfig} {ifIndex : ℕ} {family : UInt8} {res res' : RtParseResult}

/-- What the loop does with an attribute. -/
def takeAttr (cfg : MonitorConfig) (ifIndex : ℕ) (family : UInt8) (res : RtParseResult) (a : RtAttr) :
    RtParseResult :=
  rtAttribute cfg ifIndex family res a.type a.payload

/-- When the count has wrapped around, the next read is outside of the buffer. -/
theorem rtAttributes_nil {remaining : ℕ} (hr : 4 ≤ remaining) :
    rtAttributes cfg ifIndex family fuel res [] remaining = none := by
  cases fuel with
  | zero => rfl
  | succ fuel =>
    rw [rtAttributes, if_neg (by omega)]
    rfl

theorem exists_four (h : 4 ≤ bytes.length) :
    ∃ b₀ b₁ b₂ b₃ bs, bytes = b₀ :: b₁ :: b₂ :: b₃ :: bs := by
  match bytes, h with
  | b₀ :: b₁ :: b₂ :: b₃ :: bs, _ => exact ⟨b₀, b₁, b₂, b₃, bs, rfl⟩

theorem exists_u32 (h : 4 ≤ bytes.length) : ∃ n, u32 bytes = some n := by
  obtain ⟨b₀, b₁, b₂, b₃, bs, rfl⟩ := exists_four h
  exact ⟨_, rfl⟩

theorem rtAttributes_of_none (ha : front bytes = none) :
    rtAttributes cfg ifIndex family (fuel + 1) res bytes bytes.length = some res := by
  rw [rtAttributes]
  split_ifs with hlen
  · rfl
  · obtain ⟨b₀, b₁, b₂, b₃, bs, rfl⟩ := exists_four (Nat.le_of_not_lt hlen)
    simp only [front, u16, List.drop_succ_cons, List.drop_zero, ite_eq_right_iff,
      reduceCtorEq, imp_false] at ha
    simp only [u16, List.drop_succ_cons, List.drop_zero]
    rw [if_pos (by simpa [or_iff_not_imp_left] using ha)]

theorem rtAttributes_of_some (ha : front bytes = some a) :
    rtAttributes cfg ifIndex family (fuel + 1) res bytes bytes.length =
      rtAttributes cfg ifIndex family fuel (takeAttr cfg ifIndex family res a)
        (bytes.drop (align4 a.len)) (if align4 a.len ≤ bytes.length then
          bytes.length - align4 a.len else bytes.length + 2 ^ 64 - align4 a.len) := by
  obtain ⟨hlen, htype, hpos, hle, hpayload⟩ := front_eq_some ha
  have hfull : ((bytes.drop 4).take (a.len - 4)).length = a.len - 4 := by
    rw [List.length_take, List.length_drop]
    omega
  rw [rtAttributes, if_neg (by omega), hlen, htype]
  dsimp only
  rw [if_neg (by simp; omega), hfull, if_neg (lt_irrefl _), ← hpayload]
  rfl

/-- **The loop goes through the attributes**, if they do not overhang. -/
theorem rtAttributes_eq_some_iff :
    rtAttributes cfg ifIndex family fuel res bytes bytes.length = some res' ↔
      ¬ Overhangs bytes ∧ (attributes bytes).length < fuel ∧
        res' = (attributes bytes).foldl (takeAttr cfg ifIndex family) res := by
  induction fuel generalizing bytes res with
  | zero => simp [rtAttributes]
  | succ fuel ih =>
    cases ha : front bytes with
    | none =>
      rw [rtAttributes_of_none ha, attributes_of_none ha]
      simp [not_overhangs_of_none ha, eq_comm]
    | some a =>
      rw [rtAttributes_of_some ha, attributes_of_some ha]
      by_cases hle : align4 a.len ≤ bytes.length
      · rw [if_pos hle, ← List.length_drop, ih, overhangs_iff_of_some ha hle, List.length_cons,
          List.foldl_cons, Nat.add_lt_add_iff_right]
      · rw [if_neg hle, List.drop_eq_nil_of_le (by omega), rtAttributes_nil ?_]
        · simp [Overhangs.last ha (by omega)]
        · obtain ⟨-, -, hpos, hle', -⟩ := front_eq_some ha
          unfold align4 at hle ⊢
          omega

end Loop

/-! ### Messages -/

/-- The length of the message at the front of some bytes, and its type, if the loop over the
messages goes on behind it. -/
def goesOn (bytes : List UInt8) : Option (ℕ × ℕ) :=
  match u32 bytes, u16 (bytes.drop 4) with
  | some nlmsgLen, some type =>
    let len := (nlmsgLen + 3) % 2 ^ 32 / 4 * 4
    if nlmsgHdrLen ≤ len ∧ len ≤ bytes.length ∧ type ≠ nlmsgError ∧ type ≠ nlmsgOverrun ∧
        type ≠ nlmsgDone then
      some (len, type)
    else none
  | _, _ => none

/-- The attributes behind an `ifaddrmsg` are looked at. -/
def Usable (cur : List UInt8) : Prop :=
  ∃ family flags, cur[0]? = some family ∧ cur[2]? = some flags ∧ flags &&& unusableFlags = 0 ∧
    (family = afInet ∨ family = afInet6)

/-- The message is about an address, and its attributes are looked at. -/
def LooksForAttributes (bytes : List UInt8) : Prop :=
  (∃ len, goesOn bytes = some (len, rtmNewAddr) ∨ goesOn bytes = some (len, rtmDelAddr)) ∧
    nlmsgHdrLen + ifaddrmsgSize ≤ bytes.length ∧ Usable (bytes.drop nlmsgHdrLen)

section Messages

variable {σ : Type*} {H : Handler σ} {cfg : MonitorConfig} {n len type : ℕ} {k : Answers}
  {st : Monitored σ}

theorem goesOn_eq_some_iff : goesOn bytes = some (len, type) ↔
    ∃ nlmsgLen, u32 bytes = some nlmsgLen ∧ u16 (bytes.drop 4) = some type ∧
      (nlmsgLen + 3) % 2 ^ 32 / 4 * 4 = len ∧ nlmsgHdrLen ≤ len ∧ len ≤ bytes.length ∧
      type ≠ nlmsgError ∧ type ≠ nlmsgOverrun ∧ type ≠ nlmsgDone := by
  unfold goesOn
  constructor
  · intro h
    split at h
    · rename_i nlmsgLen type' hlen htype
      dsimp only at h
      split_ifs at h with hok
      obtain ⟨rfl, rfl⟩ := Prod.mk.inj (Option.some.inj h)
      exact ⟨nlmsgLen, hlen, htype, rfl, hok⟩
    · cases h
  · rintro ⟨nlmsgLen, hlen, htype, rfl, hok⟩
    rw [hlen, htype]
    exact if_pos hok

theorem goesOn_bounds (h : goesOn bytes = some (len, type)) :
    nlmsgHdrLen ≤ len ∧ len ≤ bytes.length ∧ len % 4 = 0 := by
  obtain ⟨nlmsgLen, -, -, rfl, hmin, hmax, -⟩ := goesOn_eq_some_iff.1 h
  exact ⟨hmin, hmax, by omega⟩

/-- A message that ends the loop. -/
theorem parseMessageFor_of_none (h : goesOn bytes = none) :
    ∃ status, parseMessageFor H cfg n k bytes st = some (.inl status) := by
  have hhdr : nlmsgHdrLen = 16 := rfl
  unfold parseMessageFor
  by_cases hlen : bytes.length < 4
  · exact ⟨_, if_pos hlen⟩
  · obtain ⟨nlmsgLen, hnlmsg⟩ := exists_u32 (Nat.le_of_not_lt hlen)
    rw [if_neg hlen, hnlmsg]
    dsimp only
    split_ifs with hmax hmin
    · exact ⟨_, rfl⟩
    · exact ⟨_, rfl⟩
    · -- the whole header is there
      obtain ⟨type, htype⟩ : ∃ type, u16 (bytes.drop 4) = some type := by
        obtain ⟨b₀, b₁, b₂, b₃, tail, htail⟩ :=
          exists_four (by rw [List.length_drop]; omega : 4 ≤ (bytes.drop 4).length)
        exact ⟨_, by rw [htail]; rfl⟩
      rw [htype]
      dsimp only
      by_cases herror : type = nlmsgError
      · exact ⟨_, if_pos herror⟩
      · by_cases hover : type = nlmsgOverrun
        · exact ⟨_, by rw [if_neg herror, if_pos hover]⟩
        · by_cases hdone : type = nlmsgDone
          · exact ⟨_, by rw [if_neg herror, if_neg hover, if_pos hdone]⟩
          · have hgo := goesOn_eq_some_iff.2 ⟨nlmsgLen, hnlmsg, htype, rfl, Nat.le_of_not_lt hmin,
              Nat.le_of_not_lt hmax, herror, hover, hdone⟩
            rw [h] at hgo
            cases hgo

/-- A message behind which the loop goes on. -/
theorem parseMessageFor_of_goesOn (h : goesOn bytes = some (len, type)) :
    parseMessageFor H cfg n k bytes st =
      if type = rtmNewAddr ∨ type = rtmDelAddr then
        (parseAddressFor H cfg n k (type = rtmNewAddr) (bytes.drop nlmsgHdrLen) st).map
          fun r => .inr (len, r)
      else some (.inr (len, st, false)) := by
  have hhdr : nlmsgHdrLen = 16 := rfl
  obtain ⟨nlmsgLen, hlen, htype, rfl, hmin, hmax, herror, hover, hdone⟩ := goesOn_eq_some_iff.1 h
  unfold parseMessageFor
  rw [if_neg (by omega), hlen]
  dsimp only
  rw [if_neg (by omega), if_neg (by omega), htype]
  dsimp only
  rw [if_neg herror, if_neg hover, if_neg hdone]
  simp only [Bool.or_eq_true, decide_eq_true_eq]

theorem goesOn_of_inr {r : Monitored σ × Bool}
    (h : parseMessageFor H cfg n k bytes st = some (.inr (len, r))) :
    ∃ type, goesOn bytes = some (len, type) := by
  cases hgo : goesOn bytes with
  | none =>
    obtain ⟨status, hs⟩ : ∃ status, parseMessageFor H cfg n k bytes st = some (.inl status) :=
      parseMessageFor_of_none hgo
    rw [hs] at h
    cases h
  | some found =>
    obtain ⟨len', type⟩ := found
    refine ⟨type, ?_⟩
    rw [parseMessageFor_of_goesOn hgo] at h
    split_ifs at h
    · obtain ⟨r', -, hr⟩ := Option.map_eq_some_iff.1 h
      cases hr
      rfl
    · cases h
      rfl

theorem parseRtAttr_eq_none_iff {ifIndex : ℕ} {family : UInt8} :
    parseRtAttr cfg k ifIndex family bytes = none ↔ Overhangs bytes := by
  rw [parseRtAttr, Option.map_eq_none_iff, Option.eq_none_iff_forall_ne_some]
  have hlen : (attributes bytes).length < bytes.length + 1 :=
    Nat.lt_succ_of_le (length_attributes_le bytes)
  constructor
  · intro h
    by_contra hover
    exact h _ (rtAttributes_eq_some_iff.2 ⟨hover, hlen, rfl⟩)
  · intro hover res hres
    exact (rtAttributes_eq_some_iff.1 hres).1 hover

/-- An address message whose attributes overhang. -/
theorem parseAddressFor_eq_none_iff {isAdded : Bool} {cur : List UInt8} :
    parseAddressFor H cfg n k isAdded cur st = none ↔
      ifaddrmsgSize ≤ cur.length ∧ Usable cur ∧ Overhangs (cur.drop ifaddrmsgSize) := by
  have hsize : ifaddrmsgSize = 8 := rfl
  unfold parseAddressFor
  by_cases hlen : cur.length < ifaddrmsgSize
  · rw [if_pos hlen]
    simp only [reduceCtorEq, false_iff]
    omega
  · obtain ⟨family, _, flags, _, tail, hcur⟩ := exists_four (by omega : 4 ≤ cur.length)
    obtain ⟨index, hindex⟩ := exists_u32 (by rw [List.length_drop]; omega : 4 ≤ (cur.drop 4).length)
    have hfamily : cur[0]? = some family := by rw [hcur]; rfl
    have hflags : cur[2]? = some flags := by rw [hcur]; rfl
    have husable : Usable cur ↔ flags &&& unusableFlags = 0 ∧
        (family = afInet ∨ family = afInet6) := by
      simp [Usable, hfamily, hflags]
    rw [if_neg hlen, hfamily, hflags, hindex, husable]
    dsimp only
    split_ifs with hbad hother
    · simp [hbad]
    · simp only [Bool.and_eq_true, decide_eq_true_eq] at hother
      simp [hother.1, hother.2]
    · simp only [ne_eq, not_not] at hbad
      simp only [Bool.and_eq_true, decide_eq_true_eq, not_and, not_not] at hother
      have hfam : family = afInet ∨ family = afInet6 := or_iff_not_imp_left.2 hother
      rw [Option.map_eq_none_iff, parseRtAttr_eq_none_iff]
      simp [hbad, hfam, Nat.le_of_not_lt hlen]

end Messages

end Netlink

end Wsddn
