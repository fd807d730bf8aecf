import Mathlib.Data.Nat.Bitwise
import Wsddn.Route.Parse

/-!
# What `parseTable` reads

The tables that `parseTable` ends with, and stays inside of.  What it checks is that a message is in
the buffer, and that there is place for a plain `sockaddr` in the message; what it reads is more.

* `lookedAt`, `EntriesFit` : how much of a `sockaddr` is looked at, and the entries of a mask for
  which that is in the buffer.
* `MessageFits`, `TableFits` : the messages, and the tables.
* `parseTable_inside_iff` : **it ends in its buffer**, exactly if the table fits.
-/

namespace Wsddn

namespace Route

open Reading

/-! ### The tables that fit -/

section Fits

variable (L : Layout) (cfg : MonitorConfig) (m : ℕ → UInt8) (last : ℕ)

/-- `alignedRtMessageLength` of the `sockaddr` at `p`. -/
def entryLength (p : ℕ) : ℕ :=
  if m p ≠ 0 then ((m p).toNat + (L.align - 1)) / L.align * L.align else L.align

/-- How many bytes of the `sockaddr` at `p` are looked at, for the bit number `b`. -/
def lookedAt (b p : ℕ) : ℕ :=
  if 2 ^ b = rtaIfa then
    if m (p + 1) = afInet then if cfg.enableIPv4 then 8 else 2
    else if m (p + 1) = L.afInet6 then if cfg.enableIPv6 then 28 else 2
    else 2
  else if 2 ^ b = rtaIfp then
    if m (p + 1) = afLink then if m (p + 5) = 0 then 6 else 8 + (m (p + 5)).toNat
    else 2
  else 1

/-- The bits of a mask, from the number `i` on. -/
def setBits (entryMask i : ℕ) : List ℕ := (List.range' i (31 - i)).filter entryMask.testBit

/-- The entries for these bits, with the next one at `p`: each is in the buffer as far as it is
looked at, until there is no place for one more in the message.  If there is place behind the last
one, the bit 30 is not in the mask: the shifted bit would never get past it. -/
def EntriesFit (addrLast entryMask : ℕ) : List ℕ → ℕ → Prop
  | [], _ => entryMask < 2 ^ 30
  | b :: bs, p =>
    p + lookedAt L cfg m b p ≤ last ∧
      (distance (p + entryLength L m p) addrLast < sockaddrSize ∨
        EntriesFit addrLast entryMask bs (p + entryLength L m p))

/-- The addresses of a message.  There are none for a mask that is negative. -/
def AddressesFit (first addrLast entryMask : ℕ) : Prop :=
  distance first addrLast < sockaddrSize ∨ 2 ^ 31 ≤ entryMask ∨
    EntriesFit L cfg m last addrLast entryMask (setBits entryMask 0) first

/-- The message from `p` to `addrLast`. -/
def MessageFits (p addrLast : ℕ) : Prop :=
  p + 4 ≤ last ∧
    if m (p + 3) = L.rtmNewAddr || m (p + 3) = L.rtmDelAddr then
      p + L.ifamAddrs + 4 ≤ last ∧
        AddressesFit L cfg m last (p + L.ifaMsghdr) addrLast (value32 m (p + L.ifamAddrs))
    else if m (p + 3) = L.rtmIfInfo then
      p + L.ifmAddrs + 4 ≤ last ∧ p + L.ifmFlags + 4 ≤ last ∧
        AddressesFit L cfg m last (p + L.ifMsghdr) addrLast (value32 m (p + L.ifmAddrs))
    else True

/-- The messages from `p` on: none has the length 0, and each is in the buffer as far as it is
looked at. -/
inductive TableFits : ℕ → Prop
  | tail {p : ℕ} (h : last - p ≤ msglenSize) : TableFits p
  | incomplete {p : ℕ} (h : last - p < value16 m p) : TableFits p
  | next {p : ℕ} (hpos : 0 < value16 m p) (hlen : value16 m p ≤ last - p)
      (hmsg : MessageFits L cfg m last p (p + value16 m p)) (h : TableFits (p + value16 m p)) :
      TableFits p

end Fits

/-! ### The entries -/

section Entries

variable {L : Layout} {cfg : MonitorConfig} {m : ℕ → UInt8} {lo hi p addrLast entryMask fuel : ℕ}
  {result : ParseResult}

theorem ends_alignedRtMessageLength_bind {γ : Type} {f : ℕ → Reading γ} (hp : lo ≤ p) :
    Ends lo hi m (alignedRtMessageLength L p >>= f) ↔
      p < hi ∧ Ends lo hi m (f (entryLength L m p)) := by
  refine ends_bind_of_inside ?_
  simp only [alignedRtMessageLength, inside_bind, inside_byte_eq, hp, true_and]
  split_ifs <;> rfl

theorem ends_makeAddress4 (hp : lo ≤ p) : Ends lo hi m (makeAddress4 p) ↔ p + 8 ≤ hi := by
  have h4 : lo ≤ p + 4 := by omega
  rw [makeAddress4, ends_bytes_bind h4, and_iff_left (ends_pure _)]
  omega

theorem ends_makeAddress6 (hp : lo ≤ p) : Ends lo hi m (makeAddress6 p) ↔ p + 28 ≤ hi := by
  have h8 : lo ≤ p + 8 := by omega
  have h24 : lo ≤ p + 24 := by omega
  rw [makeAddress6, ends_bytes_bind h8, ends_word32_bind h24, and_iff_left (ends_pure _)]
  omega

theorem ends_parseEntry_iff (hp : lo ≤ p) (b : ℕ) (result : ParseResult) :
    Ends lo hi m (parseEntry L cfg (2 ^ b) p result) ∧ p < hi ↔
      p + lookedAt L cfg m b p ≤ hi := by
  have h1 : lo ≤ p + 1 := by omega
  have h2 : lo ≤ p + 2 := by omega
  have h5 : lo ≤ p + 5 := by omega
  have h8 : lo ≤ p + 8 := by omega
  unfold parseEntry lookedAt
  by_cases hifa : 2 ^ b = rtaIfa
  · have h6 : Ends lo hi m (do
        let cppAddr ← makeAddress6 p
        if Netlink.isLinkLocal cppAddr.1 then
          pure { result with addr := some (.v6 (BitVec.ofNat 128 (Netlink.ofBytes cppAddr.1))
            (UInt32.ofNat cppAddr.2)) }
        else pure result) ↔ p + 28 ≤ hi := by
      rw [ends_bind_of_total fun _ => ?_, ends_makeAddress6 hp]
      split_ifs <;> exact ends_pure _
    simp only [if_pos hifa, ends_byte_bind h1, ends_ite, ends_pure, h6,
      ends_bind_of_total fun _ => ends_pure _, ends_makeAddress4 hp]
    split_ifs <;> grind
  · rw [if_neg hifa, if_neg hifa]
    by_cases hifp : 2 ^ b = rtaIfp
    · have hnlen : (m (p + 5)).toNat = 0 ↔ m (p + 5) = 0 := UInt8.toNat_inj (b := 0)
      simp only [if_pos hifp, ends_byte_bind h1, ends_ite, ends_word16_bind h2, ends_byte_bind h5,
        ends_bytes_bind h8, ends_pure, ← hnlen]
      split_ifs <;> grind
    · simp only [if_neg hifp, ends_pure, true_and]
      omega

theorem setBits_of_lt {i : ℕ} (h : entryMask < 2 ^ i) : setBits entryMask i = [] := by
  refine List.filter_eq_nil_iff.2 fun b hb => ?_
  have hle : 2 ^ i ≤ 2 ^ b := Nat.pow_le_pow_right (by decide) (List.left_le_of_mem_range' hb)
  rw [Nat.testBit_lt_two_pow (h.trans_le hle)]
  decide

theorem setBits_of_le {i : ℕ} (hi : i ≤ 30) :
    setBits entryMask i =
      if entryMask.testBit i then i :: setBits entryMask (i + 1)
      else setBits entryMask (i + 1) := by
  obtain ⟨n, hn⟩ : ∃ n, 31 - i = n + 1 := ⟨30 - i, by omega⟩
  rw [setBits, hn, List.range'_succ, List.filter_cons, setBits, show 31 - (i + 1) = n by omega]

theorem toInt32_of_lt {n : ℕ} (h : n < 2 ^ 31) : Netlink.toInt32 n = n := if_pos h

/-- The comparison in the loop, as long as the bit is positive. -/
theorem toInt32_le_iff {entryBit : ℕ} (hbit : entryBit < 2 ^ 31) (hmask : entryMask < 2 ^ 31) :
    Netlink.toInt32 entryBit ≤ Netlink.toInt32 entryMask ↔ entryBit ≤ entryMask := by
  rw [toInt32_of_lt hbit, toInt32_of_lt hmask, Int.ofNat_le]

theorem two_pow_and_ne_zero_iff (i : ℕ) :
    2 ^ i &&& entryMask ≠ 0 ↔ entryMask.testBit i = true := by
  rw [Nat.two_pow_and]
  cases entryMask.testBit i <;> simp

/-- A bit that has been shifted out stays below every mask that is not negative. -/
theorem not_ends_parseEntries (hmask : entryMask < 2 ^ 31) {entryBit : ℕ}
    (hle : Netlink.toInt32 entryBit ≤ Netlink.toInt32 entryMask)
    (hand : entryBit &&& entryMask = 0) (hnext : entryBit * 2 % 2 ^ 32 = 0) :
    ¬ Ends lo hi m (parseEntries L cfg addrLast entryMask fuel entryBit p result) := by
  induction fuel generalizing entryBit with
  | zero => exact not_ends_endless
  | succ fuel ih =>
    rw [parseEntries, if_neg (not_not.2 hle), if_neg (not_not.2 hand), hnext]
    refine ih ?_ (Nat.zero_and _) rfl
    rw [toInt32_of_lt hmask]
    exact Int.natCast_nonneg _

/-- **The loop over the bits**, from the number `i` on. -/
theorem ends_parseEntries_iff {i : ℕ} (hmask : entryMask < 2 ^ 31) (hi31 : i ≤ 31)
    (htop : i = 31 → 2 ^ 30 ≤ entryMask) (hfuel : 31 - i < fuel) (hp : lo ≤ p) :
    Ends lo hi m (parseEntries L cfg addrLast entryMask fuel (2 ^ i) p result) ↔
      EntriesFit L cfg m hi addrLast entryMask (setBits entryMask i) p := by
  induction fuel generalizing i p result with
  | zero => exact absurd hfuel (Nat.not_lt_zero _)
  | succ fuel ih =>
    rcases Nat.lt_or_eq_of_le hi31 with hlt | rfl
    · have hpow : 2 ^ i < 2 ^ 31 := Nat.pow_lt_pow_right (by decide) hlt
      have hpow30 : 2 ^ i ≤ 2 ^ 30 := Nat.pow_le_pow_right (by decide) (Nat.le_of_lt_succ hlt)
      have hshift : 2 ^ i * 2 % 2 ^ 32 = 2 ^ (i + 1) := by
        rw [← pow_succ, Nat.mod_eq_of_lt (Nat.pow_lt_pow_right (by decide) (by omega))]
      have hguard := toInt32_le_iff hpow hmask
      rw [parseEntries]
      by_cases hle : 2 ^ i ≤ entryMask
      · have hnext : ∀ p result, lo ≤ p →
            (Ends lo hi m (parseEntries L cfg addrLast entryMask fuel (2 ^ (i + 1)) p result) ↔
              EntriesFit L cfg m hi addrLast entryMask (setBits entryMask (i + 1)) p) :=
          fun p result hp => ih hlt (fun h => (Nat.succ.inj h) ▸ hle) (by omega) hp
        rw [if_neg (not_not.2 (hguard.2 hle)), setBits_of_le (Nat.le_of_lt_succ hlt), hshift]
        by_cases hbit : entryMask.testBit i = true
        · rw [if_pos ((two_pow_and_ne_zero_iff i).2 hbit), if_pos hbit, EntriesFit,
            ← ends_parseEntry_iff hp i result, and_assoc]
          refine ends_bind_of fun result' => ?_
          rw [ends_alignedRtMessageLength_bind hp, ends_ite, hnext _ _ (by omega)]
          split_ifs with hplace
          · simp only [ends_pure, hplace, true_or]
          · simp only [hplace, false_or]
        · rw [if_neg ((two_pow_and_ne_zero_iff i).not.2 hbit), if_neg hbit]
          exact hnext _ _ hp
      · have hlt30 : entryMask < 2 ^ 30 := by omega
        rw [if_pos (hguard.not.2 hle), setBits_of_lt (Nat.lt_of_not_le hle)]
        exact iff_of_true (ends_pure _) hlt30
    · -- the bit is negative now, and it will be 0
      refine iff_of_false (not_ends_parseEntries hmask ?_ ?_ rfl) ?_
      · rw [toInt32_of_lt hmask]
        exact (by decide : Netlink.toInt32 (2 ^ 31) ≤ 0).trans (Int.natCast_nonneg _)
      · rw [Nat.two_pow_and, Nat.testBit_lt_two_pow hmask]
        rfl
      · exact Nat.not_lt_of_le (htop rfl)

theorem ends_parseAddresses_iff (hmask : entryMask < 2 ^ 32) (hfuel : 31 < fuel) (hp : lo ≤ p) :
    Ends lo hi m (parseAddresses L cfg fuel p addrLast entryMask) ↔
      AddressesFit L cfg m hi p addrLast entryMask := by
  rw [parseAddresses, AddressesFit, ends_ite]
  by_cases hplace : sockaddrSize ≤ distance p addrLast
  · rw [if_pos hplace, or_iff_right (Nat.not_lt_of_le hplace)]
    rcases Nat.lt_or_ge entryMask (2 ^ 31) with hpos | hneg
    · rw [or_iff_right (Nat.not_le_of_lt hpos)]
      exact ends_parseEntries_iff (i := 0) hpos (by decide) (fun h => absurd h (by decide)) hfuel hp
    · refine iff_of_true ?_ (.inl hneg)
      obtain ⟨fuel, rfl⟩ : ∃ f, fuel = f + 1 := ⟨fuel - 1, by omega⟩
      have hlow : ¬ Netlink.toInt32 1 ≤ Netlink.toInt32 entryMask := by
        rw [toInt32_of_lt (by decide), Netlink.toInt32, if_neg (Nat.not_lt_of_le hneg)]
        omega
      rw [parseEntries, if_pos hlow]
      exact ends_pure _
  · rw [if_neg hplace]
    exact iff_of_true (ends_pure _) (.inl (Nat.lt_of_not_le hplace))

end Entries

/-! ### The messages -/

section Messages

variable {L : Layout} {cfg : MonitorConfig} {m : ℕ → UInt8} {lo hi p addrLast : ℕ}

theorem ends_parseMessage_iff (getFlags : SysString → Option ℕ) (sequential : Bool) (seen : Seen)
    {rounds : ℕ} (hrounds : 31 < rounds) (hp : lo ≤ p) :
    Ends lo hi m (parseMessage L cfg getFlags sequential rounds p addrLast seen) ↔
      MessageFits L cfg m hi p addrLast := by
  have hentries : ∀ start a, Ends lo hi m
      (parseAddresses L cfg rounds (p + start) addrLast (value32 m a)) ↔
        AddressesFit L cfg m hi (p + start) addrLast (value32 m a) := fun start a =>
    ends_parseAddresses_iff (value32_lt m a) hrounds (hp.trans (Nat.le_add_right p start))
  have hword : ∀ (n : ℕ) {f : ℕ → Reading Seen}, Ends lo hi m (word32 (p + n) >>= f) ↔
      p + n + 4 ≤ hi ∧ Ends lo hi m (f (value32 m (p + n))) := fun n _ =>
    ends_word32_bind (hp.trans (Nat.le_add_right p n))
  rw [parseMessage, MessageFits, ends_byte_bind (hp.trans (Nat.le_add_right p 3)),
    Nat.lt_iff_add_one_le, Nat.add_assoc]
  refine and_congr_right fun _ => ?_
  rw [ends_ite, ends_ite, hword, hword, hword, ends_bind_of_total fun _ => ends_pure _,
    ends_bind_of_total fun _ => ends_pure _, hentries, hentries]
  split_ifs
  · rfl
  · rfl
  · exact iff_true_intro (ends_pure _)

variable {getFlags : ℕ → SysString → Option ℕ} {sequential : Bool} {rounds fuel n : ℕ}
  {seen : Seen}

theorem distance_of_le (h : p ≤ hi) : distance p hi = hi - p := if_pos h

/-- One round of the loop. -/
theorem ends_parseLoop_succ (hlo : lo ≤ p) (hp : p ≤ hi) :
    Ends lo hi m (parseLoop L cfg getFlags sequential hi rounds (fuel + 1) n p seen) ↔
      hi - p ≤ msglenSize ∨ hi - p < value16 m p ∨ ∃ seen',
        (parseMessage L cfg (getFlags n) sequential rounds p (p + value16 m p) seen).inside
          lo hi m = some seen' ∧
        Ends lo hi m (parseLoop L cfg getFlags sequential hi rounds fuel (n + 1)
          (p + value16 m p) seen') := by
  rw [parseLoop, distance_of_le hp, ends_ite]
  by_cases htail : hi - p ≤ msglenSize
  · rw [if_pos (Nat.not_lt_of_le htail)]
    exact iff_of_true (ends_pure _) (.inl htail)
  · have htwo : p + 2 ≤ hi := by
      unfold msglenSize at htail
      omega
    rw [if_neg (not_not.2 (Nat.lt_of_not_le htail)), or_iff_right htail, ends_word16_bind hlo,
      and_iff_right htwo, ends_ite]
    by_cases hshort : hi - p < value16 m p
    · rw [if_pos hshort]
      exact iff_of_true (ends_pure _) (.inl hshort)
    · rw [if_neg hshort, or_iff_right hshort, ends_bind_iff]
      simp only [ends_word16_bind hlo, and_iff_right htwo]

theorem tableFits_of_ends (hrounds : 31 < rounds) (hlo : lo ≤ p) (hp : p ≤ hi)
    (h : Ends lo hi m (parseLoop L cfg getFlags sequential hi rounds fuel n p seen)) :
    TableFits L cfg m hi p := by
  induction fuel generalizing n p seen with
  | zero => exact absurd h not_ends_endless
  | succ fuel ih =>
    rcases (ends_parseLoop_succ hlo hp).1 h with htail | hshort | ⟨seen', hmsg, hnext⟩
    · exact .tail htail
    · exact .incomplete hshort
    · by_cases hshort : hi - p < value16 m p
      · exact .incomplete hshort
      · have hfits : TableFits L cfg m hi (p + value16 m p) := ih (by omega) (by omega) hnext
        -- with the length 0 the next message is this one
        rcases Nat.eq_zero_or_pos (value16 m p) with hzero | hpos
        · rwa [hzero] at hfits
        · exact .next hpos (Nat.le_of_not_lt hshort)
            ((ends_parseMessage_iff _ _ _ hrounds hlo).1 ⟨_, hmsg⟩) hfits

theorem TableFits.ends (h : TableFits L cfg m hi p) (hrounds : 31 < rounds) (hlo : lo ≤ p)
    (hp : p ≤ hi) : ∃ fuel, ∀ n seen,
      Ends lo hi m (parseLoop L cfg getFlags sequential hi rounds fuel n p seen) := by
  induction h with
  | tail htail => exact ⟨1, fun n seen => (ends_parseLoop_succ hlo hp).2 (.inl htail)⟩
  | incomplete hshort =>
    exact ⟨1, fun n seen => (ends_parseLoop_succ hlo hp).2 (.inr (.inl hshort))⟩
  | @next p hpos hlen hmsg _ ih =>
    obtain ⟨fuel, hfuel⟩ := ih (by omega) (by omega)
    refine ⟨fuel + 1, fun n seen => (ends_parseLoop_succ hlo hp).2 (.inr (.inr ?_))⟩
    obtain ⟨seen', hseen⟩ :=
      (ends_parseMessage_iff (getFlags n) sequential seen hrounds hlo).2 hmsg
    exact ⟨seen', hseen, hfuel _ _⟩

theorem parseLoop_position {r : ℕ × Seen} (hp : p ≤ hi)
    (h : (parseLoop L cfg getFlags sequential hi rounds fuel n p seen).inside lo hi m = some r) :
    p ≤ r.1 ∧ r.1 ≤ hi := by
  induction fuel generalizing n p seen with
  | zero => cases h
  | succ fuel ih =>
    rw [parseLoop, inside_ite, distance_of_le hp] at h
    split_ifs at h with htail
    · rw [inside_bind, Option.bind_eq_some_iff] at h
      obtain ⟨msglen, hlen, h⟩ := h
      rw [inside_ite] at h
      split_ifs at h with hshort
      · cases h
        exact ⟨le_rfl, hp⟩
      · rw [inside_bind, Option.bind_eq_some_iff] at h
        obtain ⟨seen', -, h⟩ := h
        rw [inside_bind, Option.bind_eq_some_iff] at h
        obtain ⟨step, hstep, h⟩ := h
        obtain rfl : step = msglen := Option.some.inj (hstep.symm.trans hlen)
        obtain ⟨hlower, hupper⟩ := ih (by omega) h
        exact ⟨(Nat.le_add_right p step).trans hlower, hupper⟩
    · cases h
      exact ⟨le_rfl, hp⟩

end Messages

/-! ### With more rounds -/

section More

variable {L : Layout} {cfg : MonitorConfig} {getFlags : ℕ → SysString → Option ℕ}
  {sequential : Bool} {fuel fuel' first last : ℕ}

theorem parseEntries_le (h : fuel ≤ fuel') (entryMask entryBit : ℕ) (result : ParseResult) :
    Le (parseEntries L cfg last entryMask fuel entryBit first result)
      (parseEntries L cfg last entryMask fuel' entryBit first result) := by
  induction fuel generalizing fuel' entryBit first result with
  | zero => exact endless_le _
  | succ fuel ih =>
    obtain ⟨fuel', rfl⟩ : ∃ f, fuel' = f + 1 := ⟨fuel' - 1, by omega⟩
    have hnext := Nat.le_of_succ_le_succ h
    refine ite_le (.refl _) (ite_le (bind_le (.refl _) fun _ => ?_) (ih hnext _ _))
    exact bind_le (.refl _) fun _ => ite_le (.refl _) (ih hnext _ _)

theorem parseMessage_le (h : fuel ≤ fuel') (getFlags : SysString → Option ℕ) (addrLast : ℕ)
    (seen : Seen) :
    Le (parseMessage L cfg getFlags sequential fuel first addrLast seen)
      (parseMessage L cfg getFlags sequential fuel' first addrLast seen) := by
  have haddresses : ∀ start entryMask, Le (parseAddresses L cfg fuel start addrLast entryMask)
      (parseAddresses L cfg fuel' start addrLast entryMask) :=
    fun _ _ => ite_le (parseEntries_le h _ _ _) (.refl _)
  refine bind_le (.refl _) fun _ => ite_le (bind_le (.refl _) fun _ => ?_) (ite_le ?_ (.refl _))
  · exact bind_le (haddresses _ _) fun _ => .refl _
  · refine bind_le (.refl _) fun _ => bind_le (.refl _) fun _ => ?_
    exact bind_le (haddresses _ _) fun _ => .refl _

theorem parseLoop_le {rounds rounds' n : ℕ} (hr : rounds ≤ rounds') (h : fuel ≤ fuel')
    (seen : Seen) :
    Le (parseLoop L cfg getFlags sequential last rounds fuel n first seen)
      (parseLoop L cfg getFlags sequential last rounds' fuel' n first seen) := by
  induction fuel generalizing fuel' n first seen with
  | zero => exact endless_le _
  | succ fuel ih =>
    obtain ⟨fuel', rfl⟩ : ∃ f, fuel' = f + 1 := ⟨fuel' - 1, by omega⟩
    refine ite_le (.refl _) (bind_le (.refl _) fun _ => ite_le (.refl _) ?_)
    refine bind_le (parseMessage_le hr _ _ _) fun _ => bind_le (.refl _) fun _ => ?_
    exact ih (Nat.le_of_succ_le_succ h) _

end More

/-! ### The table -/

section Table

variable (L : Layout) (cfg : MonitorConfig) (getFlags : ℕ → SysString → Option ℕ)
  (sequential : Bool)

theorem exists_ends_parseTable_iff (m : ℕ → UInt8) {first last : ℕ} (h : first ≤ last) :
    (∃ fuel, Ends first last m (parseTable L cfg getFlags sequential first last fuel)) ↔
      TableFits L cfg m last first := by
  constructor
  · rintro ⟨fuel, r, hr⟩
    have hmore : Ends first last m
        (parseLoop L cfg getFlags sequential last (fuel + 32) fuel 0 first {}) :=
      ⟨r, parseLoop_le (Nat.le_add_right _ _) le_rfl _ _ _ _ _ hr⟩
    exact tableFits_of_ends (by omega) le_rfl h hmore
  · intro hfits
    obtain ⟨fuel, hfuel⟩ : ∃ fuel, ∀ n seen, Ends first last m
        (parseLoop L cfg getFlags sequential last 32 fuel n first seen) :=
      hfits.ends (by decide) le_rfl h
    obtain ⟨r, hr⟩ := hfuel 0 {}
    exact ⟨fuel + 32, r, parseLoop_le (by omega) (by omega) _ _ _ _ _ hr⟩

/-- **`parseTable` ends in its buffer**: for every buffer, it ends, at a position in the buffer, and
reads nothing outside, exactly if the table fits.  The answers of the system and what was done
before do not matter. -/
theorem parseTable_inside_iff (m : ℕ → UInt8) (first length : ℕ) :
    (∃ fuel r,
      (parseTable L cfg getFlags sequential first (first + length) fuel).result m = some r ∧
      (∀ q ∈ (parseTable L cfg getFlags sequential first (first + length) fuel).reads m,
        first ≤ q ∧ q < first + length) ∧
      first ≤ r.1 ∧ r.1 ≤ first + length) ↔
      TableFits L cfg m (first + length) first := by
  have hle : first ≤ first + length := Nat.le_add_right _ _
  rw [← exists_ends_parseTable_iff L cfg getFlags sequential m hle]
  refine exists_congr fun fuel => exists_congr fun r => ?_
  rw [inside_eq_some_iff, ← and_assoc]
  exact and_iff_left_of_imp fun h => parseLoop_position hle (inside_eq_some_iff.2 h)

/-- Four bytes for a message with the length 0: the loop stays where it is. -/
theorem noLength_never_ends :
    ¬ ∃ fuel r,
      (parseTable macOS {} (fun _ _ => none) true 0 4 fuel).result (fun _ => 0) = some r ∧
      (∀ q ∈ (parseTable macOS {} (fun _ _ => none) true 0 4 fuel).reads (fun _ => 0),
        0 ≤ q ∧ q < 4) ∧
      0 ≤ r.1 ∧ r.1 ≤ 4 := by
  rintro ⟨fuel, r, hresult, hreads, -⟩
  have hfits : TableFits macOS {} (fun _ => 0) 4 0 :=
    (exists_ends_parseTable_iff macOS {} (fun _ _ => none) true _ (by decide)).1
      ⟨fuel, r, inside_eq_some_iff.2 ⟨hresult, hreads⟩⟩
  cases hfits with
  | tail h => exact absurd h (by decide)
  | incomplete h => exact absurd h (by decide)
  | next hpos => exact absurd hpos (by decide)

/-- A new address of `en0`. -/
def en0Address : List UInt8 :=
  [56, 0, 5, 0xc, 0x30, 0, 0, 0, 0, 0, 0, 0, 0, 0, 0, 0, 0, 0, 0, 0,
    20, 18, 4, 0, 6, 3, 0, 0, 101, 110, 48, 0, 0, 0, 0, 0, 0, 0, 0, 0,
    16, 2, 0, 0, 192, 168, 0, 1, 0, 0, 0, 0, 0, 0, 0, 0]

example : (parseTable macOS {} (fun _ _ => some iffMulticast) true 0 56 8).inside 0 56
    (fun p => en0Address.getD p 0) = some (56, {
      knownIfaces := [(4, false)]
      lastInterface := some ⟨[101, 110, 48], 4⟩
      calls := [.addAddress ⟨[101, 110, 48], 4⟩ (.v4 0xc0a80001#32)] }) := by
  rfl

end Table

end Route

end Wsddn
