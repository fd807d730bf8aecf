import Wsddn.Memory.Reading
import Wsddn.Netlink.Attributes
import Wsddn.Netlink.Handler

/-!
# What `parseBuffer` reads

`parseBuffer` and `parseRtAttr` with pointers: the buffer is a range of memory, and the counts of
the bytes that remain are computed as in the source.

* `parseBufferAt` : `parseBuffer` as a program that reads memory.
* `inside_parseBufferAt` : in the buffer it does what `parseBufferFor` does with the bytes.
* `Leads`, `LooksForAttributes` : the messages that are reached, and those whose attributes are
  looked at.
* `parseBuffer_inside_iff` : **it stays in its buffer** and ends, exactly if no attributes overhang
  the buffer.
* `fits_of_mod` : none do in a buffer that is filled up to a multiple of four.
-/

namespace Wsddn

namespace Netlink

open LittleEndian Reading

/-! ### The program -/

section Program

variable (cfg : MonitorConfig)

/-- The body of the loop over the attributes, for an attribute with its payload at `data`. -/
def rtAttributeAt (ifIndex : ℕ) (addrFamily : UInt8) (res : RtParseResult) (type data payload : ℕ) :
    Reading RtParseResult :=
  if type = ifaLabel then do
    let name ← string data payload
    pure { res with iface := some ⟨name, toInt32 ifIndex⟩ }
  else if type = ifaLocal then
    if addrFamily = afInet && cfg.enableIPv4 && 4 ≤ payload then do
      let addr ← bytes data 4
      pure { res with addr := some (.v4 (BitVec.ofNat 32 (ofBytes addr))) }
    else pure res
  else if type = ifaAddress then
    if addrFamily = afInet6 && cfg.enableIPv6 && 16 ≤ payload then do
      let addr ← bytes data 16
      if isLinkLocal addr then
        pure { res with addr := some (.v6 (BitVec.ofNat 128 (ofBytes addr)) (UInt32.ofNat ifIndex)) }
      else pure res
    else pure res
  else pure res

/-- The loop over the attributes, with the pointer `rta`. -/
def rtAttributesAt (ifIndex : ℕ) (addrFamily : UInt8) :
    ℕ → RtParseResult → ℕ → ℕ → Reading RtParseResult
  | 0, _, _, _ => endless
  | fuel + 1, res, rta, remaining =>
    if remaining < 4 then pure res
    else do
      let rtaLen ← word16 rta
      if rtaLen < 4 || remaining < rtaLen then pure res
      else do
        let rtaType ← word16 (rta + 2)
        let res ← rtAttributeAt cfg ifIndex addrFamily res rtaType (rta + 4) (rtaLen - 4)
        rtAttributesAt ifIndex addrFamily fuel res (rta + align4 rtaLen)
          (if align4 rtaLen ≤ remaining then remaining - align4 rtaLen
           else remaining + 2 ^ 64 - align4 rtaLen)

/-- `parseRtAttr` for the attributes at `ptr`. -/
def parseRtAttrAt (fuel : ℕ) (k : Answers) (ifIndex : ℕ) (addrFamily : UInt8)
    (ptr remaining : ℕ) : Reading RtParseResult := do
  let res ← rtAttributesAt cfg ifIndex addrFamily fuel {} ptr remaining
  pure (if res.iface.isNone && res.addr.isSome then
    { res with iface := k.name.map fun name => ⟨name, toInt32 ifIndex⟩ }
  else res)

variable {σ : Type} (H : Handler σ)

/-- An address message, with its `ifaddrmsg` at `cur`. -/
def parseAddressAt (fuel n : ℕ) (k : Answers) (isAdded : Bool) (cur last : ℕ)
    (st : Monitored σ) : Reading (Monitored σ × Bool) :=
  if last - cur < ifaddrmsgSize then pure (st, false)
  else do
    let flags ← byte (cur + 2)
    if flags &&& unusableFlags ≠ 0 then pure (st, false)
    else do
      let family ← byte cur
      if family ≠ afInet && family ≠ afInet6 then pure (st, false)
      else do
        let index ← word32 (cur + 4)
        let res ← parseRtAttrAt cfg fuel k index family (cur + ifaddrmsgSize)
          (last - (cur + ifaddrmsgSize))
        pure (match res.iface, res.addr with
          | some iface, some addr =>
            if !cfg.isAllowedInterface iface.name then (st, false)
            else handleDetectedFor H n k isAdded iface addr st
          | _, _ => (st, false))

/-- One round of the loop over the messages. -/
def parseMessageAt (fuel n : ℕ) (k : Answers) (first last : ℕ) (st : Monitored σ) :
    Reading (ParseStatus ⊕ ℕ × Monitored σ × Bool) :=
  if last - first < 4 then pure (.inl .bufferTooSmall)
  else do
    let nlmsgLen ← word32 first
    let len := (nlmsgLen + 3) % 2 ^ 32 / 4 * 4
    if last - first < len then pure (.inl .bufferTooSmall)
    else if len < nlmsgHdrLen then pure (.inl .error)
    else do
      let type ← word16 (first + 4)
      if type = nlmsgError then pure (.inl .error)
      else if type = nlmsgOverrun then pure (.inl .bufferTooSmall)
      else if type = nlmsgDone then pure (.inl .done)
      else if type = rtmNewAddr || type = rtmDelAddr then do
        let r ← parseAddressAt cfg H fuel n k (type = rtmNewAddr) (first + nlmsgHdrLen) last st
        pure (.inr (len, r))
      else pure (.inr (len, st, false))

/-- The loop over the messages; `rounds` bounds the loops over the attributes. -/
def parseLoopAt (k : ℕ → Answers) (rounds : ℕ) :
    ℕ → ℕ → ℕ → ℕ → Monitored σ → Reading (Option ParseStatus × Monitored σ)
  | 0, _, _, _, _ => endless
  | fuel + 1, n, first, last, st =>
    if last - first = 0 then pure (some .expectMore, st)
    else do
      let r ← parseMessageAt cfg H rounds n (k n) first last st
      match r with
      | .inl status => pure (some status, st)
      | .inr (len, st, raised) =>
        if raised then pure (none, st)
        else parseLoopAt k rounds fuel (n + 1) (first + len) last st

/-- **`parseBuffer` for any handler**, with the buffer `[first, last)`. -/
def parseBufferAt (k : ℕ → Answers) (handler : σ) (first last fuel : ℕ) :
    Reading (Option ParseStatus × Monitored σ) :=
  parseLoopAt cfg H k fuel fuel 0 first last { handler }

end Program

/-! ### With more rounds -/

section More

variable {cfg : MonitorConfig} {ifIndex fuel fuel' : ℕ} {family : UInt8}

theorem rtAttributesAt_le (h : fuel ≤ fuel') (res : RtParseResult) (rta remaining : ℕ) :
    Le (rtAttributesAt cfg ifIndex family fuel res rta remaining)
      (rtAttributesAt cfg ifIndex family fuel' res rta remaining) := by
  induction fuel generalizing fuel' res rta remaining with
  | zero => exact endless_le _
  | succ fuel ih =>
    obtain ⟨fuel', rfl⟩ : ∃ f, fuel' = f + 1 := ⟨fuel' - 1, by omega⟩
    refine ite_le (.refl _) (bind_le (.refl _) fun _ => ite_le (.refl _) ?_)
    refine bind_le (.refl _) fun _ => bind_le (.refl _) fun _ => ?_
    exact ih (Nat.le_of_succ_le_succ h) _ _ _

variable {σ : Type} {H : Handler σ} {n first last : ℕ} {k : Answers}

theorem parseAddressAt_le (h : fuel ≤ fuel') (isAdded : Bool) (cur : ℕ) (st : Monitored σ) :
    Le (parseAddressAt cfg H fuel n k isAdded cur last st)
      (parseAddressAt cfg H fuel' n k isAdded cur last st) := by
  refine ite_le (.refl _) (bind_le (.refl _) fun _ => ite_le (.refl _) ?_)
  refine bind_le (.refl _) fun _ => ite_le (.refl _) (bind_le (.refl _) fun _ => ?_)
  refine bind_le (bind_le ?_ fun _ => .refl _) fun _ => .refl _
  exact rtAttributesAt_le h _ _ _

theorem parseMessageAt_le (h : fuel ≤ fuel') (st : Monitored σ) :
    Le (parseMessageAt cfg H fuel n k first last st)
      (parseMessageAt cfg H fuel' n k first last st) := by
  refine ite_le (.refl _) (bind_le (.refl _) fun _ => ite_le (.refl _) (ite_le (.refl _) ?_))
  refine bind_le (.refl _) fun _ => ite_le (.refl _) (ite_le (.refl _) (ite_le (.refl _) ?_))
  refine ite_le (bind_le ?_ fun _ => .refl _) (.refl _)
  exact parseAddressAt_le h _ _ _

theorem parseLoopAt_le {k : ℕ → Answers} {rounds rounds' : ℕ} (hr : rounds ≤ rounds')
    (h : fuel ≤ fuel') (st : Monitored σ) :
    Le (parseLoopAt cfg H k rounds fuel n first last st)
      (parseLoopAt cfg H k rounds' fuel' n first last st) := by
  induction fuel generalizing fuel' n first st with
  | zero => exact endless_le _
  | succ fuel ih =>
    obtain ⟨fuel', rfl⟩ : ∃ f, fuel' = f + 1 := ⟨fuel' - 1, by omega⟩
    refine ite_le (.refl _) (bind_le (parseMessageAt_le hr st) fun r => ?_)
    match r with
    | .inl status => exact .refl _
    | .inr (len, st, raised) => exact ite_le (.refl _) (ih (Nat.le_of_succ_le_succ h) _)

end More

/-! ### In the buffer -/

section Inside

variable {cfg : MonitorConfig} {ifIndex fuel lo hi p : ℕ} {family : UInt8} {res : RtParseResult}
  {m : ℕ → UInt8} {bs : List UInt8}

theorem isLinkLocal_take (hlen : 16 ≤ bs.length) : isLinkLocal (bs.take 16) = isLinkLocal bs := by
  match bs, hlen with
  | _ :: _ :: _, _ => rfl

theorem inside_rtAttributeAt (h : Window lo hi m p bs) {n : ℕ} (hn : n ≤ bs.length) (type : ℕ) :
    (rtAttributeAt cfg ifIndex family res type p n).inside lo hi m =
      some (rtAttribute cfg ifIndex family res type (bs.take n)) := by
  have hlen : (bs.take n).length = n := List.length_take_of_le hn
  unfold rtAttributeAt rtAttribute
  rw [hlen]
  by_cases hlabel : type = ifaLabel
  · simp only [if_pos hlabel, inside_bind, h.inside_string hn]
    rfl
  · simp only [if_neg hlabel]
    by_cases hlocal : type = ifaLocal
    · simp only [if_pos hlocal, inside_ite]
      split_ifs with hok
      · simp only [Bool.and_eq_true, decide_eq_true_eq] at hok
        simp only [inside_bind, h.inside_bytes (hok.2.trans hn), List.take_take,
          Nat.min_eq_left hok.2]
        rfl
      · rfl
    · simp only [if_neg hlocal]
      by_cases haddress : type = ifaAddress
      · simp only [if_pos haddress, inside_ite]
        by_cases hok : (family = afInet6 && cfg.enableIPv6 && 16 ≤ n) = true
        · have hn16 : 16 ≤ n := by
            simp only [Bool.and_eq_true, decide_eq_true_eq] at hok
            exact hok.2
          rw [if_pos hok]
          simp only [inside_bind, h.inside_bytes (hn16.trans hn), inside_ite, Option.bind_some,
            hok, Bool.true_and, ← isLinkLocal_take (hn16.trans_eq hlen.symm), List.take_take,
            Nat.min_eq_left hn16]
          split_ifs <;> rfl
        · rw [if_neg hok, if_neg (by simp [hok])]
          rfl
      · simp only [if_neg haddress]
        rfl

/-- When the count has wrapped around, the pointer is outside of the buffer. -/
theorem inside_rtAttributesAt_of_le (hp : hi ≤ p) {remaining : ℕ} (hr : 4 ≤ remaining) :
    (rtAttributesAt cfg ifIndex family fuel res p remaining).inside lo hi m = none := by
  cases fuel with
  | zero => rfl
  | succ fuel =>
    rw [rtAttributesAt, if_neg (by omega), inside_bind, inside_word16_of_le hp]
    rfl

theorem inside_rtAttributesAt (h : Window lo hi m p bs) :
    (rtAttributesAt cfg ifIndex family fuel res p bs.length).inside lo hi m =
      rtAttributes cfg ifIndex family fuel res bs bs.length := by
  induction fuel generalizing res p bs with
  | zero => rfl
  | succ fuel ih =>
    rw [rtAttributesAt, rtAttributes]
    by_cases hlen : bs.length < 4
    · rw [if_pos hlen, if_pos hlen]
      rfl
    · have h2 : Window lo hi m (p + 2) (bs.drop 2) := h.drop (by omega)
      have h4 : Window lo hi m (p + 4) (bs.drop 4) := h.drop (by omega)
      obtain ⟨rtaLen, rtaType, hrta, htype⟩ :
          ∃ rtaLen rtaType, u16 bs = some rtaLen ∧ u16 (bs.drop 2) = some rtaType := by
        obtain ⟨b₀, b₁, b₂, b₃, tail, rfl⟩ := exists_four (Nat.le_of_not_lt hlen)
        exact ⟨_, _, rfl, rfl⟩
      rw [if_neg hlen, if_neg hlen, inside_bind, h.inside_word16, hrta, htype]
      simp only [Option.bind_some, inside_ite, inside_bind, h2.inside_word16, htype]
      by_cases hok : (decide (rtaLen < 4) || decide (bs.length < rtaLen)) = true
      · rw [if_pos hok, if_pos hok]
        rfl
      · rw [if_neg hok, if_neg hok]
        simp only [Bool.or_eq_true, decide_eq_true_eq, not_or, not_lt] at hok
        have hn : rtaLen - 4 ≤ (bs.drop 4).length := by
          rw [List.length_drop]
          omega
        rw [inside_rtAttributeAt h4 hn, List.length_take_of_le hn, if_neg (lt_irrefl _),
          Option.bind_some]
        -- the count wraps around, or it goes on with what is left
        by_cases hle : align4 rtaLen ≤ bs.length
        · rw [if_pos hle, ← List.length_drop]
          exact ih (h.drop hle)
        · have hbig : 4 ≤ bs.length + 2 ^ 64 - align4 rtaLen := by
            unfold align4
            omega
          have hnil : bs.drop (align4 rtaLen) = [] := List.drop_eq_nil_of_le (by omega)
          have hupper := h.upper
          rw [if_neg hle, hnil, rtAttributes_nil hbig, inside_rtAttributesAt_of_le (by omega) hbig]

theorem rtAttributes_of_lt {fuel' : ℕ} (h : bs.length < fuel) (h' : bs.length < fuel') :
    rtAttributes cfg ifIndex family fuel res bs bs.length =
      rtAttributes cfg ifIndex family fuel' res bs bs.length := by
  have hle : (attributes bs).length ≤ bs.length := length_attributes_le bs
  refine Option.ext fun res' => ?_
  rw [rtAttributes_eq_some_iff, rtAttributes_eq_some_iff]
  refine and_congr_right fun _ => and_congr_left fun _ => iff_of_true ?_ ?_
  · omega
  · omega

theorem inside_parseRtAttrAt (h : Window lo hi m p bs) (hfuel : bs.length < fuel) (k : Answers) :
    (parseRtAttrAt cfg fuel k ifIndex family p bs.length).inside lo hi m =
      parseRtAttr cfg k ifIndex family bs := by
  rw [parseRtAttrAt, parseRtAttr, inside_bind, inside_rtAttributesAt h,
    rtAttributes_of_lt hfuel (Nat.lt_succ_self _)]
  cases rtAttributes cfg ifIndex family (bs.length + 1) {} bs bs.length with
  | none => rfl
  | some res => rfl

variable {σ : Type} {H : Handler σ} {n : ℕ} {k : Answers}

theorem inside_parseAddressAt (h : Window lo hi m p bs) (hfuel : bs.length < fuel) (isAdded : Bool)
    (st : Monitored σ) :
    (parseAddressAt cfg H fuel n k isAdded p hi st).inside lo hi m =
      parseAddressFor H cfg n k isAdded bs st := by
  have hupper := h.upper
  have hleft : hi - p = bs.length := by omega
  unfold parseAddressAt parseAddressFor
  rw [hleft]
  by_cases hlen : bs.length < ifaddrmsgSize
  · rw [if_pos hlen, if_pos hlen]
    rfl
  · unfold ifaddrmsgSize at hlen
    have h4 : Window lo hi m (p + 4) (bs.drop 4) := h.drop (by omega)
    have h8 : Window lo hi m (p + 8) (bs.drop 8) := h.drop (by omega)
    have hleft8 : hi - (p + 8) = (bs.drop 8).length := by
      rw [List.length_drop]
      omega
    have hattrs : ∀ index family, (parseRtAttrAt cfg fuel k index family (p + 8)
        (bs.drop 8).length).inside lo hi m = parseRtAttr cfg k index family (bs.drop 8) :=
      fun _ _ => inside_parseRtAttrAt h8 (by rw [List.length_drop]; omega) k
    have hbyte : (byte p).inside lo hi m = bs[0]? := h.inside_byte 0
    obtain ⟨family, _, flags, _, tail, hbs⟩ := exists_four (by omega : 4 ≤ bs.length)
    obtain ⟨index, hindex⟩ := exists_u32 (by rw [List.length_drop]; omega : 4 ≤ (bs.drop 4).length)
    have hfamily : bs[0]? = some family := by rw [hbs]; rfl
    have hflags : bs[2]? = some flags := by rw [hbs]; rfl
    unfold ifaddrmsgSize
    simp only [if_neg hlen, inside_bind, inside_ite, inside_pure, hbyte, h.inside_byte 2,
      h4.inside_word32, hfamily, hflags, hindex, hleft8, hattrs, Option.bind_some]
    split_ifs
    · rfl
    · rfl
    · cases parseRtAttr cfg k index family (bs.drop 8) with
      | none => rfl
      | some res => rfl

theorem inside_parseMessageAt (h : Window lo hi m p bs) (hfuel : bs.length < fuel)
    (st : Monitored σ) :
    (parseMessageAt cfg H fuel n k p hi st).inside lo hi m = parseMessageFor H cfg n k bs st := by
  have hupper := h.upper
  have hleft : hi - p = bs.length := by omega
  unfold parseMessageAt parseMessageFor
  rw [hleft]
  by_cases hlen : bs.length < 4
  · rw [if_pos hlen, if_pos hlen]
    rfl
  · rw [if_neg hlen, if_neg hlen, inside_bind, h.inside_word32]
    cases u32 bs with
    | none => rfl
    | some nlmsgLen =>
      simp only [Option.bind_some, inside_ite, inside_bind, inside_pure]
      split_ifs with hmax hmin
      · rfl
      · rfl
      · unfold nlmsgHdrLen at hmin
        have h4 : Window lo hi m (p + 4) (bs.drop 4) := h.drop (by omega)
        have h16 : Window lo hi m (p + nlmsgHdrLen) (bs.drop nlmsgHdrLen) :=
          h.drop (by unfold nlmsgHdrLen; omega)
        have hfuel16 : (bs.drop nlmsgHdrLen).length < fuel := by
          rw [List.length_drop]
          omega
        rw [h4.inside_word16]
        cases u16 (bs.drop 4) with
        | none => rfl
        | some type =>
          simp only [Option.bind_some]
          split_ifs
          · rfl
          · rfl
          · rfl
          · rw [inside_parseAddressAt h16 hfuel16]
            cases parseAddressFor H cfg n k (type = rtmNewAddr) (bs.drop nlmsgHdrLen) st with
            | none => rfl
            | some r => rfl
          · rfl

theorem inside_parseLoopAt {k : ℕ → Answers} {rounds fuel' : ℕ} (h : Window lo hi m p bs)
    (hrounds : bs.length < rounds) (hfuel : bs.length < fuel) (hfuel' : bs.length < fuel')
    (st : Monitored σ) :
    (parseLoopAt cfg H k rounds fuel n p hi st).inside lo hi m =
      parseLoopFor H cfg k fuel' n bs st := by
  induction fuel generalizing fuel' n p bs st with
  | zero => exact absurd hfuel (Nat.not_lt_zero _)
  | succ fuel ih =>
    obtain ⟨fuel', rfl⟩ : ∃ f, fuel' = f + 1 := ⟨fuel' - 1, by omega⟩
    have hupper := h.upper
    have hleft : hi - p = bs.length := by omega
    rw [parseLoopAt, parseLoopFor, hleft]
    by_cases hbs : bs = []
    · rw [if_pos hbs, if_pos (List.length_eq_zero_iff.2 hbs)]
      rfl
    · rw [if_neg hbs, if_neg (List.length_eq_zero_iff.not.2 hbs), inside_bind,
        inside_parseMessageAt h hrounds]
      rcases hmsg : parseMessageFor H cfg n (k n) bs st with
        _ | status | ⟨len, st', raised⟩
      · rfl
      · rfl
      · obtain ⟨type, hgo⟩ := goesOn_of_inr hmsg
        obtain ⟨hmin, hmax, -⟩ := goesOn_bounds hgo
        have hpos : 0 < len := lt_of_lt_of_le (by decide) hmin
        have hdrop : (bs.drop len).length + len = bs.length := by
          rw [List.length_drop]
          omega
        rw [Option.bind_some]
        dsimp only
        split_ifs
        · rfl
        · exact ih (h.drop hmax) (by omega) (by omega) (by omega) st'

/-- **In the buffer it does what `parseBufferFor` does with the bytes.** -/
theorem inside_parseBufferAt {k : ℕ → Answers} {first last : ℕ} (h : Window first last m first bs)
    (hfuel : bs.length < fuel) (handler : σ) :
    (parseBufferAt cfg H k handler first last fuel).inside first last m =
      parseBufferFor H cfg k bs handler :=
  inside_parseLoopAt h hfuel hfuel (Nat.lt_succ_self _) { handler }

/-- It ends in its buffer whenever `parseBufferFor` has a result. -/
theorem staysInside_parseBufferAt_iff {k : ℕ → Answers} {first last : ℕ}
    (h : Window first last m first bs) (handler : σ) :
    StaysInside first last m (parseBufferAt cfg H k handler first last) ↔
      parseBufferFor H cfg k bs handler ≠ none := by
  rw [staysInside_iff, Option.ne_none_iff_exists']
  constructor
  · rintro ⟨fuel, r, hr⟩
    refine ⟨r, ?_⟩
    rw [← inside_parseBufferAt h (Nat.lt_succ_of_le (le_max_right fuel bs.length))]
    exact parseLoopAt_le (by omega) (by omega) _ _ _ _ _ hr
  · rintro ⟨r, hr⟩
    exact ⟨bs.length + 1, r, by rw [inside_parseBufferAt h (Nat.lt_succ_self _), hr]⟩

end Inside

/-! ### The buffers that it stays in -/

/-- The loop over the messages can come to the bytes `s`. -/
inductive Leads : List UInt8 → List UInt8 → Prop
  | here (bytes : List UInt8) : Leads bytes bytes
  | next {bytes s : List UInt8} {len type : ℕ} (hgo : goesOn bytes = some (len, type))
      (h : Leads (bytes.drop len) s) : Leads bytes s

/-- No address message that can be reached has attributes that overhang the buffer. -/
def Fits (bytes : List UInt8) : Prop :=
  ∀ s, Leads bytes s → LooksForAttributes s →
    ¬ Overhangs (s.drop (nlmsgHdrLen + ifaddrmsgSize))

section Fits

variable {σ : Type} {H : Handler σ} {cfg : MonitorConfig} {k : ℕ → Answers} {bytes : List UInt8}
  {n fuel : ℕ} {st : Monitored σ}

/-- A round that leaves the buffer. -/
theorem parseMessageFor_eq_none_iff {k : Answers} :
    parseMessageFor H cfg n k bytes st = none ↔
      LooksForAttributes bytes ∧ Overhangs (bytes.drop (nlmsgHdrLen + ifaddrmsgSize)) := by
  cases hgo : goesOn bytes with
  | none =>
    obtain ⟨status, hs⟩ : ∃ status, parseMessageFor H cfg n k bytes st = some (.inl status) :=
      parseMessageFor_of_none hgo
    simp [hs, LooksForAttributes, hgo]
  | some found =>
    obtain ⟨len, type⟩ := found
    rw [parseMessageFor_of_goesOn hgo]
    split_ifs with htype
    · have hlooks : LooksForAttributes bytes ↔
          ifaddrmsgSize ≤ (bytes.drop nlmsgHdrLen).length ∧ Usable (bytes.drop nlmsgHdrLen) := by
        have hlen := (goesOn_bounds hgo).1.trans (goesOn_bounds hgo).2.1
        have hsize : nlmsgHdrLen + ifaddrmsgSize ≤ bytes.length ↔
            ifaddrmsgSize ≤ (bytes.drop nlmsgHdrLen).length := by
          rw [List.length_drop]
          omega
        have htypes : ∃ len, goesOn bytes = some (len, rtmNewAddr) ∨
            goesOn bytes = some (len, rtmDelAddr) :=
          ⟨len, htype.imp (fun h => by rw [hgo, h]) fun h => by rw [hgo, h]⟩
        rw [LooksForAttributes, hsize, and_iff_right htypes]
      rw [Option.map_eq_none_iff, parseAddressFor_eq_none_iff, hlooks, List.drop_drop, and_assoc]
    · simp only [not_or] at htype
      simp [LooksForAttributes, hgo, htype.1, htype.2]

/-- The buffers that fit are parsed, whatever the handler does. -/
theorem parseLoopFor_of_fits (hfits : Fits bytes) (hfuel : bytes.length < fuel) :
    parseLoopFor H cfg k fuel n bytes st ≠ none := by
  induction fuel generalizing n bytes st with
  | zero => exact absurd hfuel (Nat.not_lt_zero _)
  | succ fuel ih =>
    rw [parseLoopFor]
    split_ifs
    · exact Option.some_ne_none _
    · rcases hmsg : parseMessageFor H cfg n (k n) bytes st with
        _ | status | ⟨len, st', raised⟩
      · obtain ⟨hlooks, hover⟩ := parseMessageFor_eq_none_iff.1 hmsg
        exact absurd hover (hfits bytes (.here bytes) hlooks)
      · exact Option.some_ne_none _
      · obtain ⟨type, hgo⟩ := goesOn_of_inr hmsg
        obtain ⟨hmin, hmax, -⟩ := goesOn_bounds hgo
        have hpos : 0 < len := lt_of_lt_of_le (by decide) hmin
        dsimp only
        split_ifs
        · exact Option.some_ne_none _
        · refine ih (fun s hs => hfits s (.next hgo hs)) ?_
          rw [List.length_drop]
          omega

/-- The buffers with a length that is a multiple of four fit; the kernel fills its messages up. -/
theorem fits_of_mod (hmod : bytes.length % 4 = 0) : Fits bytes := by
  intro s hs hlooks
  refine not_overhangs_of_mod ?_
  have hsmod : s.length % 4 = 0 := by
    clear hlooks
    induction hs with
    | here => exact hmod
    | next hgo h ih =>
      obtain ⟨-, hmax, hlen⟩ := goesOn_bounds hgo
      refine ih ?_
      rw [List.length_drop]
      omega
  have hsize := hlooks.2.1
  rw [List.length_drop]
  unfold nlmsgHdrLen ifaddrmsgSize at *
  omega

/-- A handler that does nothing. -/
def quietHandler : Handler Unit where
  perform _ _ s := (s, false)

theorem parseAddressFor_quietHandler {k : Answers} {isAdded : Bool} {cur : List UInt8}
    {st : Monitored Unit} {r : Monitored Unit × Bool}
    (h : parseAddressFor quietHandler cfg n k isAdded cur st = some r) : r.2 = false := by
  have hdetected : ∀ iface addr,
      (handleDetectedFor quietHandler n k isAdded iface addr st).2 = false := by
    intro iface addr
    unfold handleDetectedFor
    split
    · split
      · split_ifs <;> rfl
      · split
        · rfl
        · dsimp only
          split_ifs <;> rfl
    · rfl
  unfold parseAddressFor at h
  split_ifs at h
  · cases h
    rfl
  · split at h
    · split_ifs at h
      · cases h
        rfl
      · cases h
        rfl
      · obtain ⟨res, -, rfl⟩ := Option.map_eq_some_iff.1 h
        split
        · split_ifs
          · rfl
          · exact hdetected _ _
        · rfl
    · cases h

/-- A message that can be reached is reached with a handler that does not raise. -/
theorem parseLoopFor_of_leads {s : List UInt8} {st : Monitored Unit} (h : Leads bytes s)
    (hlooks : LooksForAttributes s) (hover : Overhangs (s.drop (nlmsgHdrLen + ifaddrmsgSize))) :
    parseLoopFor quietHandler cfg k fuel n bytes st = none := by
  induction h generalizing n fuel st with
  | here bytes =>
    cases fuel with
    | zero => rfl
    | succ fuel =>
      have hne : bytes ≠ [] := by
        rintro rfl
        exact absurd hlooks.2.1 (by decide)
      rw [parseLoopFor, if_neg hne, parseMessageFor_eq_none_iff.2 ⟨hlooks, hover⟩]
  | @next bytes s len type hgo h ih =>
    cases fuel with
    | zero => rfl
    | succ fuel =>
      have hne : bytes ≠ [] := by
        rintro rfl
        exact absurd ((goesOn_bounds hgo).1.trans (goesOn_bounds hgo).2.1) (by decide)
      rw [parseLoopFor, if_neg hne, parseMessageFor_of_goesOn hgo]
      split_ifs
      · cases haddr : parseAddressFor quietHandler cfg n (k n) (type = rtmNewAddr)
            (bytes.drop nlmsgHdrLen) st with
        | none => rfl
        | some r =>
          obtain ⟨st', raised⟩ := r
          obtain rfl : raised = false := parseAddressFor_quietHandler haddr
          exact ih hlooks hover
      · exact ih hlooks hover

/-- **`parseBuffer` stays in its buffer**: for every buffer, it ends and reads nothing outside,
whatever the configuration, the system and the handler do, exactly if the buffer fits.  It leaves
the buffer where the count of the bytes that remain wraps around. -/
theorem parseBuffer_inside_iff (m : ℕ → UInt8) (first length : ℕ) :
    (∀ (σ : Type) (H : Handler σ) (cfg : MonitorConfig) (k : ℕ → Answers) (handler : σ),
      StaysInside first (first + length) m
        (parseBufferAt cfg H k handler first (first + length))) ↔
      Fits (content m first length) := by
  have hwindow : Window first (first + length) m first (content m first length) :=
    window_content first length
  constructor
  · intro h s hs hlooks hover
    have hstays := h Unit quietHandler {} (fun _ => ⟨none, none, .started⟩) ()
    rw [staysInside_parseBufferAt_iff hwindow] at hstays
    exact hstays (parseLoopFor_of_leads hs hlooks hover)
  · intro hfits σ H cfg k handler
    rw [staysInside_parseBufferAt_iff hwindow]
    exact parseLoopFor_of_fits hfits (Nat.lt_succ_self _)

/-- A message of 28 bytes and one more byte: behind its `ifaddrmsg` there is an attribute with the
length 5. -/
def oneByteMore : List UInt8 :=
  [28, 0, 0, 0, 20, 0, 0, 0, 0, 0, 0, 0, 0, 0, 0, 0, 2, 24, 0x80, 0, 1, 0, 0, 0, 5, 0, 0, 0, 0]

theorem oneByteMore_leaves :
    ¬ StaysInside 0 29 (fun p => oneByteMore.getD p 0)
      (parseBufferAt {} quietHandler (fun _ => ⟨none, none, .started⟩) () 0 29) := by
  rw [staysInside_parseBufferAt_iff (window_content 0 29), not_not]
  rfl

end Fits

end Netlink

end Wsddn
