import Wsddn.Netlink.Bounds
import Wsddn.Netlink.Selection

/-!
# A message and what follows it

The code looks for the `ifaddrmsg` of a message, and for its attributes, in everything that is left
of the buffer.  A message is compared with the same message at the end of a buffer.

* `SameReport` : the attributes that are found in the whole buffer report what those in the message
  report.
* `OwnBytes` : the condition for it, on the message and what follows it.
* `parseMessage_own_iff` : **a message leads to what its own bytes say** exactly under this condition.
-/

namespace Wsddn

namespace Netlink

open LittleEndian

/-! ### What attributes report -/

/-- The address in some attributes: the last `IFA_LOCAL` for IPv4, the last link-local `IFA_ADDRESS`
for IPv6. -/
def addressOf (ifIndex : ℕ) (family : UInt8) (attrs : List RtAttr) : Option IpAddress :=
  if family = afInet then
    (attrs.filter fun a => a.type = ifaLocal && 4 ≤ a.payload.length).getLast?.map
      fun a => .v4 (BitVec.ofNat 32 (ofBytes (a.payload.take 4)))
  else if family = afInet6 then
    (attrs.filter fun a =>
        a.type = ifaAddress && 16 ≤ a.payload.length && isLinkLocal a.payload).getLast?.map
      fun a => .v6 (BitVec.ofNat 128 (ofBytes (a.payload.take 16))) (UInt32.ofNat ifIndex)
  else none

/-- The name in some attributes: the last `IFA_LABEL`. -/
def labelOf (attrs : List RtAttr) : Option SysString :=
  (attrs.filter fun a => a.type = ifaLabel).getLast?.map fun a => a.payload.takeWhile (· ≠ 0)

/-- The same address, and if there is one the same name. -/
def SameReport (ifIndex : ℕ) (family : UInt8) (own all : List RtAttr) : Prop :=
  addressOf ifIndex family all = addressOf ifIndex family own ∧
    (addressOf ifIndex family all ≠ none → labelOf all = labelOf own)

/-- The family is enabled. -/
def enabled (cfg : MonitorConfig) (family : UInt8) : Bool :=
  family = afInet && cfg.enableIPv4 || family = afInet6 && cfg.enableIPv6

/-- The interface and the address that are taken from some attributes. -/
def detectedIn (cfg : MonitorConfig) (k : Answers) (ifIndex : ℕ) (family : UInt8)
    (attrs : List RtAttr) : Option (NetworkInterface × IpAddress) :=
  if enabled cfg family then
    match addressOf ifIndex family attrs, (labelOf attrs).or k.name with
    | some addr, some name =>
      if cfg.isAllowedInterface name then some (⟨name, toInt32 ifIndex⟩, addr) else none
    | _, _ => none
  else none

section Attributes

variable {cfg : MonitorConfig} {k : Answers} {ifIndex : ℕ} {family : UInt8} {attrs : List RtAttr}

/-- What the loop leaves in one field: the last attribute that sets it. -/
theorem foldl_field {β : Type*} (field : RtParseResult → Option β) (p : RtAttr → Bool)
    (g : RtAttr → β) (hinit : field {} = none)
    (hstep : ∀ res a, field (takeAttr cfg ifIndex family res a) =
      if p a then some (g a) else field res) :
    field (attrs.foldl (takeAttr cfg ifIndex family) {}) = (attrs.filter p).getLast?.map g := by
  have hfold : field (attrs.foldl (takeAttr cfg ifIndex family) {}) =
      attrs.foldl (fun acc a => if p a then some (g a) else acc) (field {}) :=
    (List.foldl_hom field fun res a => (hstep res a).symm).symm
  rw [hfold, AddressMessage.foldl_last, hinit, Option.or_none]

theorem foldl_iface : (attrs.foldl (takeAttr cfg ifIndex family) {}).iface =
    (labelOf attrs).map fun name => ⟨name, toInt32 ifIndex⟩ := by
  rw [foldl_field RtParseResult.iface (fun a => a.type = ifaLabel)
    (fun a => ⟨a.payload.takeWhile (· ≠ 0), toInt32 ifIndex⟩) rfl, labelOf, Option.map_map]
  · rfl
  · intro res a
    rw [takeAttr, AddressMessage.rtAttribute_iface]
    simp only [decide_eq_true_eq]

theorem foldl_addr : (attrs.foldl (takeAttr cfg ifIndex family) {}).addr =
    if enabled cfg family then addressOf ifIndex family attrs else none := by
  have hne : afInet ≠ afInet6 := by decide
  unfold addressOf enabled
  by_cases h4 : family = afInet ∧ cfg.enableIPv4 = true
  · obtain ⟨rfl, hset⟩ := h4
    rw [foldl_field RtParseResult.addr (fun a => a.type = ifaLocal && 4 ≤ a.payload.length)
      (fun a => .v4 (BitVec.ofNat 32 (ofBytes (a.payload.take 4)))) rfl]
    · simp [hset]
    · intro res a
      rw [takeAttr, AddressMessage.rtAttribute_addr_eq]
      simp [hset, hne]
  · by_cases h6 : family = afInet6 ∧ cfg.enableIPv6 = true
    · obtain ⟨rfl, hset⟩ := h6
      rw [foldl_field RtParseResult.addr (fun a =>
          a.type = ifaAddress && 16 ≤ a.payload.length && isLinkLocal a.payload)
        (fun a => .v6 (BitVec.ofNat 128 (ofBytes (a.payload.take 16))) (UInt32.ofNat ifIndex)) rfl]
      · simp [hset, hne.symm]
      · intro res a
        rw [takeAttr, AddressMessage.rtAttribute_addr_eq]
        simp [hset, hne.symm, and_assoc]
    · have hoff : (decide (family = afInet) && cfg.enableIPv4 ||
          decide (family = afInet6) && cfg.enableIPv6) = false := by
        simpa [not_and] using And.intro h4 h6
      rw [hoff, foldl_field RtParseResult.addr (fun _ => false) (fun _ => .v4 0) rfl]
      · simp
      · intro res a
        rw [takeAttr, AddressMessage.rtAttribute_addr_eq, if_neg fun h => h4 ⟨h.1, h.2.1⟩,
          if_neg fun h => h6 ⟨h.1, h.2.1⟩]
        rfl

end Attributes

/-! ### What a message leads to -/

section Reports

variable {σ : Type} {H : Handler σ} {cfg : MonitorConfig} {n index : ℕ} {k : Answers}
  {isAdded : Bool} {cur : List UInt8} {family flags : UInt8} {st : Monitored σ}

/-- The handler is told what was detected. -/
def report (H : Handler σ) (n : ℕ) (k : Answers) (isAdded : Bool) (st : Monitored σ) :
    Option (NetworkInterface × IpAddress) → Monitored σ × Bool
  | none => (st, false)
  | some (iface, addr) => handleDetectedFor H n k isAdded iface addr st

theorem parseRtAttr_of_not_overhangs {bytes : List UInt8} (hover : ¬ Overhangs bytes) :
    ∃ res, parseRtAttr cfg k index family bytes = some res ∧
      (match res.iface, res.addr with
        | some iface, some addr =>
          if !cfg.isAllowedInterface iface.name then (st, false)
          else handleDetectedFor H n k isAdded iface addr st
        | _, _ => (st, false)) =
      report H n k isAdded st (detectedIn cfg k index family (attributes bytes)) := by
  have hlen : (attributes bytes).length < bytes.length + 1 :=
    Nat.lt_succ_of_le (length_attributes_le bytes)
  rw [parseRtAttr, rtAttributes_eq_some_iff.2 ⟨hover, hlen, rfl⟩]
  refine ⟨_, rfl, ?_⟩
  have hiface : ((attributes bytes).foldl (takeAttr cfg index family) {}).iface = _ := foldl_iface
  have haddr : ((attributes bytes).foldl (takeAttr cfg index family) {}).addr = _ := foldl_addr
  generalize (attributes bytes).foldl (takeAttr cfg index family) {} = res at hiface haddr ⊢
  obtain ⟨addr, iface⟩ := res
  dsimp only at hiface haddr
  subst hiface haddr
  unfold detectedIn
  cases henabled : enabled cfg family with
  | false => cases labelOf (attributes bytes) <;> rfl
  | true =>
    cases haddr : addressOf index family (attributes bytes) with
    | none => cases labelOf (attributes bytes) <;> rfl
    | some addr =>
      -- the name is the label, or else what the system answers
      cases hlabel : labelOf (attributes bytes) with
      | some name => cases hname : cfg.isAllowedInterface name <;> simp [report, hname]
      | none =>
        cases hk : k.name with
        | none => simp [report]
        | some name => cases hname : cfg.isAllowedInterface name <;> simp [report, hname]

/-- An address message whose attributes are looked at. -/
theorem parseAddressFor_of_usable (hlen : ifaddrmsgSize ≤ cur.length)
    (hfamily : cur[0]? = some family) (hindex : u32 (cur.drop 4) = some index)
    (husable : Usable cur) (hover : ¬ Overhangs (cur.drop ifaddrmsgSize)) :
    parseAddressFor H cfg n k isAdded cur st =
      some (report H n k isAdded st
        (detectedIn cfg k index family (attributes (cur.drop ifaddrmsgSize)))) := by
  obtain ⟨family', flags, hfamily', hflags, hgood, hfam⟩ := husable
  obtain rfl := Option.some.inj (hfamily.symm.trans hfamily')
  obtain ⟨res, hres, hreport⟩ : ∃ res, parseRtAttr cfg k index family (cur.drop ifaddrmsgSize) =
    some res ∧ _ := parseRtAttr_of_not_overhangs hover
  unfold parseAddressFor
  rw [if_neg (Nat.not_lt.2 hlen), hfamily, hflags, hindex]
  dsimp only
  have hfam' : ¬ (decide (family ≠ afInet) && decide (family ≠ afInet6)) = true := by
    simpa [or_iff_not_imp_left] using hfam
  rw [if_neg (not_not.2 hgood), if_neg hfam', hres, Option.map_some]
  exact congrArg some hreport

/-- An address message whose attributes are not looked at. -/
theorem parseAddressFor_of_not_usable (h : ¬ (ifaddrmsgSize ≤ cur.length ∧ Usable cur)) :
    parseAddressFor H cfg n k isAdded cur st = some (st, false) := by
  unfold parseAddressFor
  by_cases hlen : cur.length < ifaddrmsgSize
  · rw [if_pos hlen]
  · have hsize : ifaddrmsgSize = 8 := rfl
    obtain ⟨family, _, flags, _, tail, hcur⟩ := exists_four (by omega : 4 ≤ cur.length)
    obtain ⟨index, hindex⟩ := exists_u32 (by rw [List.length_drop]; omega : 4 ≤ (cur.drop 4).length)
    have hfamily : cur[0]? = some family := by rw [hcur]; rfl
    have hflags : cur[2]? = some flags := by rw [hcur]; rfl
    have hnot : flags &&& unusableFlags = 0 → ¬ (family = afInet ∨ family = afInet6) :=
      fun hgood hfam => h ⟨Nat.le_of_not_lt hlen, family, flags, hfamily, hflags, hgood, hfam⟩
    rw [if_neg hlen, hfamily, hflags, hindex]
    dsimp only
    by_cases hgood : flags &&& unusableFlags = 0
    · have hfam' : (decide (family ≠ afInet) && decide (family ≠ afInet6)) = true := by
        simpa [not_or] using hnot hgood
      rw [if_neg (not_not.2 hgood), if_pos hfam']
    · rw [if_pos hgood]

theorem report_inj {name : Option SysString} {d d' : Option (NetworkInterface × IpAddress)}
    (h : (report quietHandler n ⟨name, some iffMulticast, .started⟩ isAdded
        { handler := () } d).1.calls =
      (report quietHandler n ⟨name, some iffMulticast, .started⟩ isAdded
        { handler := () } d').1.calls) : d = d' := by
  have hcalls : ∀ d : Option (NetworkInterface × IpAddress),
      (report quietHandler n ⟨name, some iffMulticast, .started⟩ isAdded
        { handler := () } d).1.calls =
      d.toList.map fun r => if isAdded then .addAddress r.1 r.2 else .removeAddress r.1 r.2 := by
    intro d
    cases d with
    | none => rfl
    | some r => cases isAdded <;> rfl
  rw [hcalls, hcalls] at h
  cases d with
  | none =>
    cases d' with
    | none => rfl
    | some r' => simp at h
  | some r =>
    cases d' with
    | none => simp at h
    | some r' => cases isAdded <;> simpa [Prod.ext_iff] using h

theorem detectedIn_default (hfamily : family = afInet ∨ family = afInet6) (attrs : List RtAttr)
    (name : SysString) :
    detectedIn {} ⟨some name, some iffMulticast, .started⟩ index family attrs =
      (addressOf index family attrs).map
        fun addr => (⟨(labelOf attrs).getD name, toInt32 index⟩, addr) := by
  have henabled : enabled {} family = true := by
    obtain rfl | rfl := hfamily <;> rfl
  unfold detectedIn
  rw [if_pos henabled]
  cases addressOf index family attrs with
  | none => rfl
  | some addr => cases labelOf attrs <;> rfl

theorem detectedIn_congr {own all : List RtAttr} (h : SameReport index family own all) :
    detectedIn cfg k index family all = detectedIn cfg k index family own := by
  unfold detectedIn
  rw [← h.1]
  cases hall : addressOf index family all with
  | none => rfl
  | some addr => rw [h.2 (by simp [hall])]

/-- When the same is detected, whatever name the system answers. -/
theorem sameReport_of_detectedIn {own all : List RtAttr}
    (hfamily : family = afInet ∨ family = afInet6)
    (h : ∀ name, detectedIn {} ⟨some name, some iffMulticast, .started⟩ index family all =
      detectedIn {} ⟨some name, some iffMulticast, .started⟩ index family own) :
    SameReport index family own all := by
  simp only [detectedIn_default hfamily] at h
  cases hall : addressOf index family all with
  | none =>
    have hown := h []
    rw [hall, Option.map_none, eq_comm, Option.map_eq_none_iff] at hown
    exact ⟨by rw [hall, hown], fun hne => absurd hall hne⟩
  | some addr =>
    obtain ⟨hown, hname⟩ : addressOf index family own = some addr ∧
        ∀ name, (labelOf own).getD name = (labelOf all).getD name := by
      cases hown : addressOf index family own with
      | none => simpa [hall, hown] using h []
      | some addr' =>
        simp only [hall, hown, Option.map_some, Option.some.injEq, Prod.mk.injEq,
          NetworkInterface.mk.injEq, and_true] at h
        exact ⟨by rw [(h []).2], fun name => (h name).1.symm⟩
    refine ⟨by rw [hall, hown], fun _ => ?_⟩
    -- a label is told from the answers by another answer
    cases hlabel : labelOf own with
    | none =>
      cases hlabel' : labelOf all with
      | none => rfl
      | some l => simpa [hlabel, hlabel'] using hname (0 :: l)
    | some l =>
      cases hlabel' : labelOf all with
      | none => simpa [hlabel, hlabel'] using hname (0 :: l)
      | some l' => simpa [hlabel, hlabel', eq_comm] using hname []

end Reports

/-! ### A message and what follows it -/

/-- A complete message: its length, rounded up, is the number of its bytes. -/
structure IsMessage (m : List UInt8) : Prop where
  header : nlmsgHdrLen ≤ m.length
  len : ∃ nlmsgLen, u32 m = some nlmsgLen ∧ (nlmsgLen + 3) % 2 ^ 32 / 4 * 4 = m.length

/-- What is found for the message `m` when `rest` follows it reports what is found in `m`. -/
def OwnBytes (m rest : List UInt8) : Prop :=
  LooksForAttributes (m ++ rest) →
    ¬ Overhangs ((m ++ rest).drop (nlmsgHdrLen + ifaddrmsgSize)) ∧
    ∀ family index, (m ++ rest)[nlmsgHdrLen]? = some family →
      u32 ((m ++ rest).drop (nlmsgHdrLen + 4)) = some index →
      SameReport index family (attributes (m.drop (nlmsgHdrLen + ifaddrmsgSize)))
        (attributes ((m ++ rest).drop (nlmsgHdrLen + ifaddrmsgSize)))

section Own

variable {σ : Type} {H : Handler σ} {cfg : MonitorConfig} {n index : ℕ} {k : Answers}
  {isAdded : Bool} {m own rest : List UInt8} {family : UInt8} {st : Monitored σ}

theorem u32_append (h : 4 ≤ own.length) : u32 (own ++ rest) = u32 own := by
  obtain ⟨_, _, _, _, _, rfl⟩ := exists_four h
  rfl

theorem u16_append (h : 2 ≤ own.length) : u16 (own ++ rest) = u16 own := by
  match own, h with
  | _ :: _ :: _, _ => rfl

theorem usable_append (h : ifaddrmsgSize ≤ own.length) : Usable (own ++ rest) ↔ Usable own := by
  unfold ifaddrmsgSize at h
  simp only [Usable, List.getElem?_append_left (by omega : 0 < own.length),
    List.getElem?_append_left (by omega : 2 < own.length)]

theorem IsMessage.mod (hm : IsMessage m) : m.length % 4 = 0 := by
  obtain ⟨nlmsgLen, -, h⟩ := hm.len
  omega

theorem IsMessage.mod_drop (hm : IsMessage m) : (m.drop nlmsgHdrLen).length % 4 = 0 := by
  have := hm.mod
  have := hm.header
  rw [List.length_drop]
  unfold nlmsgHdrLen at *
  omega

theorem IsMessage.read (hm : IsMessage m) (rest : List UInt8) :
    u32 (m ++ rest) = u32 m ∧ u16 ((m ++ rest).drop 4) = u16 (m.drop 4) ∧
      (m ++ rest).drop nlmsgHdrLen = m.drop nlmsgHdrLen ++ rest := by
  have hlen := hm.header
  unfold nlmsgHdrLen at hlen ⊢
  refine ⟨u32_append (by omega), ?_, List.drop_append_of_le_length hlen⟩
  rw [List.drop_append_of_le_length (by omega), u16_append (by rw [List.length_drop]; omega)]

/-- Only an address message looks behind its end. -/
theorem parseMessageFor_append (hm : IsMessage m)
    (haddr : ∀ len isAdded, (goesOn (m ++ rest) = some (len, rtmNewAddr) ∨
        goesOn (m ++ rest) = some (len, rtmDelAddr)) →
      parseAddressFor H cfg n k isAdded (m.drop nlmsgHdrLen ++ rest) st =
        parseAddressFor H cfg n k isAdded (m.drop nlmsgHdrLen) st) :
    parseMessageFor H cfg n k (m ++ rest) st = parseMessageFor H cfg n k m st := by
  have hlen := hm.header
  obtain ⟨hu32, hu16, hdrop⟩ := hm.read rest
  obtain ⟨nlmsgLen, hnlmsg, hsize⟩ := hm.len
  have hmax : m.length ≤ (m ++ rest).length := by
    rw [List.length_append]
    exact Nat.le_add_right _ _
  have hhdr : nlmsgHdrLen = 16 := rfl
  unfold parseMessageFor
  rw [hu32, hu16, hnlmsg, if_neg (by omega), if_neg (by omega)]
  dsimp only
  rw [hsize, if_neg (Nat.not_lt.2 hmax), if_neg (lt_irrefl _), hdrop]
  cases htype : u16 (m.drop 4) with
  | none => rfl
  | some type =>
    dsimp only
    split_ifs with _ herror hover hdone haddress
    · rfl
    · rfl
    · rfl
    · rfl
    · simp only [Bool.or_eq_true, decide_eq_true_eq] at haddress
      have hgo : goesOn (m ++ rest) = some (m.length, type) :=
        goesOn_eq_some_iff.2 ⟨nlmsgLen, hu32.trans hnlmsg, hu16.trans htype, hsize, hlen, hmax,
          herror, hover, hdone⟩
      rw [haddr m.length _ (haddress.imp (fun h => by rw [hgo, h]) fun h => by rw [hgo, h])]
    · rfl

/-- The bytes of the message alone. -/
theorem parseAddressFor_own (hmod : own.length % 4 = 0)
    (hfamily : (own ++ rest)[0]? = some family)
    (hindex : u32 ((own ++ rest).drop 4) = some index) (husable : Usable (own ++ rest)) :
    parseAddressFor H cfg n k isAdded own st =
      some (report H n k isAdded st
        (detectedIn cfg k index family (attributes (own.drop ifaddrmsgSize)))) := by
  by_cases hown : ifaddrmsgSize ≤ own.length
  · have h8 : 8 ≤ own.length := hown
    rw [List.getElem?_append_left (by omega)] at hfamily
    rw [List.drop_append_of_le_length (by omega),
      u32_append (by rw [List.length_drop]; omega)] at hindex
    refine parseAddressFor_of_usable hown hfamily hindex ((usable_append hown).1 husable) ?_
    refine not_overhangs_of_mod ?_
    rw [List.length_drop]
    unfold ifaddrmsgSize
    omega
  · -- there is nothing to look at
    rw [parseAddressFor_of_not_usable fun h => hown h.1,
      List.drop_eq_nil_of_le (Nat.le_of_not_le hown)]
    have hnone : detectedIn cfg k index family (attributes []) = none := by
      have : addressOf index family (attributes []) = none := by
        unfold addressOf
        split_ifs <;> rfl
      unfold detectedIn
      rw [this]
      split_ifs <;> rfl
    rw [hnone]
    rfl

/-- The fields behind the header of an address message. -/
theorem exists_fields {cur : List UInt8} (hlen : ifaddrmsgSize ≤ cur.length) :
    ∃ family index, cur[0]? = some family ∧ u32 (cur.drop 4) = some index := by
  unfold ifaddrmsgSize at hlen
  obtain ⟨family, _, _, _, _, hcur⟩ := exists_four (by omega : 4 ≤ cur.length)
  obtain ⟨index, hindex⟩ := exists_u32 (by rw [List.length_drop]; omega : 4 ≤ (cur.drop 4).length)
  exact ⟨family, index, by rw [hcur]; rfl, hindex⟩

theorem parseAddressFor_of_ownBytes (hm : IsMessage m) (hown : OwnBytes m rest) (len : ℕ)
    (isAdded : Bool) (hgo : goesOn (m ++ rest) = some (len, rtmNewAddr) ∨
      goesOn (m ++ rest) = some (len, rtmDelAddr)) :
    parseAddressFor H cfg n k isAdded (m.drop nlmsgHdrLen ++ rest) st =
      parseAddressFor H cfg n k isAdded (m.drop nlmsgHdrLen) st := by
  obtain ⟨-, -, hdrop⟩ := hm.read rest
  have hmod := hm.mod_drop
  have hsize : nlmsgHdrLen + ifaddrmsgSize ≤ (m ++ rest).length ↔
      ifaddrmsgSize ≤ (m.drop nlmsgHdrLen ++ rest).length := by
    have := hm.header
    rw [← hdrop, List.length_drop, List.length_append]
    omega
  by_cases hlooks : ifaddrmsgSize ≤ (m.drop nlmsgHdrLen ++ rest).length ∧
      Usable (m.drop nlmsgHdrLen ++ rest)
  · obtain ⟨hlen, husable⟩ := hlooks
    obtain ⟨family, index, hfamily, hindex⟩ := exists_fields hlen
    obtain ⟨hover, hsame⟩ := hown ⟨⟨len, hgo⟩, hsize.2 hlen, hdrop ▸ husable⟩
    rw [← List.drop_drop, hdrop] at hover
    have hsame : SameReport index family
        (attributes ((m.drop nlmsgHdrLen).drop ifaddrmsgSize))
        (attributes ((m.drop nlmsgHdrLen ++ rest).drop ifaddrmsgSize)) := by
      rw [List.drop_drop, ← hdrop, List.drop_drop]
      refine hsame family index ?_ ?_
      · rw [← hdrop, List.getElem?_drop] at hfamily
        exact hfamily
      · rw [← hdrop, List.drop_drop] at hindex
        exact hindex
    rw [parseAddressFor_of_usable hlen hfamily hindex husable hover,
      parseAddressFor_own hmod hfamily hindex husable, detectedIn_congr hsame]
  · have hnot : ¬ (ifaddrmsgSize ≤ (m.drop nlmsgHdrLen).length ∧ Usable (m.drop nlmsgHdrLen)) := by
      rintro ⟨hlen, husable⟩
      refine hlooks ⟨?_, (usable_append hlen).2 husable⟩
      rw [List.length_append]
      omega
    rw [parseAddressFor_of_not_usable hlooks, parseAddressFor_of_not_usable hnot]

theorem goesOn_of_append (hm : IsMessage m) {len type : ℕ}
    (h : goesOn (m ++ rest) = some (len, type)) : goesOn m = some (len, type) := by
  obtain ⟨hu32, hu16, -⟩ := hm.read rest
  obtain ⟨nlmsgLen, hnlmsg, hsize⟩ := hm.len
  obtain ⟨nlmsgLen', hnlmsg', htype, hlen, hmin, -, hends⟩ := goesOn_eq_some_iff.1 h
  rw [hu32, hnlmsg, Option.some.injEq] at hnlmsg'
  subst hnlmsg'
  exact goesOn_eq_some_iff.2 ⟨nlmsgLen, hnlmsg, hu16 ▸ htype, hlen, hmin, by omega, hends⟩

/-- An address message that leads to the same leads to it by its `ifaddrmsg`. -/
theorem parseAddressFor_of_eq (hm : IsMessage m) {len type : ℕ}
    (hgo : goesOn (m ++ rest) = some (len, type)) (htype : type = rtmNewAddr ∨ type = rtmDelAddr)
    (h : parseMessageFor H cfg n k (m ++ rest) st = parseMessageFor H cfg n k m st) :
    parseAddressFor H cfg n k (type = rtmNewAddr) (m.drop nlmsgHdrLen ++ rest) st =
      parseAddressFor H cfg n k (type = rtmNewAddr) (m.drop nlmsgHdrLen) st := by
  rw [parseMessageFor_of_goesOn hgo, parseMessageFor_of_goesOn (goesOn_of_append hm hgo),
    if_pos htype, if_pos htype, (hm.read rest).2.2] at h
  refine Option.map_injective (fun r r' hr => ?_) h
  simpa using hr

/-- **A message leads to what its own bytes say**, whatever the handler, the configuration and the
system do, exactly if what is found behind it, in the rest of the buffer, reports nothing else. -/
theorem parseMessage_own_iff (hm : IsMessage m) :
    (∀ (σ : Type) (H : Handler σ) (cfg : MonitorConfig) (n : ℕ) (k : Answers) (st : Monitored σ),
      parseMessageFor H cfg n k (m ++ rest) st = parseMessageFor H cfg n k m st) ↔
      OwnBytes m rest := by
  constructor
  · intro h hlooks
    obtain ⟨⟨len, hgo⟩, hlen, husable⟩ := hlooks
    obtain ⟨type, hgo, htype⟩ : ∃ type, goesOn (m ++ rest) = some (len, type) ∧
        (type = rtmNewAddr ∨ type = rtmDelAddr) := by
      obtain hgo | hgo := hgo
      · exact ⟨_, hgo, .inl rfl⟩
      · exact ⟨_, hgo, .inr rfl⟩
    have hdrop := (hm.read rest).2.2
    have hmod := hm.mod_drop
    have hlen' : ifaddrmsgSize ≤ (m.drop nlmsgHdrLen ++ rest).length := by
      rw [← hdrop, List.length_drop]
      omega
    rw [hdrop] at husable
    -- the quiet handler shows what is detected
    have heq := fun name => parseAddressFor_of_eq hm hgo htype
      (h Unit quietHandler {} 0 ⟨some name, some iffMulticast, .started⟩ { handler := () })
    have hover : ¬ Overhangs ((m.drop nlmsgHdrLen ++ rest).drop ifaddrmsgSize) := by
      intro hover
      obtain ⟨family, index, hfamily, hindex⟩ := exists_fields hlen'
      have hnone := heq []
      rw [parseAddressFor_eq_none_iff.2 ⟨hlen', husable, hover⟩,
        parseAddressFor_own hmod hfamily hindex husable] at hnone
      cases hnone
    rw [← List.drop_drop, hdrop]
    refine ⟨hover, fun family index hfamily hindex => ?_⟩
    have hfamily : (m.drop nlmsgHdrLen ++ rest)[0]? = some family := by
      rw [← hdrop, List.getElem?_drop]
      exact hfamily
    have hindex : u32 ((m.drop nlmsgHdrLen ++ rest).drop 4) = some index := by
      rw [← hdrop, List.drop_drop]
      exact hindex
    have hfam : family = afInet ∨ family = afInet6 := by
      obtain ⟨family', _, hfamily', -, -, hfam⟩ := husable
      obtain rfl := Option.some.inj (hfamily.symm.trans hfamily')
      exact hfam
    rw [← List.drop_drop]
    refine sameReport_of_detectedIn hfam fun name => ?_
    have hname := heq name
    rw [parseAddressFor_of_usable hlen' hfamily hindex husable hover,
      parseAddressFor_own hmod hfamily hindex husable, Option.some.injEq] at hname
    exact report_inj (congrArg (fun r => r.1.calls) hname)
  · exact fun hown σ H cfg n k st => parseMessageFor_append hm
      fun len isAdded hgo => parseAddressFor_of_ownBytes hm hown len isAdded hgo

/-- An `RTM_DELADDR` message for an IPv4 address without attributes. -/
def bareMessage : List UInt8 :=
  [24, 0, 0, 0, 21, 0, 0, 0, 0, 0, 0, 0, 0, 0, 0, 0, 2, 24, 0x80, 0, 1, 0, 0, 0]

theorem bareMessage_isMessage : IsMessage bareMessage := ⟨by decide, 24, rfl, rfl⟩

/-- An `NLMSG_DONE` message. -/
def doneBytes : List UInt8 := [16, 0, 0, 0, 3, 0, 0, 0, 0, 0, 0, 0, 0, 0, 0, 0]

theorem parseMessage_own_done : OwnBytes bareMessage doneBytes ∧
    parseMessageFor quietHandler {} 0 ⟨none, none, .started⟩ (bareMessage ++ doneBytes)
        { handler := () } =
      parseMessageFor quietHandler {} 0 ⟨none, none, .started⟩ bareMessage { handler := () } := by
  have hown : OwnBytes bareMessage doneBytes := by
    refine fun _ => ⟨not_overhangs_of_mod (by decide), fun family index _ _ => ?_⟩
    -- the message that follows is taken for an attribute of type 0
    have hall : attributes ((bareMessage ++ doneBytes).drop (nlmsgHdrLen + ifaddrmsgSize)) =
        [⟨16, 0, [3, 0, 0, 0, 0, 0, 0, 0, 0, 0, 0, 0]⟩] := by decide
    have hnone : ∀ attrs, attrs = [⟨16, 0, [3, 0, 0, 0, 0, 0, 0, 0, 0, 0, 0, 0]⟩] ∨ attrs = [] →
        addressOf index family attrs = none := by
      rintro attrs (rfl | rfl) <;> unfold addressOf <;> split_ifs <;> rfl
    have hown := hnone (attributes (bareMessage.drop (nlmsgHdrLen + ifaddrmsgSize))) (.inr rfl)
    exact ⟨(hnone _ (.inl hall)).trans hown.symm, fun hne => absurd (hnone _ (.inl hall)) hne⟩
  exact ⟨hown, (parseMessage_own_iff bareMessage_isMessage).2 hown Unit quietHandler {} 0
    ⟨none, none, .started⟩ { handler := () }⟩

/-- The bytes of an `IFA_LOCAL` attribute follow it. -/
theorem bareMessage_speaks_for_another :
    ¬ ∀ (σ : Type) (H : Handler σ) (cfg : MonitorConfig) (n : ℕ) (k : Answers) (st : Monitored σ),
      parseMessageFor H cfg n k (bareMessage ++ [8, 0, 2, 0, 192, 168, 0, 1]) st =
        parseMessageFor H cfg n k bareMessage st := by
  intro h
  have hcalls := congrArg (Option.map (Sum.elim (fun _ => 0) fun r => r.2.1.calls.length))
    (h Unit quietHandler {} 0 ⟨some [108, 111], none, .started⟩ { handler := () })
  exact absurd hcalls (by decide)

end Own

end Netlink

end Wsddn
