import Mathlib.Algebra.Order.BigOperators.Group.List
import Mathlib.Algebra.Order.Ring.Nat
import Wsddn.Netlink.Handler

/-!
# Well-formed messages

A message as the kernel makes it, its bytes, and what `parseBuffer` does with them.  The code looks
for attributes in the whole rest of the buffer; behind the attributes of a message it takes the
following messages for attributes of type 0, which it skips.

* `AddressMessage.detected` : the address that a message is taken to report.
* `handleFor` : what an address message leads to.
* `parseMessageFor_encode` : one round of the loop handles the first message, whatever messages
  follow.
-/

namespace Wsddn

namespace Netlink

open LittleEndian

/-- An attribute. -/
structure Attribute where
  type : UInt16
  data : List UInt8
  deriving DecidableEq, Repr

namespace Attribute

/-- The length of the attribute, with its header and without its padding. -/
def rtaLen (a : Attribute) : ℕ := 4 + a.data.length

end Attribute

/-- An attribute with the bytes that fill it up to a multiple of four. -/
structure Padded where
  attr : Attribute
  padding : List UInt8
  aligned : attr.rtaLen + padding.length = align4 attr.rtaLen

namespace Padded

/-- The bytes of the attribute. -/
def encode (p : Padded) : List UInt8 :=
  le16 p.attr.rtaLen ++ le16 p.attr.type.toNat ++ p.attr.data ++ p.padding

theorem length_encode (p : Padded) : p.encode.length = align4 p.attr.rtaLen := by
  rw [← p.aligned]
  simp only [encode, List.length_append, length_le16, Attribute.rtaLen]

/-- An attribute filled up with zeros. -/
def ofAttribute (a : Attribute) : Padded where
  attr := a
  padding := List.replicate (align4 a.rtaLen - a.rtaLen) 0
  aligned := by
    have := le_align4 a.rtaLen
    rw [List.length_replicate]
    omega

end Padded

/-- Any message: what follows its length. -/
structure Frame where
  tail : List UInt8
  aligned : (4 + tail.length) % 4 = 0
  /-- The length fits the 16 bits of the length of an attribute. -/
  fits : 4 + tail.length < 65536

namespace Frame

/-- The number in its first four bytes. -/
def length (f : Frame) : ℕ := 4 + f.tail.length

/-- The bytes of the message. -/
def encode (f : Frame) : List UInt8 := le32 f.length ++ f.tail

/-- The bytes of some messages, one after the other. -/
def encodeAll (fs : List Frame) : List UInt8 := fs.flatMap encode

theorem length_encode (f : Frame) : f.encode.length = f.length := by
  simp only [encode, length, List.length_append, length_le32]

/-- What is read of a message, whatever follows it. -/
theorem read_encode (f : Frame) (rest : List UInt8) :
    u32 (f.encode ++ rest) = some f.length ∧ (f.length + 3) % 2 ^ 32 / 4 * 4 = f.length ∧
      f.length ≤ (f.encode ++ rest).length ∧ (f.encode ++ rest).drop 4 = f.tail ++ rest ∧
      (f.encode ++ rest).drop f.length = rest := by
  have hfits : f.length < 65536 := f.fits
  have hmod : f.length % 4 = 0 := f.aligned
  refine ⟨?_, by omega, ?_, rfl, List.drop_left' f.length_encode⟩
  · rw [encode, List.append_assoc]
    exact u32_le32_append (by omega) _
  · rw [List.length_append, f.length_encode]
    exact Nat.le_add_right _ _

end Frame

/-- The length of a message with these attributes. -/
def messageLength (attributes : List Attribute) : ℕ :=
  nlmsgHdrLen + ifaddrmsgSize + (attributes.map fun a => align4 a.rtaLen).sum

/-- An `RTM_NEWADDR` or `RTM_DELADDR` message. -/
structure AddressMessage where
  isNew : Bool
  nlmsgFlags : UInt16 := 0
  nlmsgSeq : UInt32 := 0
  nlmsgPid : UInt32 := 0
  family : UInt8
  prefixLen : UInt8 := 0
  flags : UInt8
  scope : UInt8 := 0
  index : UInt32
  attributes : List Attribute
  /-- The length fits the 16 bits of the length of an attribute. -/
  fits : messageLength attributes < 65536
  deriving DecidableEq, Repr

namespace AddressMessage

variable (cfg : MonitorConfig) (k : Answers)

/-- The length of the message, with its header. -/
def length (m : AddressMessage) : ℕ := messageLength m.attributes

/-- `RTM_NEWADDR` or `RTM_DELADDR`. -/
def type (m : AddressMessage) : ℕ := if m.isNew then rtmNewAddr else rtmDelAddr

/-! ### What a message says -/

/-- The index of the interface, as the code keeps it. -/
def ifIndex (m : AddressMessage) : Int := toInt32 m.index.toNat

/-- What the attributes say. -/
def attributeResult (m : AddressMessage) : RtParseResult :=
  m.attributes.foldl (fun res a =>
    rtAttribute cfg m.index.toNat m.family res a.type.toNat a.data) {}

/-- The label of the message. -/
def label (m : AddressMessage) : Option SysString :=
  m.attributes.foldl (fun l a =>
    if a.type.toNat = ifaLabel then some (a.data.takeWhile (· ≠ 0)) else l) none

/-- The address of the message, if its family is enabled. -/
def addr (m : AddressMessage) : Option IpAddress := (m.attributeResult cfg).addr

/-- The interface of the message, by its label or else by the answer to `SIOCGIFNAME`. -/
def iface (m : AddressMessage) : Option NetworkInterface :=
  if (m.attributeResult cfg).iface.isNone && (m.attributeResult cfg).addr.isSome then
    k.name.map fun name => ⟨name, toInt32 m.index.toNat⟩
  else (m.attributeResult cfg).iface

/-- The interface and the address that the message is taken to report. -/
def detected (m : AddressMessage) : Option (NetworkInterface × IpAddress) :=
  if m.flags &&& unusableFlags ≠ 0 then none
  else if m.family ≠ afInet && m.family ≠ afInet6 then none
  else
    match m.iface cfg k, m.addr cfg with
    | some iface, some addr =>
      if !cfg.isAllowedInterface iface.name then none else some (iface, addr)
    | _, _ => none

variable {cfg k}

theorem rtAttribute_iface (i : ℕ) (f : UInt8) (res : RtParseResult) (type : ℕ)
    (data : List UInt8) :
    (rtAttribute cfg i f res type data).iface =
      if type = ifaLabel then some ⟨data.takeWhile (· ≠ 0), toInt32 i⟩ else res.iface := by
  unfold rtAttribute
  split_ifs <;> rfl

/-- An address is only taken from a message of one of the two families. -/
theorem rtAttribute_addr {i : ℕ} {f : UInt8} {res : RtParseResult} {type : ℕ} {data : List UInt8}
    (h : (rtAttribute cfg i f res type data).addr ≠ res.addr) : f = afInet ∨ f = afInet6 := by
  unfold rtAttribute at h
  split_ifs at h with _ _ h4 _ h6
  · exact absurd rfl h
  · simp only [Bool.and_eq_true, decide_eq_true_eq] at h4
    exact .inl h4.1.1
  · exact absurd rfl h
  · simp only [Bool.and_eq_true, decide_eq_true_eq] at h6
    exact .inr h6.1.1.1
  · exact absurd rfl h
  · exact absurd rfl h

theorem attributeResult_iface (m : AddressMessage) :
    (m.attributeResult cfg).iface = m.label.map fun name => ⟨name, m.ifIndex⟩ := by
  -- the two folds go in step
  have hfold : ∀ (attrs : List Attribute) (res : RtParseResult) (l : Option SysString),
      res.iface = l.map (fun name => ⟨name, m.ifIndex⟩) →
      (attrs.foldl (fun res a =>
        rtAttribute cfg m.index.toNat m.family res a.type.toNat a.data) res).iface =
        (attrs.foldl (fun l a => if a.type.toNat = ifaLabel then
          some (a.data.takeWhile (· ≠ 0)) else l) l).map fun name => ⟨name, m.ifIndex⟩ := by
    intro attrs
    induction attrs with
    | nil => exact fun _ _ h => h
    | cons a attrs ih =>
      intro res l h
      refine ih _ _ ?_
      rw [rtAttribute_iface]
      dsimp only
      split_ifs
      · rfl
      · exact h
  exact hfold m.attributes {} none rfl

theorem family_of_addr {m : AddressMessage} {a : IpAddress} (h : m.addr cfg = some a) :
    m.family = afInet ∨ m.family = afInet6 := by
  have hfold : ∀ (attrs : List Attribute) (res : RtParseResult),
      (attrs.foldl (fun res a =>
        rtAttribute cfg m.index.toNat m.family res a.type.toNat a.data) res).addr ≠ res.addr →
      m.family = afInet ∨ m.family = afInet6 := by
    intro attrs
    induction attrs with
    | nil => exact fun _ h => absurd rfl h
    | cons a attrs ih =>
      intro res hne
      by_cases ha : (rtAttribute cfg m.index.toNat m.family res a.type.toNat a.data).addr = res.addr
      · exact ih _ (by rw [ha]; exact hne)
      · exact rtAttribute_addr ha
  refine hfold m.attributes {} ?_
  have haddr : (m.attributeResult cfg).addr = some a := h
  exact fun hnone => Option.some_ne_none a (haddr.symm.trans hnone)

/-- The name of the interface is the label of the message, or else what the system answers. -/
theorem iface_eq {m : AddressMessage} {a : IpAddress} (h : m.addr cfg = some a) :
    m.iface cfg k = (m.label.or k.name).map fun name => ⟨name, m.ifIndex⟩ := by
  have haddr : (m.attributeResult cfg).addr = some a := h
  unfold iface
  rw [haddr, attributeResult_iface]
  cases m.label <;> rfl

/-- When a message is taken to report an address. -/
theorem detected_eq_some_iff {m : AddressMessage} {interface : NetworkInterface} {a : IpAddress} :
    m.detected cfg k = some (interface, a) ↔
      m.addr cfg = some a ∧ m.flags &&& unusableFlags = 0 ∧
        m.label.or k.name = some interface.name ∧ interface.index = m.ifIndex ∧
        cfg.isAllowedInterface interface.name = true := by
  cases haddr : m.addr cfg with
  | none =>
    unfold detected
    rw [haddr]
    split_ifs <;> simp
  | some a' =>
    have hfamily : ¬ (m.family ≠ afInet && m.family ≠ afInet6) = true := by
      have := family_of_addr haddr
      simpa [or_iff_not_imp_left] using this
    unfold detected
    rw [if_neg hfamily, haddr, iface_eq haddr]
    cases m.label.or k.name with
    | none => simp
    | some name =>
      obtain ⟨name', index⟩ := interface
      dsimp only [Option.map_some]
      split_ifs with hflags hallowed
      · simp [hflags]
      · simp only [Bool.not_eq_true'] at hallowed
        simp only [false_iff, Option.some.injEq]
        rintro ⟨-, -, rfl, -, h⟩
        rw [hallowed] at h
        cases h
      · simp only [Bool.not_eq_true', Bool.not_eq_false, ne_eq, not_not] at hallowed hflags
        simp only [Option.some.injEq, Prod.mk.injEq, NetworkInterface.mk.injEq]
        constructor
        · rintro ⟨⟨rfl, rfl⟩, rfl⟩
          exact ⟨rfl, hflags, rfl, rfl, hallowed⟩
        · rintro ⟨rfl, -, rfl, rfl, -⟩
          exact ⟨⟨rfl, rfl⟩, rfl⟩

end AddressMessage

/-! ### Reading the bytes back -/

variable {cfg : MonitorConfig} {k : Answers} {ifIndex : ℕ} {family : UInt8}

/-- One round of the loop over the attributes. -/
theorem rtAttributes_append {n type : ℕ} {data pad tail bytes : List UInt8}
    (hbytes : bytes = le16 n ++ (le16 type ++ (data ++ (pad ++ tail))))
    (hn : n = 4 + data.length) (hlt : n < 65536) (htype : type < 65536)
    (hpad : n + pad.length = align4 n) (fuel : ℕ) (res : RtParseResult) :
    rtAttributes cfg ifIndex family (fuel + 1) res bytes bytes.length =
      rtAttributes cfg ifIndex family fuel (rtAttribute cfg ifIndex family res type data) tail
        tail.length := by
  have hlen : bytes.length = align4 n + tail.length := by
    simp only [hbytes, List.length_append, length_le16]
    omega
  have hle := le_align4 n
  have h2 : bytes.drop 2 = le16 type ++ (data ++ (pad ++ tail)) := by rw [hbytes]; rfl
  have h4 : bytes.drop 4 = data ++ (pad ++ tail) := by rw [hbytes]; rfl
  have hpayload : (bytes.drop 4).take (n - 4) = data := by
    rw [h4, List.take_append_of_le_length (by omega), List.take_of_length_le (by omega)]
  have hrest : bytes.drop (align4 n) = tail := by
    have hsplit : bytes = (le16 n ++ le16 type ++ data ++ pad) ++ tail := by
      simp only [hbytes, List.append_assoc]
    rw [hsplit, List.drop_left']
    simp only [List.length_append, length_le16]
    omega
  rw [rtAttributes, h2, hbytes, u16_le16_append hlt, u16_le16_append htype, ← hbytes]
  dsimp only
  rw [if_neg (by omega), hpayload, hrest]
  have hok : ¬ (decide (n < 4) || decide (bytes.length < n)) = true := by
    simp only [Bool.or_eq_true, decide_eq_true_eq]
    omega
  have hwrap : align4 n ≤ bytes.length := by omega
  rw [if_neg hok, if_neg (by omega), if_pos hwrap, hlen, Nat.add_sub_cancel_left]

theorem rtAttributes_padded (cfg : MonitorConfig) (ifIndex : ℕ) (family : UInt8)
    {ps : List Padded} (hfits : ∀ p ∈ ps, p.attr.rtaLen < 65536) (tail : List UInt8)
    (res : RtParseResult) {fuel : ℕ} (hfuel : (ps.flatMap Padded.encode ++ tail).length < fuel) :
    ∃ fuel', tail.length < fuel' ∧
      rtAttributes cfg ifIndex family fuel res (ps.flatMap Padded.encode ++ tail)
          (ps.flatMap Padded.encode ++ tail).length =
        rtAttributes cfg ifIndex family fuel' ((ps.map Padded.attr).foldl (fun res a =>
          rtAttribute cfg ifIndex family res a.type.toNat a.data) res) tail tail.length := by
  induction ps generalizing fuel res with
  | nil => exact ⟨fuel, hfuel, rfl⟩
  | cons p ps ih =>
    have hp := hfits p List.mem_cons_self
    have hle := le_align4 p.attr.rtaLen
    have henc : ((p :: ps).flatMap Padded.encode ++ tail).length =
        align4 p.attr.rtaLen + (ps.flatMap Padded.encode ++ tail).length := by
      simp only [List.flatMap_cons, List.length_append, Padded.length_encode]
      omega
    have hpos : 4 ≤ p.attr.rtaLen := by
      unfold Attribute.rtaLen
      omega
    obtain ⟨fuel, rfl⟩ : ∃ f, fuel = f + 1 := ⟨fuel - 1, by omega⟩
    have hbytes : (p :: ps).flatMap Padded.encode ++ tail = le16 p.attr.rtaLen ++
        (le16 p.attr.type.toNat ++ (p.attr.data ++ (p.padding ++
          (ps.flatMap Padded.encode ++ tail)))) := by
      simp only [List.flatMap_cons, Padded.encode, List.append_assoc]
    rw [rtAttributes_append hbytes rfl hp p.attr.type.toNat_lt p.aligned]
    exact ih (fun q hq => hfits q (List.mem_cons_of_mem p hq)) _ (by omega)

/-- **A message that is taken for an attribute is skipped**: its type would be 0. -/
theorem rtAttributes_frames {fs : List Frame} {fuel : ℕ} {res : RtParseResult}
    (hfuel : (Frame.encodeAll fs).length < fuel) :
    rtAttributes cfg ifIndex family fuel res (Frame.encodeAll fs) (Frame.encodeAll fs).length =
      some res := by
  induction fs generalizing fuel with
  | nil =>
    obtain ⟨fuel, rfl⟩ : ∃ f, fuel = f + 1 := ⟨fuel - 1, by omega⟩
    rfl
  | cons f fs ih =>
    obtain ⟨fuel, rfl⟩ : ∃ f, fuel = f + 1 := ⟨fuel - 1, by omega⟩
    have hfits : f.length < 65536 := f.fits
    have hhigh : f.length / 65536 = 0 := by omega
    have henc : (Frame.encodeAll (f :: fs)).length = f.length + (Frame.encodeAll fs).length := by
      simp only [Frame.encodeAll, List.flatMap_cons, List.length_append, Frame.length_encode]
    have hbytes : Frame.encodeAll (f :: fs) =
        le16 f.length ++ (le16 0 ++ (f.tail ++ ([] ++ Frame.encodeAll fs))) := by
      simp only [Frame.encodeAll, List.flatMap_cons, Frame.encode, le32, hhigh, List.append_assoc,
        List.nil_append]
    have halign : f.length + ([] : List UInt8).length = align4 f.length :=
      (align4_of_mod f.aligned).symm
    have hpos : 4 ≤ f.length := Nat.le_add_right _ _
    rw [rtAttributes_append hbytes rfl hfits (by omega) halign]
    have hskip : rtAttribute cfg ifIndex family res 0 f.tail = res := rfl
    rw [hskip]
    exact ih (by omega)

namespace AddressMessage

/-- The attributes of a message fit their length field. -/
theorem rtaLen_lt (m : AddressMessage) : ∀ a ∈ m.attributes, a.rtaLen < 65536 := by
  intro a ha
  have hmem : align4 a.rtaLen ∈ m.attributes.map fun a => align4 a.rtaLen :=
    List.mem_map.2 ⟨a, ha, rfl⟩
  have hsum := List.le_sum_of_mem hmem
  have hle := le_align4 a.rtaLen
  have hfits := m.fits
  unfold messageLength at hfits
  omega

theorem length_mod (m : AddressMessage) : m.length % 4 = 0 := by
  have hsum : ∀ attrs : List Attribute, (attrs.map fun a => align4 a.rtaLen).sum % 4 = 0 := by
    intro attrs
    induction attrs with
    | nil => rfl
    | cons a attrs ih =>
      have := align4_mod a.rtaLen
      simp only [List.map_cons, List.sum_cons]
      omega
  have := hsum m.attributes
  simp only [length, messageLength, nlmsgHdrLen, ifaddrmsgSize]
  omega

end AddressMessage

/-- What the attributes of a message say, whatever they are filled up with and whatever messages
follow. -/
theorem parseRtAttr_padded (m : AddressMessage) {ps : List Padded}
    (hps : ps.map Padded.attr = m.attributes) (rest : List Frame) :
    parseRtAttr cfg k m.index.toNat m.family (ps.flatMap Padded.encode ++ Frame.encodeAll rest) =
      some ⟨m.addr cfg, m.iface cfg k⟩ := by
  have hfits : ∀ p ∈ ps, p.attr.rtaLen < 65536 :=
    fun p hp => m.rtaLen_lt _ (hps ▸ List.mem_map.2 ⟨p, hp, rfl⟩)
  have hattrs : rtAttributes cfg m.index.toNat m.family
      ((ps.flatMap Padded.encode ++ Frame.encodeAll rest).length + 1) {}
      (ps.flatMap Padded.encode ++ Frame.encodeAll rest)
      (ps.flatMap Padded.encode ++ Frame.encodeAll rest).length =
        some (m.attributeResult cfg) := by
    obtain ⟨fuel, hfuel, h⟩ := rtAttributes_padded cfg m.index.toNat m.family hfits
      (Frame.encodeAll rest) {} (Nat.lt_succ_self _)
    rw [h, rtAttributes_frames hfuel, hps]
    rfl
  unfold parseRtAttr
  rw [hattrs, Option.map_some]
  unfold AddressMessage.addr AddressMessage.iface
  split_ifs <;> rfl

theorem read_ifaddrmsg (m : AddressMessage) {cur attrs : List UInt8}
    (hcur : cur = m.family :: m.prefixLen :: m.flags :: m.scope ::
      (le32 m.index.toNat ++ attrs)) :
    ¬ cur.length < ifaddrmsgSize ∧ cur[0]? = some m.family ∧ cur[2]? = some m.flags ∧
      u32 (cur.drop 4) = some m.index.toNat ∧ cur.drop ifaddrmsgSize = attrs := by
  refine ⟨?_, ?_, ?_, ?_, ?_⟩ <;> rw [hcur]
  · simp only [List.length_cons, List.length_append, length_le32, ifaddrmsgSize]
    omega
  · rfl
  · rfl
  · exact u32_le32_append m.index.toNat_lt _
  · rfl

/-! ### Messages -/

/-- An address message with what its attributes are filled up with. -/
structure AddressFrame where
  message : AddressMessage
  padded : List Padded
  padded_attr : padded.map Padded.attr = message.attributes

namespace AddressFrame

/-- The message with its attributes filled up with zeros. -/
def ofMessage (m : AddressMessage) : AddressFrame where
  message := m
  padded := m.attributes.map Padded.ofAttribute
  padded_attr := by
    rw [List.map_map]
    exact List.map_id _

/-- The bytes of the message from its type on. -/
def tail (f : AddressFrame) : List UInt8 :=
  le16 f.message.type ++ le16 f.message.nlmsgFlags.toNat ++ le32 f.message.nlmsgSeq.toNat ++
    le32 f.message.nlmsgPid.toNat ++
    [f.message.family, f.message.prefixLen, f.message.flags, f.message.scope] ++
    le32 f.message.index.toNat ++ f.padded.flatMap Padded.encode

theorem length_tail (f : AddressFrame) : 4 + f.tail.length = f.message.length := by
  have hpadded : (f.padded.flatMap Padded.encode).length =
      (f.message.attributes.map fun a => align4 a.rtaLen).sum := by
    rw [← f.padded_attr, List.map_map, List.length_flatMap]
    simp only [Padded.length_encode]
    rfl
  simp only [tail, AddressMessage.length, messageLength, List.length_append, length_le16,
    length_le32, hpadded, nlmsgHdrLen, ifaddrmsgSize, List.length_cons, List.length_nil]
  omega

end AddressFrame

/-- A message of another type: what follows its type. -/
structure OtherMessage where
  type : UInt16
  rest : List UInt8
  ne_new : type.toNat ≠ rtmNewAddr
  ne_del : type.toNat ≠ rtmDelAddr
  aligned : (6 + rest.length) % 4 = 0
  header : nlmsgHdrLen ≤ 6 + rest.length
  fits : 6 + rest.length < 65536

/-- A well-formed message. -/
inductive Message where
  | address (f : AddressFrame)
  | other (m : OtherMessage)

namespace Message

/-- The bytes of the message. -/
def frame : Message → Frame
  | .address f => {
      tail := f.tail
      aligned := by rw [f.length_tail, f.message.length_mod]
      fits := by
        rw [f.length_tail]
        exact f.message.fits }
  | .other m => {
      tail := le16 m.type.toNat ++ m.rest
      aligned := by
        have := m.aligned
        simp only [List.length_append, length_le16]
        omega
      fits := by
        have := m.fits
        simp only [List.length_append, length_le16]
        omega }

/-- The bytes of some messages, one after the other. -/
def encodeAll (ms : List Message) : List UInt8 := Frame.encodeAll (ms.map frame)

/-- `NLMSG_ERROR`, `NLMSG_OVERRUN` and `NLMSG_DONE` end the loop over the messages. -/
def ends : Message → Option ParseStatus
  | .address _ => none
  | .other m =>
    if m.type.toNat = nlmsgError then some .error
    else if m.type.toNat = nlmsgOverrun then some .bufferTooSmall
    else if m.type.toNat = nlmsgDone then some .done
    else none

end Message

/-! ### One round of the loop -/

/-- What the code does with an address message. -/
def handleFor {σ : Type*} (H : Handler σ) (cfg : MonitorConfig) (n : ℕ) (k : Answers)
    (m : AddressMessage) (st : Monitored σ) : Monitored σ × Bool :=
  match m.detected cfg k with
  | none => (st, false)
  | some (iface, addr) => handleDetectedFor H n k m.isNew iface addr st

section Round

variable {σ : Type*} {H : Handler σ} {n : ℕ} {st : Monitored σ}

theorem parseAddressFor_frame (f : AddressFrame) (rest : List Frame) :
    parseAddressFor H cfg n k f.message.isNew
        (((Message.address f).frame.encode ++ Frame.encodeAll rest).drop nlmsgHdrLen) st =
      some (handleFor H cfg n k f.message st) := by
  have hdrop : ((Message.address f).frame.encode ++ Frame.encodeAll rest).drop nlmsgHdrLen =
      f.message.family :: f.message.prefixLen :: f.message.flags :: f.message.scope ::
        (le32 f.message.index.toNat ++
          (f.padded.flatMap Padded.encode ++ Frame.encodeAll rest)) := by
    simp only [Message.frame, Frame.encode, AddressFrame.tail, List.append_assoc]
    rfl
  obtain ⟨hlen, hfamily, hflags, hindex, hattrs⟩ := read_ifaddrmsg f.message hdrop
  rw [parseAddressFor, if_neg hlen, hfamily, hflags, hindex, hattrs]
  dsimp only
  rw [parseRtAttr_padded f.message f.padded_attr, Option.map_some]
  unfold handleFor AddressMessage.detected
  split_ifs <;> try rfl
  cases f.message.iface cfg k with
  | none => rfl
  | some iface =>
    cases f.message.addr cfg with
    | none => rfl
    | some addr =>
      dsimp only
      split_ifs <;> rfl

/-- The header of a message. -/
theorem parseMessageFor_frame {f : Frame} {rest : List Frame} {type : ℕ}
    (hheader : nlmsgHdrLen ≤ f.length)
    (htype : u16 (f.tail ++ Frame.encodeAll rest) = some type) :
    parseMessageFor H cfg n k (f.encode ++ Frame.encodeAll rest) st =
      if type = nlmsgError then some (.inl .error)
      else if type = nlmsgOverrun then some (.inl .bufferTooSmall)
      else if type = nlmsgDone then some (.inl .done)
      else if type = rtmNewAddr || type = rtmDelAddr then
        (parseAddressFor H cfg n k (type = rtmNewAddr)
          ((f.encode ++ Frame.encodeAll rest).drop nlmsgHdrLen) st).map fun r => .inr (f.length, r)
      else some (.inr (f.length, st, false)) := by
  obtain ⟨hu32, halign, hlen, hdrop, -⟩ := f.read_encode (Frame.encodeAll rest)
  have hpos : 16 ≤ f.length := hheader
  rw [parseMessageFor, hu32, if_neg (by omega)]
  dsimp only
  rw [halign, if_neg (by omega), if_neg (by omega), hdrop, htype]

/-- **One round of the loop**: a message ends it, or it is handled, whatever messages follow. -/
theorem parseMessageFor_encode (m : Message) (rest : List Frame) :
    parseMessageFor H cfg n k (m.frame.encode ++ Frame.encodeAll rest) st =
      some (match m.ends, m with
        | some status, _ => .inl status
        | none, .address f => .inr (m.frame.length, handleFor H cfg n k f.message st)
        | none, .other _ => .inr (m.frame.length, st, false)) := by
  cases m with
  | address f =>
    have hheader : nlmsgHdrLen ≤ (Message.address f).frame.length := by
      have hlen : (Message.address f).frame.length = f.message.length := f.length_tail
      rw [hlen]
      exact Nat.le_trans (by decide) (Nat.le_add_right _ _)
    have htype : u16 ((Message.address f).frame.tail ++ Frame.encodeAll rest) =
        some f.message.type := by
      simp only [Message.frame, AddressFrame.tail, List.append_assoc]
      refine u16_le16_append ?_ _
      unfold AddressMessage.type
      split_ifs <;> decide
    rw [parseMessageFor_frame hheader htype]
    have haddr : parseAddressFor H cfg n k f.message.isNew _ st = _ :=
      parseAddressFor_frame f rest
    cases hnew : f.message.isNew with
    | false =>
      have ht : f.message.type = rtmDelAddr := by simp only [AddressMessage.type, hnew]; rfl
      rw [hnew] at haddr
      rw [ht, if_neg (by decide), if_neg (by decide), if_neg (by decide), if_pos (by decide)]
      rw [show decide (rtmDelAddr = rtmNewAddr) = false from rfl, haddr]
      rfl
    | true =>
      have ht : f.message.type = rtmNewAddr := by simp only [AddressMessage.type, hnew]; rfl
      rw [hnew] at haddr
      rw [ht, if_neg (by decide), if_neg (by decide), if_neg (by decide), if_pos (by decide)]
      rw [show decide (rtmNewAddr = rtmNewAddr) = true from rfl, haddr]
      rfl
  | other m =>
    have hheader : nlmsgHdrLen ≤ (Message.other m).frame.length := by
      have := m.header
      simp only [Message.frame, Frame.length, List.length_append, length_le16]
      omega
    have htype : u16 ((Message.other m).frame.tail ++ Frame.encodeAll rest) =
        some m.type.toNat := by
      simp only [Message.frame, List.append_assoc]
      exact u16_le16_append m.type.toNat_lt _
    have hother : ¬ (decide (m.type.toNat = rtmNewAddr) || decide (m.type.toNat = rtmDelAddr)) =
        true := by
      simp [m.ne_new, m.ne_del]
    rw [parseMessageFor_frame hheader htype, if_neg hother]
    simp only [Message.ends]
    split_ifs <;> rfl

end Round

end Netlink

end Wsddn
