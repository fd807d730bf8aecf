import Wsddn.Netlink.Message

/-!
# Interface selection (`InterfaceMonitorImpl::parseBuffer` and `Config::isAllowedInterface`)

The monitor reports addresses to a handler.  Which call a message is to lead to depends on the
message alone: on its flags, on the address and the name in it, on the configuration and on what the
system knows about the interface with its index.  The code does more than that: it looks for
attributes beyond the end of the message, and it keeps what it has learned about an interface for the
rest of the buffer.

* `MonitorConfig.Selects` : the selection of interfaces, as it is documented.
* `AddressMessage.call` : the rule for a message.
* `calls_parseBufferFor` : the calls are those of the rule, message by message.
-/

namespace Wsddn

namespace MonitorConfig

/-- **The interfaces to use**: without `--interface` and `--include-pattern` all that match no
`--exclude-pattern`; otherwise those that are named, and those that match an `--include-pattern` and
no `--exclude-pattern`. -/
def Selects (cfg : MonitorConfig) (name : SysString) : Prop :=
  if cfg.interfaceWhitelist.isEmpty ∧ cfg.interfacePatternsWhitelist.isEmpty then
    ∀ exp ∈ cfg.interfacePatternsBlacklist, exp name = false
  else
    name ∈ cfg.interfaceWhitelist ∨
      (∃ exp ∈ cfg.interfacePatternsWhitelist, exp name = true) ∧
        ∀ exp ∈ cfg.interfacePatternsBlacklist, exp name = false

instance (cfg : MonitorConfig) (name : SysString) : Decidable (cfg.Selects name) :=
  inferInstanceAs (Decidable (ite _ _ _))

/-- The code follows the documented rules. -/
theorem isAllowedInterface_iff {cfg : MonitorConfig} {name : SysString} :
    cfg.isAllowedInterface name = true ↔ cfg.Selects name := by
  unfold isAllowedInterface Selects
  by_cases hname : name ∈ cfg.interfaceWhitelist
  · have hne : cfg.interfaceWhitelist ≠ [] := List.ne_nil_of_mem hname
    simp [hname, hne]
  · by_cases hdefault : cfg.interfaceWhitelist = [] ∧ cfg.interfacePatternsWhitelist = []
    · simp [hdefault]
    · have hdefault' : (cfg.interfaceWhitelist.isEmpty &&
          cfg.interfacePatternsWhitelist.isEmpty) = false := by
        simpa [Bool.and_eq_false_iff, or_iff_not_imp_left] using hdefault
      simp [hname, hdefault, hdefault']

end MonitorConfig

namespace Netlink

open LittleEndian

/-! ### The rule -/

/-- What the system knows about the interfaces, by index. -/
structure Interfaces where
  nameOf : UInt32 → SysString
  flagsOf : UInt32 → UInt16

namespace Interfaces

/-- The interface is no loop-back interface and can do multicast. -/
def Usable (io : Interfaces) (index : UInt32) : Prop :=
  io.flagsOf index &&& iffLoopback = 0 ∧ io.flagsOf index &&& iffMulticast ≠ 0

instance (io : Interfaces) (index : UInt32) : Decidable (io.Usable index) :=
  inferInstanceAs (Decidable (_ ∧ _))

end Interfaces

namespace AddressMessage

variable (cfg : MonitorConfig) (io : Interfaces) (m : AddressMessage)

/-- The address in the message, if its family is enabled: the last `IFA_LOCAL` for IPv4, the last
link-local `IFA_ADDRESS` for IPv6. -/
def reportedAddress : Option IpAddress :=
  if m.family = afInet ∧ cfg.enableIPv4 = true then
    (m.attributes.filter fun a => a.type.toNat = ifaLocal && 4 ≤ a.data.length).getLast?.map
      fun a => .v4 (BitVec.ofNat 32 (ofBytes (a.data.take 4)))
  else if m.family = afInet6 ∧ cfg.enableIPv6 = true then
    (m.attributes.filter fun a =>
        a.type.toNat = ifaAddress && 16 ≤ a.data.length && isLinkLocal a.data).getLast?.map
      fun a => .v6 (BitVec.ofNat 128 (ofBytes (a.data.take 16))) m.index
  else none

/-- The name of the interface. -/
def ifName : SysString := m.label.getD (io.nameOf m.index)

/-- The interface and the address that the message reports. -/
def reports : Option (NetworkInterface × IpAddress) :=
  if m.flags &&& unusableFlags ≠ 0 then none
  else
    match m.reportedAddress cfg with
    | none => none
    | some addr =>
      if cfg.Selects (m.ifName io) then some (⟨m.ifName io, m.ifIndex⟩, addr) else none

/-- **The rule**: the call that the message leads to. -/
def call : Option Call :=
  match m.reports cfg io with
  | none => none
  | some (iface, addr) =>
    if m.isNew then
      if io.Usable m.index then some (.addAddress iface addr) else none
    else some (.removeAddress iface addr)

variable {cfg io m} {k : Answers}

/-- The last one wins. -/
theorem foldl_last {α β : Type*} (p : α → Bool) (g : α → β) (l : List α) (acc : Option β) :
    l.foldl (fun acc a => if p a then some (g a) else acc) acc =
      ((l.filter p).getLast?.map g).or acc := by
  induction l generalizing acc with
  | nil => rfl
  | cons a l ih =>
    rw [List.foldl_cons, ih]
    by_cases ha : p a = true
    · rw [if_pos ha, List.filter_cons_of_pos ha]
      cases hl : l.filter p with
      | nil => rfl
      | cons b bs => simp [List.getLast?_cons]
    · rw [if_neg ha, List.filter_cons_of_neg ha]

/-- The address after an attribute. -/
theorem rtAttribute_addr_eq (i : ℕ) (f : UInt8) (res : RtParseResult) (type : ℕ)
    (data : List UInt8) :
    (rtAttribute cfg i f res type data).addr =
      if f = afInet ∧ cfg.enableIPv4 = true ∧ type = ifaLocal ∧ 4 ≤ data.length then
        some (.v4 (BitVec.ofNat 32 (ofBytes (data.take 4))))
      else if f = afInet6 ∧ cfg.enableIPv6 = true ∧ type = ifaAddress ∧ 16 ≤ data.length ∧
          isLinkLocal data = true then
        some (.v6 (BitVec.ofNat 128 (ofBytes (data.take 16))) (UInt32.ofNat i))
      else res.addr := by
  unfold rtAttribute
  by_cases hlabel : type = ifaLabel
  · have hlocal : type ≠ ifaLocal := hlabel ▸ by decide
    have haddress : type ≠ ifaAddress := hlabel ▸ by decide
    rw [if_pos hlabel]
    simp only [eq_false hlocal, eq_false haddress, false_and, and_false, if_false]
  · rw [if_neg hlabel]
    by_cases hlocal : type = ifaLocal
    · have haddress : type ≠ ifaAddress := hlocal ▸ by decide
      rw [if_pos hlocal]
      simp only [eq_true hlocal, eq_false haddress, true_and, false_and, and_false, if_false,
        Bool.and_eq_true, decide_eq_true_eq, and_assoc]
      split_ifs <;> rfl
    · rw [if_neg hlocal]
      by_cases haddress : type = ifaAddress
      · rw [if_pos haddress]
        simp only [eq_true haddress, eq_false hlocal, true_and, false_and, and_false, if_false,
          Bool.and_eq_true, decide_eq_true_eq, and_assoc]
        split_ifs <;> rfl
      · rw [if_neg haddress]
        simp only [eq_false hlocal, eq_false haddress, false_and, and_false, if_false]

theorem addr_eq_reportedAddress : m.addr cfg = m.reportedAddress cfg := by
  have hlast : ∀ (p : Attribute → Bool) (g : Attribute → IpAddress),
      (∀ res a, (rtAttribute cfg m.index.toNat m.family res a.type.toNat a.data).addr =
        if p a then some (g a) else res.addr) →
      m.addr cfg = (m.attributes.filter p).getLast?.map g := by
    intro p g hstep
    refine Eq.trans ?_ ((foldl_last p g m.attributes none).trans Option.or_none)
    show (m.attributes.foldl _ ({} : RtParseResult)).addr =
      m.attributes.foldl _ ({} : RtParseResult).addr
    exact (List.foldl_hom RtParseResult.addr fun res a => (hstep res a).symm).symm
  have hne : afInet ≠ afInet6 := by decide
  unfold reportedAddress
  split_ifs with h4 h6
  · refine hlast _ _ fun res a => ?_
    rw [rtAttribute_addr_eq]
    simp only [h4, hne, true_and, false_and, if_false, Bool.and_eq_true, decide_eq_true_eq]
  · refine hlast _ _ fun res a => ?_
    rw [rtAttribute_addr_eq]
    simp only [h6, hne.symm, true_and, false_and, if_false, UInt32.ofNat_toNat, Bool.and_eq_true,
      decide_eq_true_eq, and_assoc]
  · rw [hlast (fun _ => false) (fun _ => .v4 0) fun res a => ?_]
    · simp
    · rw [rtAttribute_addr_eq, if_neg fun h => h4 ⟨h.1, h.2.1⟩, if_neg fun h => h6 ⟨h.1, h.2.1⟩]
      rfl

/-- What the code detects. -/
theorem detected_eq_reports (hk : k.name = some (io.nameOf m.index)) :
    m.detected cfg k = m.reports cfg io := by
  have hname : m.label.or k.name = some (m.ifName io) := by
    rw [hk, ifName]
    cases m.label <;> rfl
  refine Option.ext fun ⟨iface, a⟩ => ?_
  rw [detected_eq_some_iff, hname, addr_eq_reportedAddress, MonitorConfig.isAllowedInterface_iff,
    reports]
  obtain ⟨name, index⟩ := iface
  cases m.reportedAddress cfg with
  | none => split_ifs <;> simp
  | some a' =>
    dsimp only
    split_ifs with hflags hsel
    · simp [hflags]
    · simp only [not_not] at hflags
      simp only [hflags, Option.some.injEq, Prod.mk.injEq, NetworkInterface.mk.injEq, true_and]
      constructor
      · rintro ⟨rfl, rfl, rfl, -⟩
        exact ⟨⟨rfl, rfl⟩, rfl⟩
      · rintro ⟨⟨rfl, rfl⟩, rfl⟩
        exact ⟨rfl, rfl, rfl, hsel⟩
    · simp only [Option.some.injEq, iff_false]
      rintro ⟨-, -, rfl, -, h⟩
      exact hsel h

end AddressMessage

/-! ### Buffers of messages -/

namespace Message

/-- The call that a message leads to. -/
def call (cfg : MonitorConfig) (io : Interfaces) : Message → Option Call
  | .address f => f.message.call cfg io
  | .other _ => none

/-- The calls for some messages, with their numbers. -/
def calls (cfg : MonitorConfig) (io : Interfaces) : ℕ → List Message → List (ℕ × Call)
  | _, [] => []
  | n, m :: ms =>
    match m.ends with
    | some _ => []
    | none => ((m.call cfg io).map fun c => (n, c)).toList ++ calls cfg io (n + 1) ms

/-- **The rule applied to each message**, up to the one that ends the loop. -/
theorem calls_map_snd (cfg : MonitorConfig) (io : Interfaces) (n : ℕ) (ms : List Message) :
    (calls cfg io n ms).map Prod.snd =
      (ms.takeWhile fun m => m.ends.isNone).filterMap (call cfg io) := by
  induction ms generalizing n with
  | nil => rfl
  | cons m ms ih =>
    rw [calls]
    cases hends : m.ends with
    | some status =>
      rw [List.takeWhile_cons_of_neg (by simp [hends])]
      rfl
    | none =>
      rw [List.takeWhile_cons_of_pos (by simp [hends]), List.filterMap_cons, List.map_append, ih]
      cases m.call cfg io <;> rfl

end Message

/-- The answers of the system agree with what it knows about the interfaces: `k n` are the answers
for the message number `n`. -/
def Answering (io : Interfaces) (k : ℕ → Answers) (n : ℕ) (ms : List Message) : Prop :=
  ∀ i f, ms[i]? = some (.address f) →
    (k (n + i)).name = some (io.nameOf f.message.index) ∧
      (k (n + i)).flags = some (io.flagsOf f.message.index)

/-- The calls are made one after the other, until an exception leaves one. -/
def Handler.performAll {σ : Type*} (H : Handler σ) : List (ℕ × Call) → σ → List Call × σ
  | [], s => ([], s)
  | (n, c) :: cs, s =>
    if (H.perform n c s).2 then ([c], (H.perform n c s).1)
    else
      (c :: (H.performAll cs (H.perform n c s).1).1, (H.performAll cs (H.perform n c s).1).2)

theorem Handler.performAll_of_quiet {σ : Type*} (H : Handler σ)
    (h : ∀ n c s, (H.perform n c s).2 = false) (cs : List (ℕ × Call)) (s : σ) :
    (H.performAll cs s).1 = cs.map Prod.snd := by
  induction cs generalizing s with
  | nil => rfl
  | cons c cs ih =>
    obtain ⟨n, c⟩ := c
    rw [performAll, h, if_neg Bool.false_ne_true, ih, List.map_cons]

section Calls

variable {σ : Type*} {H : Handler σ} {cfg : MonitorConfig} {io : Interfaces} {n : ℕ}
  {st : Monitored σ}

/-! ### What is known about the interfaces -/

variable (io) in
/-- What was noted about an interface is what the system knows. -/
def CacheAgrees (known : List (Int × Bool)) : Prop :=
  ∀ (index : UInt32) (ignore : Bool),
    known.lookup (toInt32 index.toNat) = some ignore → ignore = !decide (io.Usable index)

theorem toInt32_inj {i j : UInt32} (h : toInt32 i.toNat = toInt32 j.toNat) : i = j := by
  have hi := i.toNat_lt
  have hj := j.toNat_lt
  refine UInt32.toNat_inj.1 ?_
  unfold toInt32 at h
  split_ifs at h <;> omega

theorem CacheAgrees.cons {known : List (Int × Bool)} (h : CacheAgrees io known) (index : UInt32) :
    CacheAgrees io ((toInt32 index.toNat, !decide (io.Usable index)) :: known) := by
  intro index' ignore hl
  rw [List.lookup_cons] at hl
  split at hl
  · rename_i he
    obtain rfl := toInt32_inj (eq_of_beq he)
    exact (Option.some.inj hl).symm
  · exact h index' ignore hl

variable (H) in
/-- The call of the rule, if there is one. -/
def Monitored.performCall (n : ℕ) (c : Option Call) (st : Monitored σ) : Monitored σ × Bool :=
  match c with
  | none => (st, false)
  | some c => st.perform H n c

theorem ignore_eq (index : UInt32) :
    (decide (io.flagsOf index &&& iffLoopback ≠ 0) ||
      decide (io.flagsOf index &&& iffMulticast = 0)) = !decide (io.Usable index) := by
  unfold Interfaces.Usable
  by_cases hl : io.flagsOf index &&& iffLoopback = 0 <;>
    by_cases hm : io.flagsOf index &&& iffMulticast = 0 <;> simp [hl, hm]

/-- **An address message is handled by the rule**, and what is noted about its interface is
right. -/
theorem handleFor_eq {k : Answers} {m : AddressMessage}
    (hname : k.name = some (io.nameOf m.index)) (hflags : k.flags = some (io.flagsOf m.index))
    (hcache : CacheAgrees io st.knownIfaces) :
    ∃ known, CacheAgrees io known ∧ handleFor H cfg n k m st =
      ({ st with knownIfaces := known } : Monitored σ).performCall H n (m.call cfg io) := by
  unfold handleFor AddressMessage.call
  rw [AddressMessage.detected_eq_reports hname]
  cases hrep : m.reports cfg io with
  | none => exact ⟨_, hcache, rfl⟩
  | some r =>
    obtain ⟨iface, addr⟩ := r
    have hdetected := (AddressMessage.detected_eq_reports hname).trans hrep
    have hindex : iface.index = toInt32 m.index.toNat :=
      (AddressMessage.detected_eq_some_iff.1 hdetected).2.2.2.1
    dsimp only
    unfold handleDetectedFor
    cases m.isNew with
    | false => exact ⟨_, hcache, rfl⟩
    | true =>
      rw [if_pos rfl, if_pos rfl, hindex]
      cases hl : st.knownIfaces.lookup (toInt32 m.index.toNat) with
      | some ignore =>
        obtain rfl := hcache _ _ hl
        refine ⟨st.knownIfaces, hcache, ?_⟩
        by_cases hu : io.Usable m.index
        · simp [hu, Monitored.performCall]
        · simp [hu, Monitored.performCall]
      | none =>
        rw [hflags]
        dsimp only
        rw [ignore_eq]
        refine ⟨_, hcache.cons m.index, ?_⟩
        by_cases hu : io.Usable m.index
        · simp [hu, Monitored.performCall]
        · simp [hu, Monitored.performCall]

/-! ### All messages -/

theorem Answering.tail {k : ℕ → Answers} {m : Message} {ms : List Message}
    (h : Answering io k n (m :: ms)) : Answering io k (n + 1) ms := by
  intro i f hi
  have := h (i + 1) f (by simpa using hi)
  rwa [Nat.add_right_comm, Nat.add_assoc]

/-- A message that does not end the loop leads to the call of the rule. -/
theorem parseMessageFor_call {k : ℕ → Answers} {m : Message} {ms : List Message}
    (hm : m.ends = none) (hk : Answering io k n (m :: ms))
    (hcache : CacheAgrees io st.knownIfaces) (rest : List Frame) :
    ∃ known, CacheAgrees io known ∧
      parseMessageFor H cfg n (k n) (m.frame.encode ++ Frame.encodeAll rest) st =
        some (.inr (m.frame.length,
          ({ st with knownIfaces := known } : Monitored σ).performCall H n (m.call cfg io))) := by
  cases m with
  | address f =>
    obtain ⟨hname, hflags⟩ := hk 0 f rfl
    obtain ⟨known, hknown, h⟩ := handleFor_eq (H := H) (n := n) hname hflags hcache
    refine ⟨known, hknown, (parseMessageFor_encode (.address f) rest).trans ?_⟩
    rw [hm]
    exact congrArg _ (congrArg _ (congrArg _ h))
  | other m =>
    refine ⟨st.knownIfaces, hcache, (parseMessageFor_encode (.other m) rest).trans ?_⟩
    rw [hm]
    rfl

theorem parseLoopFor_encode {k : ℕ → Answers} {ms : List Message} {fuel : ℕ} (st : Monitored σ)
    (hfuel : (Message.encodeAll ms).length < fuel) (hk : Answering io k n ms)
    (hcache : CacheAgrees io st.knownIfaces) :
    ∃ status st', parseLoopFor H cfg k fuel n (Message.encodeAll ms) st = some (status, st') ∧
      (st'.calls, st'.handler) =
        (st.calls ++ (H.performAll (Message.calls cfg io n ms) st.handler).1,
          (H.performAll (Message.calls cfg io n ms) st.handler).2) := by
  induction ms generalizing fuel n st with
  | nil =>
    obtain ⟨fuel, rfl⟩ : ∃ f, fuel = f + 1 := ⟨fuel - 1, by omega⟩
    exact ⟨_, st, rfl, by simp [Message.calls, Handler.performAll]⟩
  | cons m ms ih =>
    obtain ⟨fuel, rfl⟩ : ∃ f, fuel = f + 1 := ⟨fuel - 1, by omega⟩
    have hbytes : Message.encodeAll (m :: ms) = m.frame.encode ++ Message.encodeAll ms :=
      List.flatMap_cons
    have hlen : (Message.encodeAll (m :: ms)).length =
        m.frame.length + (Message.encodeAll ms).length := by
      rw [hbytes, List.length_append, Frame.length_encode]
    have hpos : 4 ≤ m.frame.length := Nat.le_add_right _ _
    have hne : Message.encodeAll (m :: ms) ≠ [] := List.ne_nil_of_length_pos (by omega)
    have hdrop : (Message.encodeAll (m :: ms)).drop m.frame.length = Message.encodeAll ms := by
      rw [hbytes]
      exact (m.frame.read_encode _).2.2.2.2
    rw [parseLoopFor, if_neg hne, Message.calls]
    cases hends : m.ends with
    | some status =>
      have hround : parseMessageFor H cfg n (k n) (Message.encodeAll (m :: ms)) st =
          some (.inl status) := by
        rw [hbytes]
        refine (parseMessageFor_encode m (ms.map Message.frame)).trans ?_
        rw [hends]
      rw [hround]
      exact ⟨_, st, rfl, by simp [Handler.performAll]⟩
    | none =>
      obtain ⟨known, hknown, hround⟩ := parseMessageFor_call (H := H) hends hk hcache
        (ms.map Message.frame)
      replace hround : parseMessageFor H cfg n (k n) (Message.encodeAll (m :: ms)) st = _ :=
        (congrArg (parseMessageFor H cfg n (k n) · st) hbytes).trans hround
      cases hc : m.call cfg io with
      | none =>
        rw [hc] at hround
        rw [hround]
        dsimp only [Monitored.performCall]
        rw [hdrop]
        exact ih _ (by omega) hk.tail hknown
      | some c =>
        have hcall : ({ st with knownIfaces := known } : Monitored σ).performCall H n (some c) =
            (⟨(H.perform n c st.handler).1, known, st.calls ++ [c]⟩,
              (H.perform n c st.handler).2) := rfl
        rw [hc, hcall] at hround
        rw [hround]
        dsimp only [Option.map_some, Option.toList_some]
        rw [hdrop, List.singleton_append, Handler.performAll]
        by_cases hr : (H.perform n c st.handler).2 = true
        · rw [if_pos hr, if_pos hr]
          exact ⟨_, _, rfl, rfl⟩
        · rw [if_neg hr, if_neg hr]
          have hlt : (Message.encodeAll ms).length < fuel := by omega
          obtain ⟨status, st', hloop, hst'⟩ :=
            ih ⟨(H.perform n c st.handler).1, known, st.calls ++ [c]⟩ hlt hk.tail hknown
          refine ⟨status, st', hloop, hst'.trans ?_⟩
          simp

/-- **Interface selection.**  From a buffer of well-formed messages, whatever it is that the handler
does, the monitor makes the calls that the rule gives for each message by itself, in the order of
the messages up to one that ends the loop; an exception that leaves a call is the only other thing
that ends it. -/
theorem calls_parseBufferFor (cfg : MonitorConfig) (io : Interfaces) (H : Handler σ)
    (k : ℕ → Answers) (ms : List Message) (hk : Answering io k 0 ms) (handler : σ) :
    ∃ status st, parseBufferFor H cfg k (Message.encodeAll ms) handler = some (status, st) ∧
      st.calls = (H.performAll (Message.calls cfg io 0 ms) handler).1 ∧
      ((∀ n c s, (H.perform n c s).2 = false) →
        st.calls = (ms.takeWhile fun m => m.ends.isNone).filterMap (Message.call cfg io)) := by
  have hcache : CacheAgrees io ({ handler } : Monitored σ).knownIfaces :=
    fun _ _ h => by cases h
  obtain ⟨status, st, hrun, hst⟩ :=
    parseLoopFor_encode { handler } (Nat.lt_succ_self _) hk hcache
  have hcalls : st.calls = (H.performAll (Message.calls cfg io 0 ms) handler).1 :=
    congrArg Prod.fst hst
  refine ⟨status, st, hrun, hcalls, fun hquiet => ?_⟩
  rw [hcalls, H.performAll_of_quiet hquiet, Message.calls_map_snd]

end Calls

/-- The address 10.0.0.1 of the interface with the index 2, with something behind the label. -/
def labelledFrame : AddressFrame where
  message := {
    isNew := true
    family := afInet
    flags := 0
    index := 2
    attributes := [⟨2, [10, 0, 0, 1]⟩, ⟨3, SysString.ofLiteral "eth0" ++ [0]⟩]
    fits := by decide }
  padded := [⟨⟨2, [10, 0, 0, 1]⟩, [], by decide⟩,
    ⟨⟨3, SysString.ofLiteral "eth0" ++ [0]⟩, [1, 2, 3], by decide⟩]
  padded_attr := rfl

/-- `NLMSG_DONE`, with its status. -/
def doneMessage : OtherMessage where
  type := 3
  rest := List.replicate 14 0
  ne_new := by decide
  ne_del := by decide
  aligned := by decide
  header := by decide
  fits := by decide

/-- A system in which all interfaces take multicasts. -/
def multicasting : Interfaces where
  nameOf _ := SysString.ofLiteral "eth1"
  flagsOf _ := 0x1043

/-- One call, for the message before the end. -/
theorem calls_labelledFrame :
    ∃ status st, parseBufferFor (⟨fun _ _ s => (s, false)⟩ : Handler Unit) {}
        (fun _ => ⟨some (SysString.ofLiteral "eth1"), some 0x1043, .started⟩)
        (Message.encodeAll [.address labelledFrame, .other doneMessage, .address labelledFrame])
        () = some (status, st) ∧
      st.calls = [.addAddress ⟨SysString.ofLiteral "eth0", 2⟩ (.v4 0x0A000001#32)] := by
  obtain ⟨status, st, hrun, -, hcalls⟩ :=
    calls_parseBufferFor {} multicasting (⟨fun _ _ s => (s, false)⟩ : Handler Unit)
      (fun _ => ⟨some (SysString.ofLiteral "eth1"), some 0x1043, .started⟩)
      [.address labelledFrame, .other doneMessage, .address labelledFrame]
      (fun _ _ _ => ⟨rfl, rfl⟩) ()
  exact ⟨status, st, hrun, (hcalls fun _ _ _ => rfl).trans (by decide +kernel)⟩

end Netlink

end Wsddn
