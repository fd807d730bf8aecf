import Wsddn.Machine.Basic
import Wsddn.Netlink.OwnBytes
import Wsddn.Route.Bounds
import Wsddn.Stream.SelfDelimiting

/-!
# The route socket at work (`InterfaceMonitorImpl` of `interface_monitor_bsd.cpp`)

What is received is put behind what the last receive has left, and `parseTable` goes through both.
The beginning of a message that is not complete is copied to the front of the buffer.

* `Said`, `rule` : what a message says, and the call that follows from it.
* `parseLoop_messages` : `parseTable` on messages and the beginning of another one.
* `RouteMonitor.parse_isSome_iff` : the loops of `parseTable` are never cut short by their bounds.
* `RouteMonitor.step` : what happens when a receive is completed, and when the monitor is stopped.
* `RouteMonitor.framed` : **how the stream is cut does not matter**, as long as the interfaces are what
  they are.
* `RouteMonitor.deaf` : a message that is longer than the buffer is the last one.
-/

namespace Wsddn

namespace Route

open Reading LittleEndian

/-! ### What a message says -/

/-- What is looked at in a message. -/
structure Said where
  type : UInt8
  interfaceFlags : ℕ
  result : ParseResult
  deriving DecidableEq, Repr

/-- The bytes in a memory. -/
def memory (bytes : List UInt8) (p : ℕ) : UInt8 := bytes.getD p 0

section Message

variable (L : Layout) (cfg : MonitorConfig)

/-- `parseMessage` without what is done then; `none` for a message of another type. -/
def readMessage (rounds first addrLast : ℕ) : Reading (Option Said) := do
  let type ← byte (first + 3)
  if type = L.rtmNewAddr || type = L.rtmDelAddr then do
    let entryMask ← word32 (first + L.ifamAddrs)
    let result ← parseAddresses L cfg rounds (first + L.ifaMsghdr) addrLast entryMask
    pure (some ⟨type, 0, result⟩)
  else if type = L.rtmIfInfo then do
    let entryMask ← word32 (first + L.ifmAddrs)
    let interfaceFlags ← word32 (first + L.ifmFlags)
    let result ← parseAddresses L cfg rounds (first + L.ifMsghdr) addrLast entryMask
    pure (some ⟨type, interfaceFlags, result⟩)
  else pure none

/-- What is done with what a message says. -/
def handle (getFlags : SysString → Option ℕ) (sequential : Bool) (said : Option Said)
    (seen : Seen) : Seen :=
  match said with
  | none => seen
  | some said =>
    handleResult L cfg getFlags sequential said.type said.interfaceFlags said.result seen

/-- A message by itself: its length is its own, and nothing behind it is looked at. -/
structure IsMessage (bytes : List UInt8) : Prop where
  length : u16 bytes = some bytes.length
  fits : MessageFits L cfg (memory bytes) bytes.length 0 bytes.length

/-- What a message says. -/
def said (bytes : List UInt8) : Option Said :=
  ((readMessage L cfg 32 0 bytes.length).inside 0 bytes.length (memory bytes)).join

/-- The call for what a message says. -/
def rule (unusable : Int → Bool) (said : Said) : List Netlink.Call :=
  match said.result.iface, said.result.addr with
  | some iface, some addr =>
    if !cfg.isAllowedInterface iface.name then []
    else if said.type = L.rtmDelAddr then [.removeAddress iface addr]
    else if unusable iface.index then []
    else [.addAddress iface addr]
  | _, _ => []

/-- The calls for some messages. -/
def callsOf (unusable : Int → Bool) (ms : List (List UInt8)) : List Netlink.Call :=
  ms.flatMap fun bytes => ((said L cfg bytes).map (rule L cfg unusable)).getD []

/-- The system and the message agree on which interfaces cannot be used. -/
def Consistent (unusable : Int → Bool) (getFlags : SysString → Option ℕ) (said : Said) : Prop :=
  ∀ iface ∈ said.result.iface,
    (said.type = L.rtmIfInfo → isUnusableInterface said.interfaceFlags = unusable iface.index) ∧
      ∃ flags, getFlags iface.name = some flags ∧
        isUnusableInterface flags = unusable iface.index

end Message

section Reads

variable {L : Layout} {cfg : MonitorConfig} {m : ℕ → UInt8} {lo hi d first addrLast rounds : ℕ}
  {getFlags : SysString → Option ℕ} {sequential : Bool} {seen : Seen}

theorem inside_parseMessage :
    (parseMessage L cfg getFlags sequential rounds first addrLast seen).inside lo hi m =
      ((readMessage L cfg rounds first addrLast).inside lo hi m).map fun said =>
        handle L cfg getFlags sequential said seen := by
  simp only [parseMessage, readMessage, inside_bind, inside_ite, inside_pure]
  cases (byte (first + 3)).inside lo hi m with
  | none => rfl
  | some type =>
    simp only [Option.bind_some]
    split_ifs
    · cases (word32 (first + L.ifamAddrs)).inside lo hi m with
      | none => rfl
      | some entryMask =>
        simp only [Option.bind_some]
        cases (parseAddresses L cfg rounds (first + L.ifaMsghdr) addrLast entryMask).inside lo hi m
          with
        | none => rfl
        | some result => rfl
    · cases (word32 (first + L.ifmAddrs)).inside lo hi m with
      | none => rfl
      | some entryMask =>
        cases (word32 (first + L.ifmFlags)).inside lo hi m with
        | none => rfl
        | some interfaceFlags =>
          simp only [Option.bind_some]
          cases (parseAddresses L cfg rounds (first + L.ifMsghdr) addrLast entryMask).inside lo hi m
            with
          | none => rfl
          | some result => rfl
    · rfl

theorem distance_add (first last d : ℕ) :
    distance (first + d) (last + d) = distance first last := by
  simp only [distance, Nat.add_le_add_iff_right, Nat.add_sub_add_right]

theorem moved_alignedRtMessageLength (sa : ℕ) :
    (alignedRtMessageLength L sa).moved d = alignedRtMessageLength L (sa + d) := by
  simp only [alignedRtMessageLength, moved_bind, moved_byte, moved_pure]

theorem moved_parseEntry (entryBit addr : ℕ) (result : ParseResult) :
    (parseEntry L cfg entryBit addr result).moved d =
      parseEntry L cfg entryBit (addr + d) result := by
  simp only [parseEntry, makeAddress4, makeAddress6, moved_ite, moved_bind, moved_byte,
    moved_word16, moved_word32, moved_bytes, moved_pure, Nat.add_right_comm addr d]

theorem moved_parseEntries (last entryMask : ℕ) (entryBit : ℕ) (result : ParseResult) :
    (parseEntries L cfg last entryMask rounds entryBit first result).moved d =
      parseEntries L cfg (last + d) entryMask rounds entryBit (first + d) result := by
  induction rounds generalizing entryBit first result with
  | zero => rfl
  | succ rounds ih =>
    simp only [parseEntries, moved_ite, moved_bind, moved_parseEntry, moved_alignedRtMessageLength,
      moved_pure, ih, Nat.add_right_comm first d, distance_add]

theorem moved_readMessage :
    (readMessage L cfg rounds first addrLast).moved d =
      readMessage L cfg rounds (first + d) (addrLast + d) := by
  simp only [readMessage, parseAddresses, moved_bind, moved_ite, moved_byte, moved_word32,
    moved_pure, moved_parseEntries, Nat.add_right_comm first d, distance_add]

theorem readMessage_le {rounds' : ℕ} (h : rounds ≤ rounds') :
    Le (readMessage L cfg rounds first addrLast) (readMessage L cfg rounds' first addrLast) := by
  have haddresses : ∀ start entryMask, Le (parseAddresses L cfg rounds start addrLast entryMask)
      (parseAddresses L cfg rounds' start addrLast entryMask) :=
    fun _ _ => ite_le (parseEntries_le h _ _ _) (.refl _)
  refine bind_le (.refl _) fun _ => ite_le (bind_le (.refl _) fun _ => ?_) (ite_le ?_ (.refl _))
  · exact bind_le (haddresses _ _) fun _ => .refl _
  · refine bind_le (.refl _) fun _ => bind_le (.refl _) fun _ => ?_
    exact bind_le (haddresses _ _) fun _ => .refl _

variable {bytes rest : List UInt8} {p : ℕ}

theorem IsMessage.four_le (h : IsMessage L cfg bytes) : 4 ≤ bytes.length :=
  (Nat.zero_add 4).symm.le.trans h.fits.1

theorem IsMessage.inside_readMessage (h : IsMessage L cfg bytes) :
    (readMessage L cfg 32 0 bytes.length).inside 0 bytes.length (memory bytes) =
      some (said L cfg bytes) := by
  have hends : Ends 0 bytes.length (memory bytes)
      (parseMessage L cfg (fun _ => none) false 32 0 bytes.length {}) :=
    (ends_parseMessage_iff _ _ _ (by decide) le_rfl).2 h.fits
  obtain ⟨seen, hseen⟩ := hends
  rw [inside_parseMessage, Option.map_eq_some_iff] at hseen
  obtain ⟨found, hfound, -⟩ := hseen
  rw [said, hfound]
  rfl

/-- **A message says the same wherever it is.** -/
theorem IsMessage.inside_at (h : IsMessage L cfg bytes) (hrounds : 32 ≤ rounds)
    (hw : Window lo hi m p (bytes ++ rest)) :
    (readMessage L cfg rounds p (p + bytes.length)).inside lo hi m = some (said L cfg bytes) := by
  have hupper := hw.upper
  rw [List.length_append] at hupper
  have hmoved : (readMessage L cfg 32 (0 + p) (bytes.length + p)).inside (0 + p) (bytes.length + p)
      m = some (said L cfg bytes) := by
    rw [← moved_readMessage, inside_moved, ← h.inside_readMessage]
    refine inside_congr (fun q _ hq => ?_) _
    have hlt : q < (bytes ++ rest).length := by
      rw [List.length_append]
      omega
    rw [Nat.add_comm q p, hw.get q hlt, List.getElem_append_left hq, memory,
      List.getD_eq_getElem _ _ hq]
  rw [Nat.zero_add, Nat.add_comm bytes.length p] at hmoved
  exact readMessage_le hrounds _ _ _ _ (inside_of_inside hmoved hw.lower (by omega))

/-- What is known of the interfaces is right. -/
def KnownAgrees (unusable : Int → Bool) (known : List (Int × Bool)) : Prop :=
  ∀ i b, known.lookup i = some b → b = unusable i

variable {unusable : Int → Bool}

theorem KnownAgrees.cons {known : List (Int × Bool)} {i : Int} {b : Bool}
    (h : KnownAgrees unusable known) (hb : b = unusable i) :
    KnownAgrees unusable ((i, b) :: known) := by
  intro j c hc
  rw [List.lookup_cons] at hc
  split at hc
  · rename_i heq
    rw [eq_of_beq heq, ← hb]
    exact (Option.some.inj hc).symm
  · exact h j c hc

variable (L) in
/-- What is known of the interface when a message has been looked at. -/
def remember (getFlags : SysString → Option ℕ) (type : UInt8) (interfaceFlags : ℕ)
    (iface : NetworkInterface) (seen : Seen) : Seen :=
  if type = L.rtmIfInfo then
    { seen with
      knownIfaces := (iface.index, isUnusableInterface interfaceFlags) :: seen.knownIfaces }
  else
    match seen.knownIfaces.lookup iface.index, getFlags iface.name with
    | none, some flags =>
      { seen with knownIfaces := (iface.index, isUnusableInterface flags) :: seen.knownIfaces }
    | _, _ => seen

theorem handleResult_some (type : UInt8) (interfaceFlags : ℕ) (addr : Option IpAddress)
    (iface : NetworkInterface) :
    handleResult L cfg getFlags false type interfaceFlags ⟨addr, some iface⟩ seen =
      if !cfg.isAllowedInterface iface.name then seen
      else
        match addr with
        | none => remember L getFlags type interfaceFlags iface seen
        | some addr => handleDetected (type ≠ L.rtmDelAddr) iface addr
            (remember L getFlags type interfaceFlags iface seen) := rfl

theorem remember_spec {type : UInt8} {interfaceFlags : ℕ} {iface : NetworkInterface} {flags : ℕ}
    (hown : type = L.rtmIfInfo → isUnusableInterface interfaceFlags = unusable iface.index)
    (hflags : getFlags iface.name = some flags)
    (hsystem : isUnusableInterface flags = unusable iface.index)
    (hknown : KnownAgrees unusable seen.knownIfaces) :
    (remember L getFlags type interfaceFlags iface seen).calls = seen.calls ∧
      KnownAgrees unusable (remember L getFlags type interfaceFlags iface seen).knownIfaces ∧
      (remember L getFlags type interfaceFlags iface seen).knownIfaces.lookup iface.index =
        some (unusable iface.index) := by
  unfold remember
  split_ifs with htype
  · exact ⟨rfl, hknown.cons (hown htype), by rw [List.lookup_cons_self, hown htype]⟩
  · cases hlookup : seen.knownIfaces.lookup iface.index with
    | none =>
      rw [hflags]
      exact ⟨rfl, hknown.cons hsystem, by rw [List.lookup_cons_self, hsystem]⟩
    | some b =>
      exact ⟨rfl, hknown, by rw [hlookup, hknown _ _ hlookup]⟩

/-- The call follows from what the message says, whatever was known before. -/
theorem handle_rule {said : Option Said} (hsaid : ∀ s ∈ said, Consistent L unusable getFlags s)
    (hknown : KnownAgrees unusable seen.knownIfaces) :
    (handle L cfg getFlags false said seen).calls =
        seen.calls ++ (said.map (rule L cfg unusable)).getD [] ∧
      KnownAgrees unusable (handle L cfg getFlags false said seen).knownIfaces := by
  cases said with
  | none => exact ⟨(List.append_nil _).symm, hknown⟩
  | some said =>
    obtain ⟨type, interfaceFlags, addr, iface⟩ := said
    cases iface with
    | none => exact ⟨(List.append_nil _).symm, hknown⟩
    | some iface =>
      obtain ⟨hown, flags, hflags, hsystem⟩ := hsaid _ rfl iface rfl
      obtain ⟨hcalls, hagrees, hlookup⟩ :
          (remember L getFlags type interfaceFlags iface seen).calls = seen.calls ∧ _ :=
        remember_spec hown hflags hsystem hknown
      rw [handle, handleResult_some, Option.map_some, Option.getD_some]
      cases addr with
      | none =>
        split_ifs
        · exact ⟨(List.append_nil _).symm, hknown⟩
        · exact ⟨hcalls.trans (List.append_nil _).symm, hagrees⟩
      | some addr =>
        unfold rule handleDetected
        dsimp only
        rw [hlookup]
        by_cases hallowed : cfg.isAllowedInterface iface.name = true
        · by_cases htype : type = L.rtmDelAddr
          · subst htype
            simp [hallowed, hcalls, hagrees]
          · cases unusable iface.index <;> simp [hallowed, htype, hcalls, hagrees]
        · simp [hallowed, hknown]

/-! ### Messages one after the other -/

/-- The beginning of a message, or nothing. -/
def Incomplete (rest : List UInt8) : Prop :=
  rest.length ≤ msglenSize ∨ ∃ length, u16 rest = some length ∧ rest.length < length

/-- A part of a message at its beginning. -/
theorem IsMessage.incomplete (h : IsMessage L cfg bytes) (hrest : rest <+: bytes)
    (hlt : rest.length < bytes.length) : Incomplete rest := by
  obtain ⟨later, rfl⟩ := hrest
  by_cases htwo : rest.length ≤ msglenSize
  · exact .inl htwo
  · refine .inr ⟨(rest ++ later).length, ?_, hlt⟩
    rw [← h.length]
    exact (Netlink.u16_append (Nat.le_of_lt (Nat.lt_of_not_le htwo))).symm

variable {fuel n : ℕ} {flagsOf : ℕ → SysString → Option ℕ}

/-- The loop ends in front of a message that is not complete. -/
theorem parseLoop_incomplete (hw : Window lo hi m p rest) (hrest : Incomplete rest) :
    (parseLoop L cfg flagsOf sequential hi rounds (fuel + 1) n p seen).inside lo hi m =
      some (p, seen) := by
  have hupper := hw.upper
  have hdistance : distance p hi = rest.length := by
    rw [distance_of_le (by omega)]
    omega
  rw [parseLoop, hdistance, inside_ite]
  by_cases htwo : rest.length ≤ msglenSize
  · rw [if_pos (Nat.not_lt_of_le htwo)]
    rfl
  · obtain ⟨length, hu16, hlt⟩ := hrest.resolve_left htwo
    rw [if_neg (not_not.2 (Nat.lt_of_not_le htwo)), inside_bind, hw.inside_word16, hu16,
      Option.bind_some, inside_ite, if_pos hlt]
    rfl

theorem parseLoop_message (h : IsMessage L cfg bytes) (hrounds : 32 ≤ rounds)
    (hw : Window lo hi m p (bytes ++ rest)) :
    (parseLoop L cfg flagsOf sequential hi rounds (fuel + 1) n p seen).inside lo hi m =
      (parseLoop L cfg flagsOf sequential hi rounds fuel (n + 1) (p + bytes.length)
        (handle L cfg (flagsOf n) sequential (said L cfg bytes) seen)).inside lo hi m := by
  have hupper := hw.upper
  have hfour := h.four_le
  have hdistance : distance p hi = bytes.length + rest.length := by
    rw [distance_of_le (by omega), ← List.length_append]
    omega
  have hword : (word16 p).inside lo hi m = some bytes.length := by
    rw [hw.inside_word16, Netlink.u16_append (by omega), h.length]
  rw [parseLoop, hdistance, inside_ite, if_neg (by unfold msglenSize; omega), inside_bind, hword,
    Option.bind_some, inside_ite, if_neg (by omega), inside_bind, inside_parseMessage,
    h.inside_at hrounds hw, Option.map_some, Option.bind_some, inside_bind, hword,
    Option.bind_some]

/-- **Messages and the beginning of another one**: each message leads to its call, and the loop ends
in front of the last one. -/
theorem parseLoop_messages {ms : List (List UInt8)} (hms : ∀ bytes ∈ ms, IsMessage L cfg bytes)
    (hrest : Incomplete rest) (hrounds : 32 ≤ rounds) (hfuel : ms.length < fuel)
    (hflags : ∀ n, ∀ bytes ∈ ms, ∀ s ∈ said L cfg bytes, Consistent L unusable (flagsOf n) s)
    (hw : Window lo hi m p (ms.flatten ++ rest)) (hknown : KnownAgrees unusable seen.knownIfaces) :
    ∃ seen', (parseLoop L cfg flagsOf false hi rounds fuel n p seen).inside lo hi m =
        some (p + ms.flatten.length, seen') ∧
      seen'.calls = seen.calls ++ callsOf L cfg unusable ms := by
  induction ms generalizing fuel n p seen with
  | nil =>
    obtain ⟨fuel, rfl⟩ : ∃ f, fuel = f + 1 := ⟨fuel - 1, by omega⟩
    exact ⟨seen, parseLoop_incomplete hw hrest, (List.append_nil _).symm⟩
  | cons bytes ms ih =>
    obtain ⟨fuel, rfl⟩ : ∃ f, fuel = f + 1 := ⟨fuel - 1, by omega⟩
    rw [List.flatten_cons, List.append_assoc] at hw
    have hmessage := hms bytes List.mem_cons_self
    obtain ⟨hcalls, hagrees⟩ :
        (handle L cfg (flagsOf n) false (said L cfg bytes) seen).calls = _ ∧ _ :=
      handle_rule (hflags n bytes List.mem_cons_self) hknown
    have hnext := hw.drop (n := bytes.length) (by simp)
    rw [List.drop_left] at hnext
    obtain ⟨seen', hloop, hseen'⟩ := ih (fun b hb => hms b (List.mem_cons_of_mem _ hb))
      (Nat.lt_of_succ_lt_succ hfuel) (fun n b hb => hflags n b (List.mem_cons_of_mem _ hb))
      hnext hagrees
    refine ⟨seen', ?_, ?_⟩
    · rw [parseLoop_message hmessage hrounds hw, hloop, List.flatten_cons, List.length_append,
        Nat.add_assoc]
    · rw [hseen', hcalls, List.append_assoc]
      rfl

end Reads

/-! ### The receives -/

/-- The monitor, with the number of receives that are not completed and the calls it has made. -/
structure RouteMonitor where
  /-- `m_handler` is set. -/
  attached : Bool := false
  isOpen : Bool := true
  /-- `m_recvBuffer.size()` -/
  bufferSize : ℕ
  /-- The first `m_recvOffset` bytes of the buffer. -/
  pending : List UInt8 := []
  receives : ℕ := 0
  calls : List Netlink.Call := []
  /-- An exception has left the event loop. -/
  raised : Bool := false
  /-- `parseTable` does not end, or it has read bytes that were not received; or `memcpy` was given
  regions that overlap. -/
  lost : Bool := false

namespace RouteMonitor

/-- The events: a receive is completed, and its completion handler runs, or `stop` is called. -/
inductive Event where
  | received (flagsOf : ℕ → SysString → Option ℕ) (bytes : List UInt8)
  | failed (aborted : Bool)
  | stop

/-- What is received in an event. -/
def Event.bytes : Event → List UInt8
  | received _ bytes => bytes
  | _ => []

variable (L : Layout) (cfg : MonitorConfig)

/-- `parseTable` for some bytes.  Every message has a byte, and an `int` has less than 32 bits that
can be tested: the bounds of the loops are never reached, unless a loop does not end. -/
def parse (flagsOf : ℕ → SysString → Option ℕ) (sequential : Bool) (bytes : List UInt8) :
    Option (ℕ × Seen) :=
  (parseTable L cfg flagsOf sequential 0 bytes.length (bytes.length + 32)).inside 0 bytes.length
    (memory bytes)

/-- The next receive is started. -/
def read (st : RouteMonitor) : RouteMonitor := { st with receives := st.receives + 1 }

/-- The monitor is started; `table` is what `sysctl` gives. -/
def start (pageSize : ℕ) (flagsOf : ℕ → SysString → Option ℕ) (table : List UInt8) : RouteMonitor :=
  let st : RouteMonitor := read { attached := true, bufferSize := pageSize }
  match parse L cfg flagsOf true table with
  | none => { st with lost := true }
  | some (_, seen) => { st with calls := seen.calls }

/-- The completion handler of a receive.  A copy of the bytes to where they are changes nothing. -/
def onReceived (flagsOf : ℕ → SysString → Option ℕ) (bytes : List UInt8) (st : RouteMonitor) :
    RouteMonitor :=
  if !st.attached then st
  else
    let buffer := st.pending ++ bytes
    match parse L cfg flagsOf false buffer with
    | none => { st with lost := true }
    | some (last, seen) =>
      let st := { st with calls := st.calls ++ seen.calls }
      if last ≠ 0 && last < buffer.length - last then { st with lost := true }
      else read { st with pending := buffer.drop last }

/-- The same with an error; `onFatalInterfaceMonitorError` raises. -/
def onFailed (aborted : Bool) (st : RouteMonitor) : RouteMonitor :=
  if !st.attached then st else if aborted then st else { st with raised := true }

/-- What happens in an event.  A receive gives at most as many bytes as there is place for, and it
is aborted only when the socket is closed. -/
def step (st : RouteMonitor) (e : Event) : Option RouteMonitor :=
  if st.raised || st.lost then none
  else
    match e, st.receives with
    | .received flagsOf bytes, receives + 1 =>
      if bytes.length ≤ st.bufferSize - st.pending.length then
        some (onReceived L cfg flagsOf bytes { st with receives })
      else none
    | .failed aborted, receives + 1 =>
      if aborted && st.isOpen then none else some (onFailed aborted { st with receives })
    | .stop, _ => some { st with attached := false, isOpen := false }
    | _, 0 => none

/-- The monitor, from its start on. -/
def machine (pageSize : ℕ) : Machine RouteMonitor Event where
  init st := ∃ flagsOf table, st = start L cfg pageSize flagsOf table
  step := step L cfg

variable {L cfg} {st st' : RouteMonitor} {e : Event} {flagsOf : ℕ → SysString → Option ℕ}
  {sequential : Bool} {bytes : List UInt8} {unusable : Int → Bool} {ms : List (List UInt8)}
  {pageSize : ℕ}

theorem ends_of_tableFits {m : ℕ → UInt8} {lo hi p rounds fuel n : ℕ} {seen : Seen}
    (h : TableFits L cfg m hi p) (hrounds : 31 < rounds) (hfuel : hi - p < fuel) (hlo : lo ≤ p)
    (hp : p ≤ hi) :
    Ends lo hi m (parseLoop L cfg flagsOf sequential hi rounds fuel n p seen) := by
  induction h generalizing fuel n seen with
  | tail htail =>
    obtain ⟨fuel, rfl⟩ : ∃ f, fuel = f + 1 := ⟨fuel - 1, by omega⟩
    exact (ends_parseLoop_succ hlo hp).2 (.inl htail)
  | incomplete hshort =>
    obtain ⟨fuel, rfl⟩ : ∃ f, fuel = f + 1 := ⟨fuel - 1, by omega⟩
    exact (ends_parseLoop_succ hlo hp).2 (.inr (.inl hshort))
  | @next p hpos hlen hmsg _ ih =>
    obtain ⟨fuel, rfl⟩ : ∃ f, fuel = f + 1 := ⟨fuel - 1, by omega⟩
    obtain ⟨seen', hseen⟩ := (ends_parseMessage_iff (flagsOf n) sequential seen hrounds hlo).2 hmsg
    exact (ends_parseLoop_succ hlo hp).2
      (.inr (.inr ⟨seen', hseen, ih (by omega) (by omega) (by omega)⟩))

/-- The bounds of the loops are never reached, unless a loop does not end. -/
theorem parse_isSome_iff :
    (parse L cfg flagsOf sequential bytes).isSome = true ↔
      TableFits L cfg (memory bytes) bytes.length 0 := by
  rw [Option.isSome_iff_exists]
  constructor
  · exact fun h => tableFits_of_ends (by omega) le_rfl (Nat.zero_le _) h
  · exact fun h => ends_of_tableFits h (by omega) (by omega) le_rfl (Nat.zero_le _)

theorem window_memory (bytes : List UInt8) : Window 0 bytes.length (memory bytes) 0 bytes where
  lower := le_rfl
  upper := Nat.zero_add _
  get i h := by rw [Nat.zero_add, memory, List.getD_eq_getElem _ _ h]

/-- What is sent for a message is known to the system in the same way. -/
def Event.Answers (L : Layout) (cfg : MonitorConfig) (unusable : Int → Bool)
    (ms : List (List UInt8)) : Event → Prop
  | .received flagsOf _ =>
    ∀ n, ∀ bytes ∈ ms, ∀ s ∈ said L cfg bytes, Consistent L unusable (flagsOf n) s
  | _ => True

/-- `parseTable` on messages and the beginning of another one. -/
theorem parse_messages {pre : List (List UInt8)} {rest : List UInt8}
    (hms : ∀ bytes ∈ pre, IsMessage L cfg bytes) (hrest : Incomplete rest)
    (hflags : ∀ n, ∀ bytes ∈ pre, ∀ s ∈ said L cfg bytes, Consistent L unusable (flagsOf n) s) :
    ∃ seen, parse L cfg flagsOf false (pre.flatten ++ rest) = some (pre.flatten.length, seen) ∧
      seen.calls = callsOf L cfg unusable pre := by
  have hcount : pre.length ≤ pre.flatten.length := by
    rw [← List.flatMap_id]
    exact Stream.length_le_flatMap fun bytes hbytes hnil => by
      have := (hms bytes hbytes).four_le
      simp_all
  have hfuel : pre.length < (pre.flatten ++ rest).length + 32 := by
    rw [List.length_append]
    omega
  have hempty : KnownAgrees unusable ({} : Seen).knownIfaces := fun _ _ h => nomatch h
  obtain ⟨seen, hseen, hcalls⟩ := parseLoop_messages (n := 0) hms hrest
    (Nat.le_add_left 32 (pre.flatten ++ rest).length) hfuel hflags (window_memory _) hempty
  rw [Nat.zero_add] at hseen
  exact ⟨seen, hseen, hcalls.trans (List.nil_append _)⟩

/-! ### What an event does -/

/-- An event in which nothing is read. -/
structure Idle (st : RouteMonitor) (e : Event) (st' : RouteMonitor) : Prop where
  pending : st'.pending = st.pending
  calls : st'.calls = st.calls
  bufferSize : st'.bufferSize = st.bufferSize
  lost : st'.lost = false
  attached : st'.attached = true → st.attached = true
  nothing : st.attached = true → e.bytes = []

theorem step_cases (h : step L cfg st e = some st') :
    st.lost = false ∧
      (Idle st e st' ∨ ∃ flagsOf bytes receives, e = .received flagsOf bytes ∧ st.attached = true ∧
        bytes.length ≤ st.bufferSize - st.pending.length ∧
        st' = onReceived L cfg flagsOf bytes { st with receives }) := by
  unfold step at h
  split_ifs at h with hover
  simp only [Bool.or_eq_true, not_or, Bool.not_eq_true] at hover
  refine ⟨hover.2, ?_⟩
  cases e with
  | stop =>
    obtain rfl := Option.some.inj h
    exact .inl ⟨rfl, rfl, rfl, hover.2, fun hat => (nomatch hat), fun _ => rfl⟩
  | received flagsOf bytes =>
    cases hreceives : st.receives with
    | zero => simp [hreceives] at h
    | succ receives =>
      simp only [hreceives] at h
      split_ifs at h with hroom
      obtain rfl := Option.some.inj h
      by_cases hattached : st.attached = true
      · exact .inr ⟨flagsOf, bytes, receives, rfl, hattached, hroom, rfl⟩
      · have hignored : onReceived L cfg flagsOf bytes { st with receives } =
            { st with receives } := if_pos (by simp [hattached])
        rw [hignored]
        exact .inl ⟨rfl, rfl, rfl, hover.2, id, fun hat => absurd hat hattached⟩
  | failed aborted =>
    cases hreceives : st.receives with
    | zero => simp [hreceives] at h
    | succ receives =>
      simp only [hreceives] at h
      split_ifs at h
      obtain rfl := Option.some.inj h
      unfold onFailed
      split_ifs <;> exact .inl ⟨rfl, rfl, rfl, hover.2, id, fun _ => rfl⟩

/-- What is received is looked at. -/
theorem onReceived_of_parse {last : ℕ} {seen : Seen} (hattached : st.attached = true)
    (hparse : parse L cfg flagsOf false (st.pending ++ bytes) = some (last, seen)) :
    onReceived L cfg flagsOf bytes st =
      if last ≠ 0 && last < (st.pending ++ bytes).length - last then
        { st with calls := st.calls ++ seen.calls, lost := true }
      else
        { st with
          calls := st.calls ++ seen.calls
          pending := (st.pending ++ bytes).drop last
          receives := st.receives + 1 } := by
  unfold onReceived
  rw [if_neg (by simp [hattached])]
  dsimp only
  rw [hparse]
  rfl

/-! ### A stream of messages -/

/-- What has been received is messages, for which the calls were made, and the beginning of the next
one, which is in the buffer. -/
def Framed (L : Layout) (cfg : MonitorConfig) (unusable : Int → Bool) (ms : List (List UInt8))
    (calls : List Netlink.Call) (stream : List UInt8) (st : RouteMonitor) : Prop :=
  ∃ pre post, ms = pre ++ post ∧ stream = pre.flatten ++ st.pending ∧
    Stream.Begins st.pending post ∧ st.calls = calls ++ callsOf L cfg unusable pre

theorem incomplete_of_begins {rest : List UInt8} (hms : ∀ bytes ∈ ms, IsMessage L cfg bytes)
    (h : Stream.Begins rest ms) : Incomplete rest := by
  cases ms with
  | nil =>
    obtain rfl : rest = [] := h
    exact .inl (Nat.zero_le _)
  | cons bytes ms => exact (hms bytes List.mem_cons_self).incomplete h.1 h.2

/-- **A receive** leaves the beginning of a message. -/
theorem Framed.received {calls : List Netlink.Call} {stream : List UInt8} {receives : ℕ}
    (h : Framed L cfg unusable ms calls stream st) (hms : ∀ bytes ∈ ms, IsMessage L cfg bytes)
    (hstream : stream ++ bytes <+: ms.flatten)
    (hflags : ∀ n, ∀ bytes ∈ ms, ∀ s ∈ said L cfg bytes, Consistent L unusable (flagsOf n) s)
    (hattached : st.attached = true)
    (hlost : (onReceived L cfg flagsOf bytes { st with receives }).lost = false) :
    Framed L cfg unusable ms calls (stream ++ bytes)
      (onReceived L cfg flagsOf bytes { st with receives }) := by
  obtain ⟨pre, post, rfl, rfl, -, hcalls⟩ := h
  rw [List.flatten_append, List.append_assoc, List.prefix_append_right_inj] at hstream
  have hpost : ∀ bytes ∈ post, IsMessage L cfg bytes := fun b hb =>
    hms b (List.mem_append_right _ hb)
  obtain ⟨taken, later, part, rfl, hbuffer, hpart⟩ := Stream.exists_begins
    (fun b hb hnil => by simpa [hnil] using (hpost b hb).four_le) hstream
  have htaken : ∀ bytes ∈ taken, IsMessage L cfg bytes := fun b hb =>
    hpost b (List.mem_append_left _ hb)
  obtain ⟨seen, hparse, hseen⟩ := parse_messages htaken
    (incomplete_of_begins (fun b hb => hpost b (List.mem_append_right _ hb)) hpart)
    fun n b hb => hflags n b (List.mem_append_right _ (List.mem_append_left _ hb))
  rw [← hbuffer] at hparse
  have hread : onReceived L cfg flagsOf bytes { st with receives } = _ :=
    onReceived_of_parse hattached hparse
  rw [hread] at hlost ⊢
  split_ifs at hlost ⊢
  refine ⟨pre ++ taken, later, (List.append_assoc _ _ _).symm, ?_, ?_, ?_⟩
  · show _ = _ ++ (st.pending ++ bytes).drop _
    rw [hbuffer, List.drop_left, List.flatten_append, List.append_assoc, List.append_assoc, hbuffer]
  · show Stream.Begins ((st.pending ++ bytes).drop _) later
    rw [hbuffer, List.drop_left]
    exact hpart
  · show st.calls ++ seen.calls = _
    rw [hcalls, hseen, List.append_assoc, callsOf, callsOf, callsOf, List.flatMap_append]

theorem Framed.step {calls : List Netlink.Call} {stream : List UInt8}
    (h : Framed L cfg unusable ms calls stream st) (hms : ∀ bytes ∈ ms, IsMessage L cfg bytes)
    (hstream : stream ++ e.bytes <+: ms.flatten) (hflags : e.Answers L cfg unusable ms)
    (hst : step L cfg st e = some st') (hlost : st'.lost = false)
    (hattached : st'.attached = true) :
    Framed L cfg unusable ms calls (stream ++ e.bytes) st' := by
  rcases (step_cases hst).2 with hidle | ⟨flagsOf, bytes, receives, rfl, hat, -, rfl⟩
  · obtain ⟨pre, post, hsplit, rfl, hbegins, hcalls⟩ := h
    refine ⟨pre, post, hsplit, ?_, ?_, hidle.calls.trans hcalls⟩
    · rw [hidle.nothing (hidle.attached hattached), hidle.pending, List.append_nil]
    · rwa [hidle.pending]
  · exact h.received hms hstream hflags hat hlost

/-- Only a monitor that is attached and not lost makes progress. -/
theorem step_before (hst : step L cfg st e = some st') (hattached : st'.attached = true) :
    st.lost = false ∧ st.attached = true := by
  obtain ⟨hlost, hidle | ⟨_, _, _, _, hat, _⟩⟩ := step_cases hst
  · exact ⟨hlost, hidle.attached hattached⟩
  · exact ⟨hlost, hat⟩

theorem framed_run {calls : List Netlink.Call} {es : List Event} {stream : List UInt8}
    (hms : ∀ bytes ∈ ms, IsMessage L cfg bytes)
    (h : st.lost = false → st.attached = true → Framed L cfg unusable ms calls stream st)
    (hstream : stream ++ es.flatMap Event.bytes <+: ms.flatten)
    (hflags : ∀ e ∈ es, e.Answers L cfg unusable ms)
    (hrun : (machine L cfg pageSize).run st es = some st') (hlost : st'.lost = false)
    (hattached : st'.attached = true) :
    Framed L cfg unusable ms calls (stream ++ es.flatMap Event.bytes) st' := by
  induction es generalizing st stream with
  | nil =>
    obtain rfl := Option.some.inj hrun
    rw [List.flatMap_nil, List.append_nil]
    exact h hlost hattached
  | cons e es ih =>
    obtain ⟨t, hst, hrun⟩ := Machine.run_cons_eq_some.1 hrun
    rw [List.flatMap_cons, ← List.append_assoc] at hstream ⊢
    refine ih (fun htlost htat => ?_) hstream
      (fun e he => hflags e (List.mem_cons_of_mem _ he)) hrun
    obtain ⟨hl, hat⟩ := step_before hst htat
    exact (h hl hat).step hms ((List.prefix_append _ _).trans hstream)
      (hflags e List.mem_cons_self) hst htlost htat

/-- **Receives of whole messages** leave nothing. -/
theorem whole_step (hms : ∀ bytes ∈ ms, IsMessage L cfg bytes)
    (hflags : e.Answers L cfg unusable ms) (hwhole : ∃ group ⊆ ms, e.bytes = group.flatten)
    (hpending : st.pending = [])
    (hst : step L cfg st e = some st') : st'.lost = false ∧ st'.pending = [] := by
  obtain ⟨hlost, hidle | ⟨flagsOf, bytes, receives, rfl, hat, -, rfl⟩⟩ := step_cases hst
  · exact ⟨hidle.lost, hidle.pending.trans hpending⟩
  · obtain ⟨group, hgroup, hbytes⟩ := hwhole
    have hnothing : Incomplete [] := .inl (Nat.zero_le _)
    obtain ⟨seen, hparse, -⟩ := parse_messages (fun b hb => hms b (hgroup hb)) hnothing
      fun n b hb => hflags n b (hgroup hb)
    have hbuffer : group.flatten ++ [] = st.pending ++ bytes := by
      rw [List.append_nil, hpending, List.nil_append]
      exact hbytes.symm
    rw [hbuffer] at hparse
    have hread : onReceived L cfg flagsOf bytes { st with receives } = _ :=
      onReceived_of_parse hat hparse
    have hlength : (st.pending ++ bytes).length = group.flatten.length := by
      rw [← hbuffer, List.append_nil]
    rw [hread, if_neg]
    · refine ⟨hlost, ?_⟩
      show (st.pending ++ bytes).drop _ = []
      rw [← hlength, List.drop_length]
    · show ¬ (decide (group.flatten.length ≠ 0) &&
        decide (group.flatten.length < (st.pending ++ bytes).length - group.flatten.length)) = true
      rw [hlength]
      simp

/-- **How the stream is cut does not matter as long as the interfaces are what they are**: in every run
from the start of the monitor in which the system answers every question for the flags of an
interface, and answers what the messages say, what has been received is messages, for which the calls
of the rule were made, and the beginning of the next one, which is in the buffer.  With receives of
whole messages nothing is lost, and nothing is left in the buffer. -/
theorem framed (L : Layout) (cfg : MonitorConfig) (pageSize : ℕ) (unusable : Int → Bool)
    (ms : List (List UInt8)) (hms : ∀ bytes ∈ ms, IsMessage L cfg bytes)
    (flagsOf : ℕ → SysString → Option ℕ) (table : List UInt8) (last : ℕ) (seen : Seen)
    (htable : parse L cfg flagsOf true table = some (last, seen)) (es : List Event)
    (hstream : es.flatMap Event.bytes <+: ms.flatten)
    (hflags : ∀ e ∈ es, e.Answers L cfg unusable ms) (st : RouteMonitor)
    (hrun : (machine L cfg pageSize).run (start L cfg pageSize flagsOf table) es = some st) :
    (st.lost = false → st.attached = true → ∃ pre post, ms = pre ++ post ∧
      es.flatMap Event.bytes = pre.flatten ++ st.pending ∧ Stream.Begins st.pending post ∧
      st.calls = seen.calls ++ callsOf L cfg unusable pre) ∧
    ((∀ e ∈ es, ∃ group ⊆ ms, e.bytes = group.flatten) → st.lost = false ∧ st.pending = []) := by
  have hstart : start L cfg pageSize flagsOf table =
      { attached := true, bufferSize := pageSize, receives := 1, calls := seen.calls } := by
    unfold start
    dsimp only
    rw [htable]
    rfl
  have hne : ∀ bytes ∈ ms, bytes ≠ [] := fun b hb hnil => by
    simpa [hnil] using (hms b hb).four_le
  rw [hstart] at hrun
  constructor
  · intro hlost hattached
    have hframed : Framed L cfg unusable ms seen.calls ([] ++ es.flatMap Event.bytes) st :=
      framed_run hms (fun _ _ => ⟨[], ms, rfl, rfl, Stream.begins_nil hne,
        (List.append_nil _).symm⟩) hstream hflags hrun hlost hattached
    rwa [List.nil_append] at hframed
  · intro hwhole
    have hok : ∀ s, (machine L cfg pageSize).Along (fun _ e => e.Answers L cfg unusable ms ∧
        ∃ group ⊆ ms, e.bytes = group.flatten) s es :=
      Machine.along_of_forall fun e he _ => ⟨hflags e he, hwhole e he⟩
    exact (Machine.always_of_along (I := fun st => st.lost = false ∧ st.pending = [])
      (fun _ _ _ h hok hst => whole_step hms hok.1 hok.2 h.2 hst) ⟨rfl, rfl⟩ (hok _)).last hrun

/-- The address of `en0` is deleted again. -/
def en0Deleted : List UInt8 := en0Address.set 3 0xd

/-- Every interface can be used for multicast. -/
def multicasting (_ : ℕ) (_ : SysString) : Option ℕ := some iffMulticast

theorem isMessage_en0 : ∀ bytes ∈ [en0Address, en0Deleted], IsMessage macOS {} bytes := by
  have hends : ∀ bytes ∈ [en0Address, en0Deleted],
      ((parseMessage macOS {} (fun _ => none) false 32 0 bytes.length {}).inside 0 bytes.length
        (memory bytes)).isSome = true ∧ u16 bytes = some bytes.length := by
    decide +kernel
  intro bytes hbytes
  refine ⟨(hends bytes hbytes).2, (ends_parseMessage_iff (fun _ => none) false {} (by decide :
    31 < 32) le_rfl).1 ?_⟩
  exact Option.isSome_iff_exists.1 (hends bytes hbytes).1

/-- The second message arrives in two parts. -/
def cutEvents : List Event :=
  [.received multicasting (en0Address ++ en0Deleted.take 10),
    .received multicasting (en0Deleted.drop 10)]

theorem framed_cut : ∃ st,
    (machine macOS {} 4096).run (start macOS {} 4096 multicasting []) cutEvents = some st ∧
      st.lost = false ∧ ∃ pre post, [en0Address, en0Deleted] = pre ++ post ∧
        en0Address ++ en0Deleted = pre.flatten ++ st.pending ∧ Stream.Begins st.pending post ∧
        st.calls = [] ++ callsOf macOS {} (fun _ => false) pre := by
  have htype : ∀ bytes ∈ [en0Address, en0Deleted], ∀ s ∈ said macOS {} bytes,
      s.type ≠ macOS.rtmIfInfo := by
    decide +kernel
  have hconsistent : ∀ n, ∀ bytes ∈ [en0Address, en0Deleted], ∀ s ∈ said macOS {} bytes,
      Consistent macOS (fun _ => false) (multicasting n) s := fun n bytes hbytes s hs iface _ =>
    ⟨fun heq => absurd heq (htype bytes hbytes s hs), iffMulticast, rfl,
      (by decide : isUnusableInterface iffMulticast = false)⟩
  have hflags : ∀ e ∈ cutEvents, e.Answers macOS {} (fun _ => false) [en0Address, en0Deleted] := by
    intro e he
    simp only [cutEvents, List.mem_cons, List.not_mem_nil, or_false] at he
    rcases he with rfl | rfl <;> exact hconsistent
  have hrun : ((machine macOS {} 4096).run (start macOS {} 4096 multicasting []) cutEvents).map
      (fun st => (st.lost, st.attached)) = some (false, true) := by
    decide +kernel
  obtain ⟨st, hst, hsame⟩ := Option.map_eq_some_iff.1 hrun
  obtain ⟨hlost, hattached⟩ := Prod.mk.inj hsame
  exact ⟨st, hst, hlost, (framed macOS {} 4096 (fun _ => false) _ isMessage_en0 multicasting [] 0 {}
    rfl cutEvents (by decide +kernel) hflags st hst).1 hlost hattached⟩

/-! ### A message that does not fit the buffer -/

/-- The buffer is full of the beginning of one message. -/
structure Full (st : RouteMonitor) : Prop where
  incomplete : Incomplete st.pending
  full : st.pending.length = st.bufferSize

theorem parse_incomplete (h : Incomplete bytes) :
    parse L cfg flagsOf false bytes = some (0, {}) :=
  parseLoop_incomplete (window_memory bytes) h

/-- What is received into a buffer that is full then, or was full before. -/
theorem onReceived_incomplete {receives : ℕ} (hattached : st.attached = true)
    (h : Incomplete (st.pending ++ bytes)) :
    onReceived L cfg flagsOf bytes { st with receives } =
      { st with pending := st.pending ++ bytes, receives := receives + 1 } := by
  have hread : onReceived L cfg flagsOf bytes { st with receives } = _ :=
    onReceived_of_parse hattached (parse_incomplete h)
  rw [hread, if_neg (by simp), List.append_nil, List.drop_zero]

/-- **A full buffer stays full.** -/
theorem Full.step (h : st.Full) (hst : step L cfg st e = some st') :
    st'.Full ∧ st'.lost = false ∧ st'.calls = st.calls ∧ st'.pending = st.pending := by
  obtain ⟨hlost, hidle | ⟨flagsOf, bytes, receives, rfl, hat, hroom, rfl⟩⟩ := step_cases hst
  · refine ⟨⟨?_, ?_⟩, hidle.lost, hidle.calls, hidle.pending⟩
    · rw [hidle.pending]
      exact h.incomplete
    · rw [hidle.pending, hidle.bufferSize]
      exact h.full
  · rw [h.full, Nat.sub_self, Nat.le_zero, List.length_eq_zero_iff] at hroom
    subst hroom
    have hincomplete : Incomplete (st.pending ++ []) := (List.append_nil _).symm ▸ h.incomplete
    rw [onReceived_incomplete hat hincomplete, List.append_nil]
    exact ⟨⟨h.incomplete, h.full⟩, hlost, rfl, rfl⟩

/-- **A message that is longer than the buffer is the last one**: when it has filled the buffer, no
receive can give a byte, and no call is made any more. -/
theorem deaf (L : Layout) (cfg : MonitorConfig) (pageSize : ℕ) (st : RouteMonitor)
    (hattached : st.attached = true) (hpending : st.pending = []) (bytes : List UInt8)
    (hlength : u16 bytes = some bytes.length) (hlong : st.bufferSize < bytes.length)
    (htwo : msglenSize < st.bufferSize) (flagsOf : ℕ → SysString → Option ℕ) (es : List Event)
    (st' : RouteMonitor)
    (hrun : (machine L cfg pageSize).run st
      (.received flagsOf (bytes.take st.bufferSize) :: es) = some st') :
    st'.calls = st.calls ∧ st'.lost = false ∧ st'.pending = bytes.take st.bufferSize := by
  obtain ⟨t, hst, hrun⟩ := Machine.run_cons_eq_some.1 hrun
  have htake : (bytes.take st.bufferSize).length = st.bufferSize :=
    List.length_take_of_le (Nat.le_of_lt hlong)
  -- the buffer is full, and more of the message is missing
  have hincomplete : Incomplete (bytes.take st.bufferSize) := by
    refine .inr ⟨bytes.length, ?_, by rwa [htake]⟩
    have happend : u16 (bytes.take st.bufferSize ++ bytes.drop st.bufferSize) =
        u16 (bytes.take st.bufferSize) :=
      Netlink.u16_append (htake.symm ▸ Nat.le_of_lt htwo)
    rw [← happend, List.take_append_drop, hlength]
  have hfirst : t.Full ∧ t.lost = false ∧ t.calls = st.calls ∧
      t.pending = bytes.take st.bufferSize := by
    obtain ⟨hlost, hidle | ⟨_, _, receives, heq, -, -, rfl⟩⟩ := step_cases hst
    · have hnil : bytes.take st.bufferSize = [] := hidle.nothing hattached
      rw [hnil, List.length_nil] at htake
      omega
    · obtain ⟨rfl, rfl⟩ := Event.received.inj heq
      have hbuffer : st.pending ++ bytes.take st.bufferSize = bytes.take st.bufferSize := by
        rw [hpending, List.nil_append]
      rw [onReceived_incomplete hattached (hbuffer.symm ▸ hincomplete), hbuffer]
      exact ⟨⟨hincomplete, htake⟩, hlost, rfl, rfl⟩
  obtain ⟨-, hlost, hcalls, hpend⟩ := Machine.run_invariant
    (I := fun s => s.Full ∧ s.lost = false ∧ s.calls = st.calls ∧
      s.pending = bytes.take st.bufferSize)
    (fun s e u hs hstep => by
      obtain ⟨hfull, hlost, hcalls, hpend⟩ := hs.1.step hstep
      exact ⟨hfull, hlost, hcalls.trans hs.2.2.1, hpend.trans hs.2.2.2⟩) hfirst hrun
  exact ⟨hcalls, hlost, hpend⟩

/-- The address of `en0` does not fit 16 bytes, and it is not seen when it is deleted. -/
theorem deaf_en0 : ∃ st,
    (machine macOS {} 16).run (start macOS {} 16 multicasting [])
      [.received multicasting (en0Address.take 16), .received multicasting []] = some st ∧
      st.calls = [] := by
  have hrun : ((machine macOS {} 16).run (start macOS {} 16 multicasting [])
      [.received multicasting (en0Address.take 16), .received multicasting []]).isSome = true := by
    decide +kernel
  obtain ⟨st, hst⟩ := Option.isSome_iff_exists.1 hrun
  exact ⟨st, hst, (deaf macOS {} 16 (start macOS {} 16 multicasting []) rfl rfl en0Address rfl
    (by decide +kernel) (by decide +kernel) multicasting _ st hst).1⟩

end RouteMonitor

end Route

end Wsddn
