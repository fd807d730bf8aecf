import Wsddn.Netlink.Parse

/-!
# The interface monitor and its handler (`InterfaceMonitor::Handler` of `interface_monitor.h`)

`parseBuffer` goes through the messages of a receive buffer.  It does not know the server manager:
it makes calls of an interface.  Here it is for any handler, together with the calls that it has
made, in their order.  A handler can raise an exception, which ends the loop over the messages.

* `parseBufferFor` : `parseBuffer` for any handler.
* `managerHandler` : the handler of the program, which is the server manager.
-/

namespace Wsddn

namespace Netlink

open LittleEndian

/-- A call of `InterfaceMonitor::Handler`. -/
inductive Call where
  | addAddress (iface : NetworkInterface) (addr : IpAddress)
  | removeAddress (iface : NetworkInterface) (addr : IpAddress)
  deriving DecidableEq, Repr

/-! ### The monitor and its handler -/

/-- `InterfaceMonitor::Handler`: what a call made for the message number `n` does, and whether an
exception leaves it. -/
structure Handler (σ : Type*) where
  perform : ℕ → Call → σ → σ × Bool

/-- The handler, what `parseBuffer` knows about the interfaces, and the calls it has made. -/
structure Monitored (σ : Type*) where
  handler : σ
  knownIfaces : List (Int × Bool) := []
  calls : List Call := []

variable {σ : Type*} (H : Handler σ) (cfg : MonitorConfig)

/-- A call is made. -/
def Monitored.perform (n : ℕ) (c : Call) (st : Monitored σ) : Monitored σ × Bool :=
  ({ st with handler := (H.perform n c st.handler).1, calls := st.calls ++ [c] },
    (H.perform n c st.handler).2)

/-- `handleDetected` for any handler. -/
def handleDetectedFor (n : ℕ) (k : Answers) (isAdded : Bool) (iface : NetworkInterface)
    (addr : IpAddress) (st : Monitored σ) : Monitored σ × Bool :=
  if isAdded then
    match st.knownIfaces.lookup iface.index with
    | some ignore =>
      if ignore then (st, false) else st.perform H n (.addAddress iface addr)
    | none =>
      match k.flags with
      | none => (st, false)
      | some flags =>
        let ignore := flags &&& iffLoopback ≠ 0 || flags &&& iffMulticast = 0
        let st := { st with knownIfaces := (iface.index, ignore) :: st.knownIfaces }
        if ignore then (st, false) else st.perform H n (.addAddress iface addr)
  else st.perform H n (.removeAddress iface addr)

/-- `parseAddress` for any handler. -/
def parseAddressFor (n : ℕ) (k : Answers) (isAdded : Bool) (cur : List UInt8)
    (st : Monitored σ) : Option (Monitored σ × Bool) :=
  if cur.length < ifaddrmsgSize then some (st, false)
  else
    match cur[0]?, cur[2]?, u32 (cur.drop 4) with
    | some family, some flags, some index =>
      if flags &&& unusableFlags ≠ 0 then some (st, false)
      else if family ≠ afInet && family ≠ afInet6 then some (st, false)
      else
        (parseRtAttr cfg k index family (cur.drop ifaddrmsgSize)).map fun res =>
          match res.iface, res.addr with
          | some iface, some addr =>
            if !cfg.isAllowedInterface iface.name then (st, false)
            else handleDetectedFor H n k isAdded iface addr st
          | _, _ => (st, false)
    | _, _, _ => none

/-- `parseMessage` for any handler. -/
def parseMessageFor (n : ℕ) (k : Answers) (bytes : List UInt8) (st : Monitored σ) :
    Option (ParseStatus ⊕ ℕ × Monitored σ × Bool) :=
  if bytes.length < 4 then some (.inl .bufferTooSmall)
  else
    match u32 bytes with
    | none => none
    | some nlmsgLen =>
      let len := (nlmsgLen + 3) % 2 ^ 32 / 4 * 4
      if bytes.length < len then some (.inl .bufferTooSmall)
      else if len < nlmsgHdrLen then some (.inl .error)
      else
        match u16 (bytes.drop 4) with
        | none => none
        | some type =>
          if type = nlmsgError then some (.inl .error)
          else if type = nlmsgOverrun then some (.inl .bufferTooSmall)
          else if type = nlmsgDone then some (.inl .done)
          else if type = rtmNewAddr || type = rtmDelAddr then
            (parseAddressFor H cfg n k (type = rtmNewAddr) (bytes.drop nlmsgHdrLen) st).map
              fun r => .inr (len, r)
          else some (.inr (len, st, false))

/-- `parseLoop` for any handler.  The status is `none` if an exception leaves the loop. -/
def parseLoopFor (k : ℕ → Answers) :
    ℕ → ℕ → List UInt8 → Monitored σ → Option (Option ParseStatus × Monitored σ)
  | 0, _, _, _ => none
  | fuel + 1, n, bytes, st =>
    if bytes = [] then some (some .expectMore, st)
    else
      match parseMessageFor H cfg n (k n) bytes st with
      | none => none
      | some (.inl status) => some (some status, st)
      | some (.inr (len, st, raised)) =>
        if raised then some (none, st)
        else parseLoopFor k fuel (n + 1) (bytes.drop len) st

/-- **`parseBuffer` for any handler**, with the calls that it makes. -/
def parseBufferFor (k : ℕ → Answers) (bytes : List UInt8) (handler : σ) :
    Option (Option ParseStatus × Monitored σ) :=
  parseLoopFor H cfg k (bytes.length + 1) 0 bytes { handler }

/-! ### The server manager as the handler -/

/-- The server manager. -/
def managerHandler (k : ℕ → Answers) : Handler ServerManager where
  perform n c manager :=
    match c with
    | .addAddress iface addr =>
      let manager := manager.addAddress iface addr (k n).created
      (manager, manager.raised)
    | .removeAddress iface addr =>
      let manager := manager.removeAddress iface addr
      (manager, manager.raised)

end Netlink

end Wsddn
