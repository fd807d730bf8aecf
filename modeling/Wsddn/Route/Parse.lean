import Wsddn.Memory.Reading
import Wsddn.Netlink.Handler

/-!
# Messages of a route socket (`InterfaceMonitorImpl` of `interface_monitor_bsd.cpp`)

`parseTable` goes through the messages in a buffer, with pointers: a program that reads memory.
Behind the struct of a message there is one `sockaddr` for each bit of its mask.  The structs differ
between the systems, and so do some constants; a `Layout` has them.  All numbers are little-endian,
and a `sockaddr` has a length (`HAVE_SOCKADDR_SA_LEN`).

A difference of pointers is taken as a `size_t`, and a shifted bit is an `int`.
-/

namespace Wsddn

namespace Route

open Reading

/-! ### Constants of the systems -/

/-- The structs of a system. -/
structure Layout where
  /-- `sizeof(ifa_msghdr)`, and where `ifam_addrs` is. -/
  ifaMsghdr : ℕ
  ifamAddrs : ℕ
  /-- `sizeof(if_msghdr)`, and where `ifm_addrs` and `ifm_flags` are. -/
  ifMsghdr : ℕ
  ifmAddrs : ℕ
  ifmFlags : ℕ
  /-- `alignof(rt_msghdr)`. -/
  align : ℕ
  afInet6 : UInt8
  rtmNewAddr : UInt8
  rtmDelAddr : UInt8
  rtmIfInfo : UInt8
  deriving DecidableEq, Repr

/-- macOS. -/
def macOS : Layout where
  ifaMsghdr := 20
  ifamAddrs := 4
  ifMsghdr := 112
  ifmAddrs := 4
  ifmFlags := 8
  align := 4
  afInet6 := 30
  rtmNewAddr := 0xc
  rtmDelAddr := 0xd
  rtmIfInfo := 0xe

/-- `sizeof(rt_msghdr::rtm_msglen)`. -/
def msglenSize : ℕ := 2

/-- `sizeof(sockaddr)`. -/
def sockaddrSize : ℕ := 16

/-- `RTA_IFP`. -/
def rtaIfp : ℕ := 0x10

/-- `RTA_IFA`. -/
def rtaIfa : ℕ := 0x20

/-- `AF_INET`. -/
def afInet : UInt8 := 2

/-- `AF_LINK`. -/
def afLink : UInt8 := 18

/-- `IFF_LOOPBACK`. -/
def iffLoopback : ℕ := 0x8

/-- `IFF_MULTICAST`. -/
def iffMulticast : ℕ := 0x8000

/-- `size_t(last - first)`. -/
def distance (first last : ℕ) : ℕ :=
  if first ≤ last then last - first else 2 ^ 64 - (first - last)

/-! ### Addresses -/

/-- `ParseResult`. -/
structure ParseResult where
  addr : Option IpAddress := none
  iface : Option NetworkInterface := none
  deriving DecidableEq, Repr

/-- `IN6_IS_SCOPE_LINKLOCAL`. -/
def isScopeLinkLocal : List UInt8 → Bool
  | b₀ :: b₁ :: _ => b₀ = 0xfe && b₁ &&& 0xc0 = 0x80 || b₀ = 0xff && b₁ &&& 0x0f = 0x02
  | _ => false

/-- The address of a `sockaddr_in6`: a scope in the address itself is taken out. -/
def clearAddress (raw : List UInt8) (scope : ℕ) : List UInt8 × ℕ :=
  if isScopeLinkLocal raw then
    match raw with
    | b₀ :: b₁ :: b₂ :: b₃ :: tail =>
      let embeddedScope := 256 * b₂.toNat + b₃.toNat
      (b₀ :: b₁ :: 0 :: 0 :: tail, if embeddedScope ≠ 0 then embeddedScope else scope)
    | _ => (raw, scope)
  else (raw, scope)

/-- `makeAddress` for a `sockaddr_in`. -/
def makeAddress4 (addr : ℕ) : Reading IpAddress := do
  let sinAddr ← bytes (addr + 4) 4
  pure (.v4 (BitVec.ofNat 32 (Netlink.ofBytes sinAddr)))

/-- `makeAddress` for a `sockaddr_in6`: the bytes and the scope. -/
def makeAddress6 (addr : ℕ) : Reading (List UInt8 × ℕ) := do
  let sin6Addr ← bytes (addr + 8) 16
  let scope ← word32 (addr + 24)
  pure (clearAddress sin6Addr scope)

variable (L : Layout) (cfg : MonitorConfig)

/-- How far it is from a `sockaddr` to the next one. -/
def alignedRtMessageLength (sa : ℕ) : Reading ℕ := do
  let saLen ← byte sa
  pure (if saLen ≠ 0 then (saLen.toNat + (L.align - 1)) / L.align * L.align else L.align)

/-- The `sockaddr` at `addr`, for one bit of the mask. -/
def parseEntry (entryBit addr : ℕ) (result : ParseResult) : Reading ParseResult :=
  if entryBit = rtaIfa then do
    let family ← byte (addr + 1)
    if family = afInet then
      if cfg.enableIPv4 then do
        let addr4 ← makeAddress4 addr
        pure { result with addr := some addr4 }
      else pure result
    else if family = L.afInet6 then
      if cfg.enableIPv6 then do
        let cppAddr ← makeAddress6 addr
        if Netlink.isLinkLocal cppAddr.1 then
          pure { result with addr := some (.v6 (BitVec.ofNat 128 (Netlink.ofBytes cppAddr.1))
            (UInt32.ofNat cppAddr.2)) }
        else pure result
      else pure result
    else pure result
  else if entryBit = rtaIfp then do
    let family ← byte (addr + 1)
    if family = afLink then do
      let sdlIndex ← word16 (addr + 2)
      let sdlNlen ← byte (addr + 5)
      let sdlData ← bytes (addr + 8) sdlNlen.toNat
      pure { result with iface := some ⟨sdlData, sdlIndex⟩ }
    else pure result
  else pure result

/-- The loop over the bits of the mask. -/
def parseEntries (last entryMask : ℕ) : ℕ → ℕ → ℕ → ParseResult → Reading ParseResult
  | 0, _, _, _ => endless
  | fuel + 1, entryBit, first, result =>
    if ¬ Netlink.toInt32 entryBit ≤ Netlink.toInt32 entryMask then pure result
    else if entryBit &&& entryMask ≠ 0 then do
      let result ← parseEntry L cfg entryBit first result
      let len ← alignedRtMessageLength L first
      if distance (first + len) last < sockaddrSize then pure result
      else parseEntries last entryMask fuel (entryBit * 2 % 2 ^ 32) (first + len) result
    else parseEntries last entryMask fuel (entryBit * 2 % 2 ^ 32) first result

/-- The addresses behind a header, if there is room for one. -/
def parseAddresses (fuel first last entryMask : ℕ) : Reading ParseResult :=
  if sockaddrSize ≤ distance first last then parseEntries L cfg last entryMask fuel 1 first {}
  else pure {}

/-! ### Messages -/

/-- What is known in the loop over the messages, and the calls of the handler. -/
structure Seen where
  knownIfaces : List (Int × Bool) := []
  lastInterface : Option NetworkInterface := none
  calls : List Netlink.Call := []
  deriving DecidableEq, Repr

/-- A loop-back interface, or one that cannot do multicast. -/
def isUnusableInterface (interfaceFlags : ℕ) : Bool :=
  interfaceFlags &&& iffLoopback ≠ 0 || interfaceFlags &&& iffMulticast = 0

/-- An interface that nothing is known about is ignored; deletions are passed on for all. -/
def handleDetected (isAdded : Bool) (iface : NetworkInterface) (addr : IpAddress) (seen : Seen) :
    Seen :=
  if isAdded then
    let ignore := (seen.knownIfaces.lookup iface.index).getD true
    if !ignore then { seen with calls := seen.calls ++ [.addAddress iface addr] } else seen
  else { seen with calls := seen.calls ++ [.removeAddress iface addr] }

/-- What is done with the addresses of a message; `getFlags` is the answer to `SIOCGIFFLAGS`. -/
def handleResult (getFlags : SysString → Option ℕ) (sequential : Bool) (type : UInt8)
    (interfaceFlags : ℕ) (result : ParseResult) (seen : Seen) : Seen :=
  let iface := if sequential then result.iface.or seen.lastInterface else result.iface
  let seen :=
    if sequential && result.iface.isSome then { seen with lastInterface := result.iface } else seen
  match iface with
  | none => seen
  | some iface =>
    if !cfg.isAllowedInterface iface.name then seen
    else
      let seen :=
        if type = L.rtmIfInfo then
          { seen with
            knownIfaces := (iface.index, isUnusableInterface interfaceFlags) :: seen.knownIfaces }
        else
          match seen.knownIfaces.lookup iface.index, getFlags iface.name with
          | none, some flags =>
            { seen with knownIfaces := (iface.index, isUnusableInterface flags) :: seen.knownIfaces }
          | _, _ => seen
      match result.addr with
      | none => seen
      | some addr => handleDetected (type ≠ L.rtmDelAddr) iface addr seen

/-- The message at `first`, which ends at `addrLast`. -/
def parseMessage (getFlags : SysString → Option ℕ) (sequential : Bool) (fuel first addrLast : ℕ)
    (seen : Seen) : Reading Seen := do
  let type ← byte (first + 3)
  if type = L.rtmNewAddr || type = L.rtmDelAddr then do
    let entryMask ← word32 (first + L.ifamAddrs)
    let result ← parseAddresses L cfg fuel (first + L.ifaMsghdr) addrLast entryMask
    pure (handleResult L cfg getFlags sequential type 0 result seen)
  else if type = L.rtmIfInfo then do
    let entryMask ← word32 (first + L.ifmAddrs)
    let interfaceFlags ← word32 (first + L.ifmFlags)
    let result ← parseAddresses L cfg fuel (first + L.ifMsghdr) addrLast entryMask
    pure (handleResult L cfg getFlags sequential type interfaceFlags result seen)
  else pure seen

/-- The loop over the messages; `getFlags n` are the answers for the message number `n`, and
`rounds` bounds the loops over the bits. -/
def parseLoop (getFlags : ℕ → SysString → Option ℕ) (sequential : Bool) (last rounds : ℕ) :
    ℕ → ℕ → ℕ → Seen → Reading (ℕ × Seen)
  | 0, _, _, _ => endless
  | fuel + 1, n, first, seen =>
    if ¬ msglenSize < distance first last then pure (first, seen)
    else do
      let msglen ← word16 first
      if distance first last < msglen then pure (first, seen)
      else do
        let seen ← parseMessage L cfg (getFlags n) sequential rounds first (first + msglen) seen
        let step ← word16 first
        parseLoop getFlags sequential last rounds fuel (n + 1) (first + step) seen

/-- **`parseTable`**: the position behind the messages, and what was done. -/
def parseTable (getFlags : ℕ → SysString → Option ℕ) (sequential : Bool) (first last fuel : ℕ) :
    Reading (ℕ × Seen) :=
  parseLoop L cfg getFlags sequential last fuel fuel 0 first {}

end Route

end Wsddn
