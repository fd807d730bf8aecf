import Mathlib.Algebra.Ring.Int.Defs
import Wsddn.Manager.Basic
import Wsddn.Stream.LittleEndian

/-!
# The attributes of Netlink messages (`InterfaceMonitorImpl` of `interface_monitor_linux.cpp`)

A message header is 16 bytes (length, type, flags, sequence number, port), an `ifaddrmsg` 8 bytes
(family, prefix length, flags, scope, index), and an attribute has a header of 4 bytes (length,
type).  All numbers are little-endian.

A read outside the buffer is `none`.  The attributes of a message are looked for in the whole rest
of the buffer, as in the source, and the count of the bytes that remain is a `size_t` that can
wrap around.

* `parseRtAttr` : what the attributes say of the interface and of its address.
-/

namespace Wsddn

open LittleEndian

/-! ### Configuration -/

/-- What the monitor asks of the `Config`.  A pattern is the function that matches a name with
it. -/
structure MonitorConfig where
  enableIPv4 : Bool := true
  enableIPv6 : Bool := true
  interfaceWhitelist : List SysString := []
  interfacePatternsWhitelist : List (SysString → Bool) := []
  interfacePatternsBlacklist : List (SysString → Bool) := []

namespace MonitorConfig

/-- `Config::isAllowedInterface`. -/
def isAllowedInterface (cfg : MonitorConfig) (name : SysString) : Bool :=
  if cfg.interfaceWhitelist.contains name then true
  else
    let includeViaPattern := cfg.interfacePatternsWhitelist.any fun exp => exp name
    let includeByDefault :=
      cfg.interfaceWhitelist.isEmpty && cfg.interfacePatternsWhitelist.isEmpty
    if !includeViaPattern && !includeByDefault then false
    else !cfg.interfacePatternsBlacklist.any fun exp => exp name

end MonitorConfig

namespace Netlink

/-! ### Constants of the kernel -/

/-- `NLMSG_HDRLEN`. -/
def nlmsgHdrLen : ℕ := 16

/-- `sizeof(ifaddrmsg)`. -/
def ifaddrmsgSize : ℕ := 8

/-- `NLMSG_ERROR`. -/
def nlmsgError : ℕ := 2

/-- `NLMSG_DONE`. -/
def nlmsgDone : ℕ := 3

/-- `NLMSG_OVERRUN`. -/
def nlmsgOverrun : ℕ := 4

/-- `RTM_NEWADDR`. -/
def rtmNewAddr : ℕ := 20

/-- `RTM_DELADDR`. -/
def rtmDelAddr : ℕ := 21

/-- `IFA_ADDRESS`. -/
def ifaAddress : ℕ := 1

/-- `IFA_LOCAL`. -/
def ifaLocal : ℕ := 2

/-- `IFA_LABEL`. -/
def ifaLabel : ℕ := 3

/-- `AF_INET`. -/
def afInet : UInt8 := 2

/-- `AF_INET6`. -/
def afInet6 : UInt8 := 10

/-- `IFA_F_DADFAILED | IFA_F_HOMEADDRESS | IFA_F_DEPRECATED | IFA_F_TENTATIVE`. -/
def unusableFlags : UInt8 := 0x08 ||| 0x10 ||| 0x20 ||| 0x40

/-- `IFF_LOOPBACK`. -/
def iffLoopback : UInt16 := 0x8

/-- `IFF_MULTICAST`. -/
def iffMulticast : UInt16 := 0x1000

/-! ### Attributes -/

/-- `RtParseResult`. -/
structure RtParseResult where
  addr : Option IpAddress := none
  iface : Option NetworkInterface := none
  deriving DecidableEq, Repr

/-- An unsigned index as an `int`. -/
def toInt32 (n : ℕ) : Int := if n < 2 ^ 31 then n else (n : Int) - 2 ^ 32

/-- The number that the bytes spell, the most significant first. -/
def ofBytes (bytes : List UInt8) : ℕ := bytes.foldl (fun acc b => 256 * acc + b.toNat) 0

/-- `ip::address_v6::is_link_local`. -/
def isLinkLocal : List UInt8 → Bool
  | b₀ :: b₁ :: _ => b₀ = 0xfe && b₁ &&& 0xc0 = 0x80
  | _ => false

/-- The body of the loop over the attributes: an attribute of the given type, with its payload. -/
def rtAttribute (cfg : MonitorConfig) (ifIndex : ℕ) (addrFamily : UInt8) (res : RtParseResult)
    (type : ℕ) (payload : List UInt8) : RtParseResult :=
  if type = ifaLabel then
    { res with iface := some ⟨payload.takeWhile (· ≠ 0), toInt32 ifIndex⟩ }
  else if type = ifaLocal then
    if addrFamily = afInet && cfg.enableIPv4 && 4 ≤ payload.length then
      { res with addr := some (.v4 (BitVec.ofNat 32 (ofBytes (payload.take 4)))) }
    else res
  else if type = ifaAddress then
    if addrFamily = afInet6 && cfg.enableIPv6 && 16 ≤ payload.length && isLinkLocal payload then
      { res with addr := some (.v6 (BitVec.ofNat 128 (ofBytes (payload.take 16)))
        (UInt32.ofNat ifIndex)) }
    else res
  else res

/-- The loop over the attributes (`RTA_OK`, `RTA_NEXT`): `bytes` is what is left of the buffer and
`remaining` what the code takes for its length. -/
def rtAttributes (cfg : MonitorConfig) (ifIndex : ℕ) (addrFamily : UInt8) :
    ℕ → RtParseResult → List UInt8 → ℕ → Option RtParseResult
  | 0, _, _, _ => none
  | fuel + 1, res, bytes, remaining =>
    if remaining < 4 then some res
    else
      match u16 bytes, u16 (bytes.drop 2) with
      | some rtaLen, some rtaType =>
        if rtaLen < 4 || remaining < rtaLen then some res
        else
          let payload := (bytes.drop 4).take (rtaLen - 4)
          if payload.length < rtaLen - 4 then none
          else
            rtAttributes cfg ifIndex addrFamily fuel
              (rtAttribute cfg ifIndex addrFamily res rtaType payload)
              (bytes.drop (align4 rtaLen))
              (if align4 rtaLen ≤ remaining then remaining - align4 rtaLen
               else remaining + 2 ^ 64 - align4 rtaLen)
      | _, _ => none

/-- What the system answers while one message is handled: to `SIOCGIFNAME`, to `SIOCGIFFLAGS`, and
to the creation of a server. -/
structure Answers where
  name : Option SysString
  flags : Option UInt16
  created : Created
  deriving DecidableEq, Repr

/-- What the attributes say; the name of the interface is asked for if only the address was found.
-/
def parseRtAttr (cfg : MonitorConfig) (k : Answers) (ifIndex : ℕ) (addrFamily : UInt8)
    (bytes : List UInt8) : Option RtParseResult :=
  (rtAttributes cfg ifIndex addrFamily (bytes.length + 1) {} bytes bytes.length).map fun res =>
    if res.iface.isNone && res.addr.isSome then
      { res with iface := k.name.map fun name => ⟨name, toInt32 ifIndex⟩ }
    else res

/-- How `parseBuffer` ends. -/
inductive ParseStatus where
  | done
  | expectMore
  | bufferTooSmall
  | error
  deriving DecidableEq, Repr

end Netlink

end Wsddn
