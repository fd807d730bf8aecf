import Wsddn.Http.Request

/-!
# Addresses, and how asynchronous operations end

What the servers use of asio: the addresses, and the error codes that completion handlers are
called with.  A completion handler never runs inside the function that starts its operation; the
event loop calls it later, so every handler is one event of the models, and it is atomic.
-/

namespace Wsddn

/-- `ip::address`. -/
inductive IpAddress where
  | v4 (bits : BitVec 32)
  | v6 (bits : BitVec 128) (scopeId : UInt32)
  deriving DecidableEq, Repr

/-- `ip::address::is_v4`. -/
def IpAddress.isV4 : IpAddress → Bool
  | .v4 _ => true
  | .v6 .. => false

/-- An address and a port. -/
abbrev Endpoint := IpAddress × UInt16

/-- Two interfaces are the same if they have the same name and the same index. -/
structure NetworkInterface where
  name : SysString
  index : Int
  deriving DecidableEq, Repr

/-- The error codes that the handlers tell apart. -/
inductive ErrorCode where
  | success
  | operationAborted
  | other
  deriving DecidableEq, Repr

/-- How a completion handler ends.  The calls that tear a server down are always its last action,
so they are part of the result. -/
inductive Outcome where
  | returned
  /-- The handler calls `onFatalUdpError` or `onFatalHttpError` and returns. -/
  | fatal
  /-- The handler calls the continuation of the operation and returns. -/
  | continuation
  /-- An exception leaves the handler, and with it the event loop. -/
  | raised
  deriving DecidableEq, Repr

end Wsddn
