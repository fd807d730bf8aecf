import Wsddn.Http.Server
import Wsddn.Machine.Basic
import Wsddn.Udp.Server
import Wsddn.Wsd.Request

/-!
# One WSD server (`WsdServerImpl` of `wsd_server.cpp`)

A `WsdServerImpl` owns a UDP server and an HTTP server and is the handler of both.  Their
completion handlers hold them alive, so the two objects stay part of the state after the pointers
to them are reset.  `machine` is one server after `start` has returned: its events are `stop` and
everything that the event loop can run for it, in any order.
-/

namespace Wsddn

open SysString

/-- `WsdServer::State`. -/
inductive ServerState where
  | notStarted
  | running
  | stopped
  deriving DecidableEq, Repr

/-- What a server uses from outside. -/
structure WsdEnv (Ctx : Type*) where
  host : Host
  xml : XmlPush Ctx Soap
  /-- `XmlDoc::readMemory`, `none` if it raises. -/
  readMemory : List UInt8 → Option Soap

/-- The fields of a `WsdServerImpl`, with the servers that it owns. -/
structure WsdServer (Ctx : Type*) where
  state : ServerState := .notStarted
  /-- `m_udpServer` is not null. -/
  udpServer : Bool := true
  /-- `m_httpServer` is not null. -/
  httpServer : Bool := true
  udp : UdpServer Message
  http : HttpServer Ctx Message := {}
  responder : Responder := {}
  /-- An exception has left the event loop. -/
  raised : Bool := false

namespace WsdServer

variable {Ctx : Type*} (E : WsdEnv Ctx)

/-- A new server for an address of one family. -/
def create (isV4 : Bool) (multicastDest : Endpoint) : WsdServer Ctx :=
  { udp := { isV4, multicastDest } }

/-- A call is noted. -/
def call (s : WsdServer Ctx) (c : Call) : WsdServer Ctx :=
  { s with responder := s.responder.call c }

/-- Use `m_udpServer`. -/
def withUdp (s : WsdServer Ctx) (f : UdpServer Message → UdpServer Message) : WsdServer Ctx :=
  if s.udpServer then { s with udp := f s.udp } else s.call .nullDeref

/-- Use `m_httpServer`. -/
def withHttp (s : WsdServer Ctx) (f : HttpServer Ctx Message → HttpServer Ctx Message) :
    WsdServer Ctx :=
  if s.httpServer then { s with http := f s.http } else s.call .nullDeref

/-- A message is built and broadcast. -/
def broadcast (s : WsdServer Ctx) (b : WSDResponseBuilder) (continuation : Bool) : WsdServer Ctx :=
  match b.build with
  | none => s.call .terminate
  | some m => s.withUdp fun u => u.broadcast m continuation

/-- The Hello is broadcast, with a number of its own. -/
def sendHello (s : WsdServer Ctx) : WsdServer Ctx :=
  { s with responder := s.responder.nextMessage E.host }.broadcast
    { wsaTo := some wsdUrn
      action := some (wsdUri ++ ofLiteral "/Hello")
      appSequence := some (s.responder.appSequence E.host)
      body := some (.hello E.host.endpointIdentifier E.host.httpAddress E.host.httpPath) } false

/-- The Bye is broadcast; when it has been repeated often enough, the server is torn down. -/
def sendBye (s : WsdServer Ctx) : WsdServer Ctx :=
  { s with responder := s.responder.nextMessage E.host }.broadcast
    { wsaTo := some wsdUrn
      action := some (wsdUri ++ ofLiteral "/Bye")
      appSequence := some (s.responder.appSequence E.host)
      body := some (.bye E.host.endpointIdentifier) } true

/-- `listen` raises in the HTTP server if `listenOk` is not set. -/
def start (s : WsdServer Ctx) (listenOk : Bool) : WsdServer Ctx × Outcome :=
  if s.state ≠ .notStarted then (s.call .terminate, .returned)
  else
    let s := s.withUdp fun u => u.start
    let o := (s.http.start listenOk).2
    let s := s.withHttp fun http => (http.start listenOk).1
    if o = .raised then ({ s with raised := true }, .raised)
    else (sendHello E { s with state := .running }, .returned)

/-- `m_udpServer->stop()`. -/
def udpStop (s : WsdServer Ctx) : WsdServer Ctx := (s.withUdp fun u => u.stop).call .udpStop

/-- `m_httpServer->stop()`. -/
def httpStop (s : WsdServer Ctx) : WsdServer Ctx := (s.withHttp fun http => http.stop).call .httpStop

/-- The part of `stop` that is not graceful. -/
def tearDown (s : WsdServer Ctx) : WsdServer Ctx :=
  { s.udpStop.httpStop with udpServer := false, httpServer := false, state := .stopped }

/-- What is not running needs no stop; a graceful one sends the Bye first. -/
def stop (s : WsdServer Ctx) (graceful : Bool) : WsdServer Ctx :=
  match s.state with
  | .notStarted => s.call .terminate
  | .running => if graceful then sendBye E s else s.tearDown
  | .stopped => s

/-- What cannot be read as a document is dropped. -/
def handleUdpRequest (w : Responder) (bytes : List UInt8) : Option Message × Responder :=
  match E.readMemory bytes with
  | none => (none, w)
  | some doc => w.handleRequest E.host .udp doc

/-- The server as the handler of its HTTP server. -/
def httpEnv : HttpEnv Ctx Soap Message Responder where
  httpPath := E.host.httpPath
  xml := E.xml
  handleHttpRequest w doc := w.handleRequest E.host .http doc

/-- The last action of a completion handler: `onFatalUdpError`, `onFatalHttpError` and the
continuation of a Bye all call `stop(false)`. -/
def finish (s : WsdServer Ctx) : Outcome → WsdServer Ctx
  | .returned => s
  | .fatal | .continuation => stop E s false
  | .raised => { s with raised := true }

/-- What can happen to a started server. -/
inductive Event where
  | stop (graceful : Bool)
  | udpRead (sock : UdpSocket) (ec : ErrorCode) (received : List Received)
  | udpSent (chain : ℕ) (ec : ErrorCode)
  | udpTimer (chain : ℕ) (ec : ErrorCode)
  | httpAccept (ec : ErrorCode) (accepted : Accepted) (listenOk : Bool)
  | httpTimer (ec : ErrorCode)
  | httpGC (k now : ℕ)
  | httpRead (con : ℕ) (ec : ErrorCode) (bytes : List UInt8)
  | httpWrite (con : ℕ) (ec : ErrorCode)
  deriving DecidableEq, Repr

/-- What happens in an event; nothing happens after an exception has left the event loop. -/
def step (s : WsdServer Ctx) (l : Event) : Option (WsdServer Ctx) :=
  if s.raised then none
  else
    match l with
    | .stop graceful => some (stop E s graceful)
    | .udpRead sock ec received =>
      (s.udp.readHandler (handleUdpRequest E) s.responder sock ec received).map fun (u, w, o) =>
        finish E { s with udp := u, responder := w } o
    | .udpSent i ec => (s.udp.sendHandler i ec).map fun (u, o) => finish E { s with udp := u } o
    | .udpTimer i ec => (s.udp.timerHandler i ec).map fun u => { s with udp := u }
    | .httpAccept ec a listenOk =>
      (s.http.acceptHandler ec a listenOk).map fun (http, o) => finish E { s with http } o
    | .httpTimer ec => (s.http.gcExpires ec).map fun http => { s with http }
    | .httpGC k now => (s.http.gcHandler k now).map fun (http, o) => finish E { s with http } o
    | .httpRead id ec bytes =>
      (s.http.readHandler (httpEnv E) s.responder id ec bytes).map fun (http, w) =>
        { s with http, responder := w }
    | .httpWrite id ec => (s.http.writeHandler id ec).map fun http => { s with http }

/-- A server after `start` has returned. -/
def machine : Machine (WsdServer Ctx) Event where
  init s := ∃ isV4 multicastDest, start E (create isV4 multicastDest) true = (s, .returned)
  step := step E

end WsdServer

end Wsddn
