import Mathlib.Data.Finset.Basic
import Wsddn.Asio.Basic

/-!
# WSD messages (`WsdServerImpl::handleRequest` of `wsd_server.cpp`)

What one server says and how it answers: the messages that `WSDResponseBuilder` builds, and
`handleRequest` with the suppression of repeated messages.  A document is known to this code only
through the answers to its XPath queries, so `Soap` is these answers.

* `Responder.handleRequest_calls` : a request leads to no call of `std::terminate`.
* `Responder.handleRequest_udp` : the answer to a UDP request is a `ProbeMatches` or a
  `ResolveMatches` with a message number of its own.
-/

namespace Wsddn

open SysString

namespace SysString

/-- `partition_at_first` : the parts before and after the first `c`. -/
def partitionAtFirst (c : UInt8) : SysString → Option (SysString × SysString)
  | [] => none
  | b :: bs =>
    if b = c then some ([], bs)
    else (partitionAtFirst c bs).map fun (first, rest) => (b :: first, rest)

/-- `partition_at_last` : the parts before and after the last `c`. -/
def partitionAtLast (c : UInt8) (str : SysString) : Option (SysString × SysString) :=
  (partitionAtFirst c str.reverse).map fun (last, rest) => (rest.reverse, last.reverse)

end SysString

/-- `g_maxKnownMessages`. -/
def maxKnownMessages : ℕ := 50

/-- The namespace of the addressing. -/
def wsaUri : SysString := ofLiteral "http://schemas.xmlsoap.org/ws/2004/08/addressing"

/-- The namespace of the discovery. -/
def wsdUri : SysString := ofLiteral "http://schemas.xmlsoap.org/ws/2005/04/discovery"

/-- The namespace of the devices. -/
def wsdpUri : SysString := ofLiteral "http://schemas.xmlsoap.org/ws/2006/02/devprof"

/-- The namespace of the transfer. -/
def wsdtUri : SysString := ofLiteral "http://schemas.xmlsoap.org/ws/2004/09/transfer"

/-- The address that announcements go to. -/
def wsdUrn : SysString := ofLiteral "urn:schemas-xmlsoap-org:ws:2005:04:discovery"

/-! ### Messages -/

/-- `wsd:AppSequence`. -/
structure AppSequence where
  instanceId : ℕ
  messageNumber : ℕ
  deriving DecidableEq, Repr

/-- The bodies that a message can have (`BodyType`). -/
inductive Body where
  | hello (endpointIdentifier : SysString) (httpEndpoint : Endpoint) (httpPath : SysString)
  | bye (endpointIdentifier : SysString)
  | probeMatch (endpointIdentifier : SysString)
  | resolveMatch (endpointIdentifier : SysString) (httpEndpoint : Endpoint) (httpPath : SysString)
  | responseToGet (endpointIdentifier friendlyName fullComputerName : SysString)
      (hostAddr : IpAddress)
  deriving DecidableEq, Repr

/-- The host announces itself. -/
def Body.isHello : Body → Bool
  | .hello .. => true
  | _ => false

/-- The host takes its leave. -/
def Body.isBye : Body → Bool
  | .bye _ => true
  | _ => false

/-- An answer to a probe or to a resolve. -/
def Body.isMatch : Body → Bool
  | .probeMatch _ | .resolveMatch .. => true
  | _ => false

theorem Body.isHello_of_isBye {b : Body} (h : b.isBye = true) : b.isHello = false := by
  cases b <;> simp_all [Body.isBye, Body.isHello]

theorem Body.isHello_of_isMatch {b : Body} (h : b.isMatch = true) : b.isHello = false := by
  cases b <;> simp_all [Body.isMatch, Body.isHello]

theorem Body.isMatch_of_isBye {b : Body} (h : b.isBye = true) : b.isMatch = false := by
  cases b <;> simp_all [Body.isBye, Body.isMatch]

/-- The host is announced. -/
def Body.announces (b : Body) : Bool := b.isHello || b.isMatch

/-- A message that is sent, without the UUIDs that are drawn for it. -/
structure Message where
  wsaTo : SysString
  action : SysString
  relatesTo : Option SysString
  appSequence : Option AppSequence
  body : Body
  deriving DecidableEq, Repr

/-- The fields of a `WSDResponseBuilder`. -/
structure WSDResponseBuilder where
  wsaTo : Option SysString := none
  action : Option SysString := none
  relatesTo : Option SysString := none
  appSequence : Option AppSequence := none
  body : Option Body := none
  deriving DecidableEq, Repr

/-- The message, `none` if `build` calls `std::terminate`. -/
def WSDResponseBuilder.build (b : WSDResponseBuilder) : Option Message :=
  match b.wsaTo, b.action, b.body with
  | some wsaTo, some action, some body => some ⟨wsaTo, action, b.relatesTo, b.appSequence, body⟩
  | _, _, _ => none

/-- What the `Config` tells about the host, where its HTTP server is, and how wide a `size_t` is. -/
structure Host where
  endpointIdentifier : SysString
  instanceIdentifier : ℕ
  httpPath : SysString
  httpAddress : Endpoint
  /-- `winNetInfo().hostDescription`. -/
  hostDescription : SysString
  fullComputerName : SysString
  /-- The width of a `size_t`, in which messages are numbered. -/
  sizeBits : ℕ
  deriving DecidableEq, Repr

/-! ### Requests -/

/-- The first `wsd:Probe` of a document. -/
structure Probe where
  /-- There is a `wsd:Scopes`. -/
  scopes : Bool
  /-- The content of the first `wsd:Types`. -/
  types : Option SysString
  /-- The namespaces in scope there, by prefix. -/
  namespaces : List (SysString × SysString)
  deriving DecidableEq, Repr

/-- The types of a probe name a device of the devices profile. -/
def Probe.asksForDevice (probe : Probe) : Bool :=
  if probe.scopes then false
  else
    match probe.types with
    | none => false
    | some types =>
      let (pre, type) := (types.partitionAtFirst ':'.toNat.toUInt8).getD ([], [])
      if pre.isEmpty || type ≠ ofLiteral "Device" then false
      else probe.namespaces.lookup pre = some wsdpUri

/-- A document, by the answers to the queries that are made about it. -/
structure Soap where
  /-- There is a `/soap:Envelope/soap:Header`. -/
  header : Bool
  messageId : SysString
  action : SysString
  probe : Option Probe
  /-- The address of the endpoint reference of a `wsd:Resolve`. -/
  resolveAddr : SysString
  deriving DecidableEq, Repr

/-- How a request has come. -/
inductive RequestType where
  | udp
  | http
  deriving DecidableEq, Repr

/-- What is observed of a `WsdServerImpl` besides its state: its calls that matter for its life
cycle. -/
inductive Call where
  | handleRequest (type : RequestType)
  | udpStop
  | httpStop
  /-- `std::terminate`. -/
  | terminate
  /-- `m_udpServer` or `m_httpServer` is used when it is null. -/
  | nullDeref
  deriving DecidableEq, Repr

/-- The part of a `WsdServerImpl` that makes messages and answers requests. -/
structure Responder where
  messageNumber : ℕ := 0
  knownMessageIds : Finset SysString := ∅
  /-- The newest in front. -/
  knownMessageIdsLRU : List SysString := []
  /-- The calls so far. -/
  calls : List Call := []
  deriving DecidableEq

namespace Responder

/-- A call is made. -/
def call (w : Responder) (c : Call) : Responder := { w with calls := w.calls ++ [c] }

/-- The next message number. -/
def appSequence (host : Host) (w : Responder) : AppSequence :=
  ⟨host.instanceIdentifier, w.messageNumber⟩

/-- `m_messageNumber++`, which wraps around. -/
def nextMessage (host : Host) (w : Responder) : Responder :=
  { w with messageNumber := (w.messageNumber + 1) % 2 ^ host.sizeBits }

/-- Whether the id is new, and the containers afterwards: a new id is remembered, and the oldest one
is forgotten for it. -/
def checkNewMessageId (w : Responder) (messageId : SysString) : Bool × Responder :=
  if messageId ∈ w.knownMessageIds then (false, w)
  else
    let known := insert messageId w.knownMessageIds
    if w.knownMessageIdsLRU.length = maxKnownMessages then
      (true, { w with
        knownMessageIds := (w.knownMessageIdsLRU.getLast?).elim known known.erase
        knownMessageIdsLRU := messageId :: w.knownMessageIdsLRU.dropLast })
    else
      (true, { w with
        knownMessageIds := known
        knownMessageIdsLRU := messageId :: w.knownMessageIdsLRU })

/-- A probe is answered if it asks for devices. -/
def handleProbe (host : Host) (doc : Soap) (b : WSDResponseBuilder) (w : Responder) :
    Bool × WSDResponseBuilder × Responder :=
  match doc.probe with
  | none => (false, b, w)
  | some probe =>
    if !probe.asksForDevice then (false, b, w)
    else
      (true, { b with action := some (wsdUri ++ ofLiteral "/ProbeMatches")
                      body := some (.probeMatch host.endpointIdentifier)
                      appSequence := some (w.appSequence host) }, w.nextMessage host)

/-- A resolve is answered if it names the endpoint of the host. -/
def handleResolve (host : Host) (doc : Soap) (b : WSDResponseBuilder) (w : Responder) :
    Bool × WSDResponseBuilder × Responder :=
  if doc.resolveAddr.isEmpty then (false, b, w)
  else if doc.resolveAddr ≠ host.endpointIdentifier then (false, b, w)
  else
    (true, { b with action := some (wsdUri ++ ofLiteral "/ResolveMatches")
                    body := some (.resolveMatch host.endpointIdentifier host.httpAddress
                      host.httpPath)
                    appSequence := some (w.appSequence host) }, w.nextMessage host)

/-- The description of the host; it takes no message number. -/
def handleGet (host : Host) (b : WSDResponseBuilder) (w : Responder) :
    Bool × WSDResponseBuilder × Responder :=
  (true, { b with action := some (wsdtUri ++ ofLiteral "/GetResponse")
                  body := some (.responseToGet host.endpointIdentifier host.hostDescription
                    host.fullComputerName host.httpAddress.1) }, w)

/-- The request goes to the handler of its action. -/
def dispatch (host : Host) (type : RequestType) (doc : Soap) (w : Responder) :
    Bool × WSDResponseBuilder × Responder :=
  let (uri, method) := (doc.action.partitionAtLast '/'.toNat.toUInt8).getD ([], [])
  match type with
  | .udp =>
    if uri ≠ wsdUri then (false, {}, w)
    else if method = ofLiteral "Probe" then handleProbe host doc {} w
    else if method = ofLiteral "Resolve" then handleResolve host doc {} w
    else (false, {}, w)
  | .http =>
    if uri ≠ wsdtUri then (false, {}, w)
    else if method = ofLiteral "Get" then handleGet host {} w
    else (false, {}, w)

/-- The answer that a handler has prepared is completed and built. -/
def reply (doc : Soap) : Bool × WSDResponseBuilder × Responder → Option Message × Responder
  | (false, _, w) => (none, w)
  | (true, b, w) =>
    match ({ b with wsaTo := some (wsaUri ++ ofLiteral "/role/anonymous")
                    relatesTo := some doc.messageId } : WSDResponseBuilder).build with
    | none => (none, w.call .terminate)
    | some m => (some m, w)

/-- The answer to a request, if there is one. -/
def handleRequest (host : Host) (type : RequestType) (doc : Soap) (w : Responder) :
    Option Message × Responder :=
  let w := w.call (.handleRequest type)
  if !doc.header then (none, w)
  else
    match w.checkNewMessageId doc.messageId with
    | (false, w) => (none, w)
    | (true, w) => reply doc (dispatch host type doc w)

variable {host : Host} {type : RequestType} {doc : Soap} {w : Responder}

@[simp] theorem call_calls (c : Call) : (w.call c).calls = w.calls ++ [c] := rfl

@[simp] theorem call_messageNumber (c : Call) : (w.call c).messageNumber = w.messageNumber := rfl

@[simp] theorem checkNewMessageId_calls (messageId : SysString) :
    (w.checkNewMessageId messageId).2.calls = w.calls := by
  unfold checkNewMessageId
  dsimp only
  split_ifs <;> rfl

@[simp] theorem checkNewMessageId_messageNumber (messageId : SysString) :
    (w.checkNewMessageId messageId).2.messageNumber = w.messageNumber := by
  unfold checkNewMessageId
  dsimp only
  split_ifs <;> rfl

/-- What a handler has prepared: nothing, or an answer that can be built. -/
structure Prepared (host : Host) (type : RequestType) (w : Responder)
    (r : Bool × WSDResponseBuilder × Responder) : Prop where
  calls : r.2.2.calls = w.calls
  refused : r.1 = false → r.2.2.messageNumber = w.messageNumber
  action : r.1 = true → r.2.1.action.isSome
  udp : type = .udp → r.1 = true → r.2.1.appSequence = some (w.appSequence host) ∧
    r.2.2.messageNumber = (w.nextMessage host).messageNumber ∧
    (r.2.1.body = some (.probeMatch host.endpointIdentifier) ∨
      r.2.1.body = some (.resolveMatch host.endpointIdentifier host.httpAddress host.httpPath))
  body : r.1 = true → r.2.1.body.isSome

theorem prepared_false (b : WSDResponseBuilder) : Prepared host type w (false, b, w) :=
  ⟨rfl, fun _ => rfl, by simp, by simp, by simp⟩

theorem handleProbe_prepared (b : WSDResponseBuilder) :
    Prepared host type w (handleProbe host doc b w) := by
  unfold handleProbe
  split
  · exact prepared_false b
  · split_ifs
    · exact prepared_false b
    · exact ⟨rfl, by simp, by simp, fun _ _ => ⟨rfl, rfl, .inl rfl⟩, by simp⟩

theorem handleResolve_prepared (b : WSDResponseBuilder) :
    Prepared host type w (handleResolve host doc b w) := by
  unfold handleResolve
  split_ifs
  · exact prepared_false b
  · exact prepared_false b
  · exact ⟨rfl, by simp, by simp, fun _ _ => ⟨rfl, rfl, .inr rfl⟩, by simp⟩

theorem dispatch_prepared : Prepared host type w (dispatch host type doc w) := by
  unfold dispatch
  dsimp only
  split
  · split_ifs
    · exact prepared_false _
    · exact handleProbe_prepared _
    · exact handleResolve_prepared _
    · exact prepared_false _
  · split_ifs
    · exact prepared_false _
    · exact ⟨rfl, by simp [handleGet], by simp [handleGet], by simp, by simp [handleGet]⟩
    · exact prepared_false _

/-- A prepared answer is built, with the body and the message number it was prepared with. -/
theorem reply_eq (doc : Soap) {r : Bool × WSDResponseBuilder × Responder}
    (h : Prepared host type w r) :
    (r.1 = false ∧ reply doc r = (none, r.2.2)) ∨
    ∃ m, r.1 = true ∧ reply doc r = (some m, r.2.2) ∧ some m.body = r.2.1.body ∧
      m.appSequence = r.2.1.appSequence := by
  obtain ⟨handled, b, w'⟩ := r
  cases handled with
  | false => exact .inl ⟨rfl, rfl⟩
  | true =>
    obtain ⟨action, hact⟩ := Option.isSome_iff_exists.1 (h.action rfl)
    obtain ⟨body, hbody⟩ := Option.isSome_iff_exists.1 (h.body rfl)
    refine .inr ⟨⟨wsaUri ++ ofLiteral "/role/anonymous", action, some doc.messageId,
      b.appSequence, body⟩, rfl, ?_, hbody.symm, rfl⟩
    dsimp only at hact hbody
    simp only [reply, WSDResponseBuilder.build, hact, hbody]

/-- A request is recorded, and leads to no other call: in particular to no `std::terminate`. -/
theorem handleRequest_calls :
    (handleRequest host type doc w).2.calls = w.calls ++ [.handleRequest type] := by
  unfold handleRequest
  dsimp only
  split_ifs
  · rfl
  · have hc := checkNewMessageId_calls (w := w.call (.handleRequest type)) doc.messageId
    split
    · rename_i w' hw
      rw [hw] at hc
      exact hc
    · rename_i w' hw
      rw [hw] at hc
      have hp : Prepared host type w' (dispatch host type doc w') := dispatch_prepared
      rcases reply_eq doc hp with ⟨-, he⟩ | ⟨m, -, he, -⟩
      · rw [he, hp.calls]
        exact hc
      · rw [he, hp.calls]
        exact hc

/-- **The answer to a UDP request** is a `ProbeMatches` or a `ResolveMatches`, and it uses up one
message number; a request that is not answered uses none. -/
theorem handleRequest_udp (host : Host) (doc : Soap) (w : Responder) :
    ((handleRequest host .udp doc w).1 = none ∧
      (handleRequest host .udp doc w).2.messageNumber = w.messageNumber) ∨
    ∃ m, (handleRequest host .udp doc w).1 = some m ∧ m.body.isMatch = true ∧
      m.appSequence = some (w.appSequence host) ∧
      (handleRequest host .udp doc w).2.messageNumber = (w.nextMessage host).messageNumber := by
  unfold handleRequest
  dsimp only
  split_ifs
  · exact .inl ⟨rfl, rfl⟩
  · have hn := checkNewMessageId_messageNumber (w := w.call (.handleRequest .udp)) doc.messageId
    rw [call_messageNumber] at hn
    split
    · rename_i w' hw
      rw [hw] at hn
      exact .inl ⟨rfl, hn⟩
    · rename_i w' hw
      rw [hw] at hn
      have hp : Prepared host .udp w' (dispatch host .udp doc w') := dispatch_prepared
      rcases reply_eq doc hp with ⟨hr, he⟩ | ⟨m, hr, he, hbody, hseq⟩
      · rw [he]
        exact .inl ⟨rfl, (hp.refused hr).trans hn⟩
      · obtain ⟨hseq', hnum, hmatch⟩ := hp.udp rfl hr
        rw [he]
        dsimp only at hn
        refine .inr ⟨m, rfl, ?_, ?_, by rw [hnum, nextMessage, nextMessage, hn]⟩
        · rcases hmatch with hm | hm <;> rw [hm] at hbody <;>
            rw [Option.some.inj hbody] <;> rfl
        · rw [hseq, hseq', appSequence, appSequence, hn]

end Responder

end Wsddn
