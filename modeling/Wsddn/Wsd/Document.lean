import Wsddn.Text.Decimal
import Wsddn.Wsd.Placeholders
import Wsddn.Wsd.Request
import Wsddn.Xml.Document

/-!
# Messages as documents (`WSDResponseBuilder::build` of `wsd_server.cpp`)

The documents that `build` makes of the messages, and the queries that `handleRequest` makes about
a document.  Writing a document as text and reading text are functions of libxml2; here is what is
written and what is asked.

* `ofDocument_document` : what a server that is sent a message of another server reads.
* `Responder.handleRequest_document` : **a message is not a request**: no server answers the message of a
  server, whatever the state of either.
* `Responder.handleRequest_answers` : what an answer is an answer to.
-/

namespace Wsddn

open SysString

namespace SysString

theorem partitionAtFirst_append {c : UInt8} {first : SysString} (h : c ∉ first)
    (rest : SysString) : partitionAtFirst c (first ++ c :: rest) = some (first, rest) := by
  induction first with
  | nil => simp [partitionAtFirst]
  | cons b bs ih =>
    obtain ⟨hb, hbs⟩ := not_or.1 (mt List.mem_cons.2 h)
    rw [List.cons_append, partitionAtFirst, if_neg (Ne.symm hb), ih hbs]
    rfl

theorem partitionAtLast_append {c : UInt8} {last : SysString} (h : c ∉ last) (rest : SysString) :
    partitionAtLast c (rest ++ c :: last) = some (rest, last) := by
  have hrev : (rest ++ c :: last).reverse = last.reverse ++ c :: rest.reverse := by simp
  rw [partitionAtLast, hrev, partitionAtFirst_append (by simpa using h)]
  simp

theorem eq_of_partitionAtLast {c : UInt8} {str first last : SysString}
    (h : str.partitionAtLast c = some (first, last)) : str = first ++ c :: last := by
  have hfirst : ∀ {s a b : SysString}, partitionAtFirst c s = some (a, b) → s = a ++ c :: b := by
    intro s
    induction s with
    | nil => simp [partitionAtFirst]
    | cons x xs ih =>
      intro a b hs
      rw [partitionAtFirst] at hs
      split_ifs at hs with hx
      · obtain ⟨rfl, rfl⟩ := Prod.mk.inj (Option.some.inj hs)
        rw [hx, List.nil_append]
      · obtain ⟨⟨a', b'⟩, hab, he⟩ := Option.map_eq_some_iff.1 hs
        obtain ⟨rfl, rfl⟩ := Prod.mk.inj he
        rw [ih hab, List.cons_append]
  obtain ⟨⟨a, b⟩, hab, he⟩ := Option.map_eq_some_iff.1 h
  obtain ⟨rfl, rfl⟩ := Prod.mk.inj he
  rw [← List.reverse_reverse str, hfirst hab]
  simp

/-- `xml_str` : a C string ends at the first null byte. -/
def xmlStr (str : SysString) : SysString := str.takeWhile (· ≠ 0)

theorem xmlStr_of_notMem {str : SysString} (h : 0 ∉ str) : xmlStr str = str := by
  induction str with
  | nil => rfl
  | cons c cs ih =>
    obtain ⟨hc, hcs⟩ := not_or.1 (mt List.mem_cons.2 h)
    rw [xmlStr, List.takeWhile_cons_of_pos (by simpa using Ne.symm hc)]
    exact congrArg _ (ih hcs)

end SysString

/-! ### Names -/

/-- The namespace of SOAP. -/
def soapUri : SysString := ofLiteral "http://www.w3.org/2003/05/soap-envelope"

/-- The namespace of published computers. -/
def pubUri : SysString := ofLiteral "http://schemas.microsoft.com/windows/pub/2005/07"

/-- The namespace of the metadata exchange. -/
def wsxUri : SysString := ofLiteral "http://schemas.xmlsoap.org/ws/2004/09/mex"

/-- The namespace of Plug and Play. -/
def pnpxUri : SysString := ofLiteral "http://schemas.microsoft.com/windows/pnpx/2005/10"

/-- The namespaces that a message declares. -/
inductive Ns where
  | soap
  | wsa
  | wsd
  | pub
  | wsx
  | wsdp
  | pnpx
  deriving DecidableEq, Repr

namespace Ns

/-- What the namespace is called. -/
def uri : Ns → SysString
  | soap => soapUri
  | wsa => wsaUri
  | wsd => wsdUri
  | pub => pubUri
  | wsx => wsxUri
  | wsdp => wsdpUri
  | pnpx => pnpxUri

/-- The prefix of the namespace. -/
def pre : Ns → SysString
  | soap => ofLiteral "soap"
  | wsa => ofLiteral "wsa"
  | wsd => ofLiteral "wsd"
  | pub => ofLiteral "pub"
  | wsx => ofLiteral "wsx"
  | wsdp => ofLiteral "wsdp"
  | pnpx => ofLiteral "pnpx"

/-- All namespaces. -/
def all : List Ns := [soap, wsa, wsd, pub, wsx, wsdp, pnpx]

theorem uri_inj {ns ns' : Ns} : ns.uri = ns'.uri ↔ ns = ns' := by
  have hnodup : (all.map uri).Nodup := by decide +kernel
  have hmem : ∀ ns, ns ∈ all := by
    intro ns
    cases ns <;> decide
  exact ⟨fun h => List.inj_on_of_nodup_map hnodup (hmem ns) (hmem ns') h, fun h => h ▸ rfl⟩

end Ns

/-- A name with the namespace it is in. -/
abbrev QName := SysString × SysString

/-- The elements of the messages and of the requests. -/
inductive Tag where
  | envelope | header | body
  | wsaTo | action | messageID | relatesTo | endpointReference | address
  | appSequence | hello | bye | probe | probeMatches | probeMatch | resolve | resolveMatches
  | resolveMatch | scopes | types | xAddrs | metadataVersion
  | metadata | metadataSection
  | thisDevice | friendlyName | firmwareVersion | serialNumber | thisModel | manufacturer
  | modelName | relationship | host | hostTypes | serviceId
  | deviceCategory
  | computer
  deriving DecidableEq, Repr

namespace Tag

/-- The namespace of an element. -/
def ns : Tag → Ns
  | envelope | header | body => .soap
  | wsaTo | action | messageID | relatesTo | endpointReference | address => .wsa
  | appSequence | hello | bye | probe | probeMatches | probeMatch | resolve | resolveMatches
  | resolveMatch | scopes | types | xAddrs | metadataVersion => .wsd
  | metadata | metadataSection => .wsx
  | thisDevice | friendlyName | firmwareVersion | serialNumber | thisModel | manufacturer
  | modelName | relationship | host | hostTypes | serviceId => .wsdp
  | deviceCategory => .pnpx
  | computer => .pub

/-- The local name of an element. -/
def name : Tag → SysString
  | envelope => ofLiteral "Envelope"
  | header => ofLiteral "Header"
  | body => ofLiteral "Body"
  | wsaTo => ofLiteral "To"
  | action => ofLiteral "Action"
  | messageID => ofLiteral "MessageID"
  | relatesTo => ofLiteral "RelatesTo"
  | endpointReference => ofLiteral "EndpointReference"
  | address => ofLiteral "Address"
  | appSequence => ofLiteral "AppSequence"
  | hello => ofLiteral "Hello"
  | bye => ofLiteral "Bye"
  | probe => ofLiteral "Probe"
  | probeMatches => ofLiteral "ProbeMatches"
  | probeMatch => ofLiteral "ProbeMatch"
  | resolve => ofLiteral "Resolve"
  | resolveMatches => ofLiteral "ResolveMatches"
  | resolveMatch => ofLiteral "ResolveMatch"
  | scopes => ofLiteral "Scopes"
  | types => ofLiteral "Types"
  | xAddrs => ofLiteral "XAddrs"
  | metadataVersion => ofLiteral "MetadataVersion"
  | metadata => ofLiteral "Metadata"
  | metadataSection => ofLiteral "MetadataSection"
  | thisDevice => ofLiteral "ThisDevice"
  | friendlyName => ofLiteral "FriendlyName"
  | firmwareVersion => ofLiteral "FirmwareVersion"
  | serialNumber => ofLiteral "SerialNumber"
  | thisModel => ofLiteral "ThisModel"
  | manufacturer => ofLiteral "Manufacturer"
  | modelName => ofLiteral "ModelName"
  | relationship => ofLiteral "Relationship"
  | host => ofLiteral "Host"
  | hostTypes => ofLiteral "Types"
  | serviceId => ofLiteral "ServiceId"
  | deviceCategory => ofLiteral "DeviceCategory"
  | computer => ofLiteral "Computer"

/-- The name of an element with its namespace. -/
def qname (tag : Tag) : QName := (tag.ns.uri, tag.name)

/-- All elements. -/
def all : List Tag :=
  [envelope, header, body, wsaTo, action, messageID, relatesTo, endpointReference, address,
    appSequence, hello, bye, probe, probeMatches, probeMatch, resolve, resolveMatches, resolveMatch,
    scopes, types, xAddrs, metadataVersion, metadata, metadataSection, thisDevice, friendlyName,
    firmwareVersion, serialNumber, thisModel, manufacturer, modelName, relationship, host, hostTypes,
    serviceId, deviceCategory, computer]

@[simp] theorem qname_inj {tag tag' : Tag} : tag.qname = tag'.qname ↔ tag = tag' := by
  have hnodup : (all.map fun t => (t.ns, t.name)).Nodup := by decide +kernel
  have hmem : ∀ tag, tag ∈ all := by
    intro tag
    cases tag <;> decide
  refine ⟨fun h => ?_, fun h => h ▸ rfl⟩
  obtain ⟨huri, hname⟩ := Prod.mk.inj h
  exact List.inj_on_of_nodup_map hnodup (hmem tag) (hmem tag')
    (Prod.ext (Ns.uri_inj.1 huri) hname)

end Tag

/-! ### What is written -/

/-- What `build` takes from outside. -/
structure DocumentEnv where
  /-- `ip::address::to_string`. -/
  toString : IpAddress → SysString
  /-- The copy of the metadata template with its placeholders replaced, if there is a template. -/
  metadata : Option (ResponseToGet → XmlNode QName UInt8)

/-- The random UUIDs that are drawn for one message. -/
structure Urns where
  messageId : SysString
  sequenceId : SysString
  deriving DecidableEq, Repr

/-- The URL of an HTTP server; the scope of an IPv6 address is left out. -/
def makeHttpUrl (toString : IpAddress → SysString) (endp : Endpoint) : SysString :=
  match endp.1 with
  | .v4 bits =>
    ofLiteral "http://" ++ toString (.v4 bits) ++ ofLiteral ":" ++ toDecimal endp.2.toNat
  | .v6 bits _ =>
    ofLiteral "http://[" ++ toString (.v6 bits 0) ++ ofLiteral "]:" ++ toDecimal endp.2.toNat

namespace WSDResponseBuilder

/-- `XmlNode::newChild` and the calls of `newAttr` on its result. -/
def newChild (tag : Tag) (properties : List (SysString × SysString))
    (children : List (XmlNode QName UInt8)) : XmlNode QName UInt8 :=
  .element tag.ns.pre tag.qname [] (properties.map fun a => (a.1, xmlStr a.2)) children

/-- `XmlNode::newTextChild`. -/
def newTextChild (tag : Tag) (content : SysString) : XmlNode QName UInt8 :=
  newChild tag [] [.text (xmlStr content)]

/-- The endpoint reference of the host. -/
def addEndpointReference (address : SysString) : XmlNode QName UInt8 :=
  newChild .endpointReference [] [newTextChild .address address]

/-- The types of the host. -/
def addTypes : XmlNode QName UInt8 := newTextChild .types (ofLiteral "wsdp:Device pub:Computer")

/-- The version of the metadata is always the first one. -/
def addMetadataVersion : XmlNode QName UInt8 := newTextChild .metadataVersion (ofLiteral "1")

/-- The address of the HTTP server of the host. -/
def xaddr (D : DocumentEnv) (httpEndpoint : Endpoint) (httpPath : SysString) : SysString :=
  makeHttpUrl D.toString httpEndpoint ++ ofLiteral "/" ++ httpPath

/-- The metadata of a host without a template. -/
def defaultMetadata (val : ResponseToGet) : XmlNode QName UInt8 :=
  newChild .metadata []
    [newChild .metadataSection [(ofLiteral "Dialect", wsdpUri ++ ofLiteral "/ThisDevice")]
      [newChild .thisDevice []
        [newTextChild .friendlyName val.friendlyName,
          newTextChild .firmwareVersion (ofLiteral "1.0"),
          newTextChild .serialNumber (ofLiteral "1")]],
    newChild .metadataSection [(ofLiteral "Dialect", wsdpUri ++ ofLiteral "/ThisModel")]
      [newChild .thisModel []
        [newTextChild .manufacturer (ofLiteral "wsddn"),
          newTextChild .modelName (ofLiteral "wsddn"),
          newTextChild .deviceCategory (ofLiteral "Computers")]],
    newChild .metadataSection [(ofLiteral "Dialect", wsdpUri ++ ofLiteral "/Relationship")]
      [newChild .relationship [(ofLiteral "Type", wsdpUri ++ ofLiteral "/host")]
        [newChild .host []
          [addEndpointReference val.endpointIdentifier,
            newTextChild .hostTypes (ofLiteral "pub:Computer"),
            newTextChild .serviceId val.endpointIdentifier,
            newTextChild .computer val.fullComputerName]]]]

/-- The child of the body. -/
def fill (D : DocumentEnv) : Body → XmlNode QName UInt8
  | .hello endpointIdentifier httpEndpoint httpPath =>
    newChild .hello []
      [addEndpointReference endpointIdentifier,
        newTextChild .xAddrs (xaddr D httpEndpoint httpPath), addMetadataVersion]
  | .bye endpointIdentifier => newChild .bye [] [addEndpointReference endpointIdentifier]
  | .probeMatch endpointIdentifier =>
    newChild .probeMatches []
      [newChild .probeMatch []
        [addEndpointReference endpointIdentifier, addTypes, addMetadataVersion]]
  | .resolveMatch endpointIdentifier httpEndpoint httpPath =>
    newChild .resolveMatches []
      [newChild .resolveMatch []
        [addEndpointReference endpointIdentifier, addTypes,
          newTextChild .xAddrs (xaddr D httpEndpoint httpPath), addMetadataVersion]]
  | .responseToGet endpointIdentifier friendlyName fullComputerName hostAddr =>
    let val := ⟨endpointIdentifier, friendlyName, fullComputerName, hostAddr⟩
    match D.metadata with
    | some expanded => expanded val
    | none => defaultMetadata val

/-- The children of the header. -/
def headerChildren (u : Urns) (m : Message) : List (XmlNode QName UInt8) :=
  [newTextChild .wsaTo m.wsaTo, newTextChild .action m.action, newTextChild .messageID u.messageId] ++
  m.relatesTo.toList.map (newTextChild .relatesTo) ++
  m.appSequence.toList.map fun s =>
    newChild .appSequence
      [(ofLiteral "InstanceId", toDecimal s.instanceId), (ofLiteral "SequenceId", u.sequenceId),
        (ofLiteral "MessageNumber", toDecimal s.messageNumber)] []

/-- The document of a message. -/
def document (D : DocumentEnv) (u : Urns) (m : Message) : XmlNode QName UInt8 :=
  .element Ns.soap.pre Tag.envelope.qname (Ns.all.map fun ns => (ns.pre, ns.uri)) []
    [newChild .header [] (headerChildren u m), newChild .body [] [fill D m.body]]

end WSDResponseBuilder

/-! ### What is read -/

/-- The answers to the queries that `handleRequest`, `handleProbe` and `handleResolve` make about a
document with the given root. -/
def Soap.ofDocument (root : XmlNode QName UInt8) : Soap :=
  let header := (XmlNode.select [Tag.envelope.qname, Tag.header.qname] [] [root]).head?
  let probe :=
    (XmlNode.select [Tag.envelope.qname, Tag.body.qname, Tag.probe.qname] [] [root]).head?
  { header := header.isSome
    messageId := header.elim [] fun h => XmlElement.string (h.select [Tag.messageID.qname])
    action := header.elim [] fun h => XmlElement.string (h.select [Tag.action.qname])
    probe := probe.map fun p =>
      let types := (p.select [Tag.types.qname]).head?
      { scopes := (p.select [Tag.scopes.qname]).head?.isSome
        types := types.map fun t => XmlNode.contents t.children
        namespaces := types.elim [] fun t => t.scope }
    resolveAddr := XmlElement.string (XmlNode.select [Tag.envelope.qname, Tag.body.qname,
      Tag.resolve.qname, Tag.endpointReference.qname, Tag.address.qname] [] [root]) }

open WSDResponseBuilder

variable {D : DocumentEnv} {u : Urns} {m : Message} {host : Host} {type : RequestType} {doc : Soap}
  {w : Responder}

section Named

variable {scope : Namespaces UInt8} {nodes : List (XmlNode QName UInt8)} {tag tag' : Tag}

@[simp] theorem named_newChild (properties : List (SysString × SysString))
    (children : List (XmlNode QName UInt8)) :
    XmlNode.named tag.qname scope (newChild tag' properties children :: nodes) =
      if tag' = tag then
        ⟨scope, properties.map fun a => (a.1, xmlStr a.2), children⟩ ::
          XmlNode.named tag.qname scope nodes
      else XmlNode.named tag.qname scope nodes := by
  simp [newChild]

@[simp] theorem named_newTextChild (content : SysString) :
    XmlNode.named tag.qname scope (newTextChild tag' content :: nodes) =
      if tag' = tag then
        ⟨scope, [], [.text (xmlStr content)]⟩ :: XmlNode.named tag.qname scope nodes
      else XmlNode.named tag.qname scope nodes := by
  simp [newTextChild]

/-- The header and the body of a message. -/
theorem select_document {names : List QName} (hne : names ≠ []) :
    XmlNode.select (Tag.envelope.qname :: Tag.header.qname :: names) [] [document D u m] =
      XmlNode.select names (Ns.all.map fun ns => (ns.pre, ns.uri)) (headerChildren u m) ∧
    XmlNode.select (Tag.envelope.qname :: Tag.body.qname :: names) [] [document D u m] =
      XmlNode.select names (Ns.all.map fun ns => (ns.pre, ns.uri)) [fill D m.body] := by
  obtain ⟨n, ns, rfl⟩ := List.exists_cons_of_ne_nil hne
  simp [document]

end Named

/-- **What a server reads** when it is sent a message of another server. -/
theorem ofDocument_document (D : DocumentEnv) (u : Urns) (m : Message) :
    (Soap.ofDocument (document D u m)).header = true ∧
    (Soap.ofDocument (document D u m)).messageId = xmlStr u.messageId ∧
    (Soap.ofDocument (document D u m)).action = xmlStr m.action := by
  simp [Soap.ofDocument, document, headerChildren, XmlElement.select]

/-! ### Messages and requests -/

/-- The actions are URIs and a method. -/
def Body.uri : Body → SysString
  | .responseToGet .. => wsdtUri
  | _ => wsdUri

/-- The method in the action. -/
def Body.method : Body → SysString
  | .hello .. => ofLiteral "Hello"
  | .bye _ => ofLiteral "Bye"
  | .probeMatch _ => ofLiteral "ProbeMatches"
  | .resolveMatch .. => ofLiteral "ResolveMatches"
  | .responseToGet .. => ofLiteral "GetResponse"

/-- A message has the action of its body. -/
def Message.Titled (m : Message) : Prop := m.action = m.body.uri ++ ofLiteral "/" ++ m.body.method

/-- What the handlers look at: the action of a request. -/
def Soap.Calls (doc : Soap) (uri method : SysString) : Prop :=
  doc.action = uri ++ ofLiteral "/" ++ method

theorem partition_action {uri method : SysString} (h : '/'.toNat.toUInt8 ∉ method) :
    (uri ++ ofLiteral "/" ++ method).partitionAtLast '/'.toNat.toUInt8 = some (uri, method) := by
  have hcons : uri ++ ofLiteral "/" ++ method = uri ++ '/'.toNat.toUInt8 :: method := by
    simp [ofLiteral]
  rw [hcons, partitionAtLast_append h]

/-- No method has a slash in it, and neither a method nor a URI a null byte. -/
theorem Body.plain (b : Body) :
    '/'.toNat.toUInt8 ∉ b.method ∧ 0 ∉ b.uri ++ ofLiteral "/" ++ b.method := by
  have huri : 0 ∉ wsdUri ∧ 0 ∉ wsdtUri := by decide +kernel
  have hslash : (0 : UInt8) ∉ ofLiteral "/" := by decide
  refine ⟨by cases b <;> exact of_decide_eq_true rfl, ?_⟩
  rw [List.mem_append, List.mem_append, not_or, not_or]
  refine ⟨⟨?_, hslash⟩, by cases b <;> exact of_decide_eq_true rfl⟩
  cases b with
  | responseToGet => exact huri.2
  | hello => exact huri.1
  | bye => exact huri.1
  | probeMatch => exact huri.1
  | resolveMatch => exact huri.1

/-- No message has a method that is served. -/
theorem Body.method_ne (b : Body) : b.method ≠ ofLiteral "Probe" ∧
    b.method ≠ ofLiteral "Resolve" ∧ b.method ≠ ofLiteral "Get" := by
  cases b <;> exact of_decide_eq_true rfl

theorem dispatch_of_titled (h : m.Titled) (haction : doc.action = xmlStr m.action) :
    Responder.dispatch host type doc w = (false, {}, w) := by
  obtain ⟨hslash, hzero⟩ := m.body.plain
  obtain ⟨hprobe, hresolve, hget⟩ := m.body.method_ne
  have hpart : doc.action.partitionAtLast '/'.toNat.toUInt8 = some (m.body.uri, m.body.method) := by
    rw [haction, h, xmlStr_of_notMem hzero, partition_action hslash]
  cases type with
  | udp =>
    simp only [Responder.dispatch, hpart, Option.getD_some, hprobe, hresolve, if_false, ite_self]
  | http => simp only [Responder.dispatch, hpart, Option.getD_some, hget, if_false, ite_self]

/-- **A message is not a request**: no server answers what a server has sent. -/
theorem Responder.handleRequest_document (h : m.Titled) :
    (w.handleRequest host type (Soap.ofDocument (document D u m))).1 = none := by
  unfold Responder.handleRequest
  dsimp only
  split_ifs
  · rfl
  · split
    · rfl
    · rw [dispatch_of_titled h (ofDocument_document D u m).2.2]
      rfl

/-- `doc` asks for a message with the body `b` from `host`. -/
def Soap.AsksFor (doc : Soap) (host : Host) : Body → Prop
  | .probeMatch endpointIdentifier => endpointIdentifier = host.endpointIdentifier ∧
      doc.Calls wsdUri (ofLiteral "Probe") ∧ ∃ probe, doc.probe = some probe ∧ probe.asksForDevice
  | .resolveMatch endpointIdentifier httpEndpoint httpPath =>
      endpointIdentifier = host.endpointIdentifier ∧ httpEndpoint = host.httpAddress ∧
      httpPath = host.httpPath ∧ doc.Calls wsdUri (ofLiteral "Resolve") ∧
      doc.resolveAddr = host.endpointIdentifier
  | .responseToGet endpointIdentifier friendlyName fullComputerName hostAddr =>
      endpointIdentifier = host.endpointIdentifier ∧ friendlyName = host.hostDescription ∧
      fullComputerName = host.fullComputerName ∧ hostAddr = host.httpAddress.1 ∧
      doc.Calls wsdtUri (ofLiteral "Get")
  | .hello .. => False
  | .bye _ => False

/-- What a handler has prepared is what the request asks for. -/
def PreparedFor (host : Host) (doc : Soap) (r : Bool × WSDResponseBuilder × Responder) : Prop :=
  r.1 = true → ∃ b, r.2.1.body = some b ∧ doc.AsksFor host b ∧
    r.2.1.action = some (b.uri ++ ofLiteral "/" ++ b.method)

theorem preparedFor_false (b : WSDResponseBuilder) : PreparedFor host doc (false, b, w) := by
  intro h
  cases h

theorem handleProbe_preparedFor (h : doc.Calls wsdUri (ofLiteral "Probe")) :
    PreparedFor host doc (Responder.handleProbe host doc {} w) := by
  unfold Responder.handleProbe
  split
  · exact preparedFor_false _
  · rename_i probe hprobe
    split_ifs with hdevice
    · exact preparedFor_false _
    · intro _
      exact ⟨_, rfl, ⟨rfl, h, probe, hprobe, by simpa using hdevice⟩, by simp [Body.uri, Body.method,
        ofLiteral]⟩

theorem handleResolve_preparedFor (h : doc.Calls wsdUri (ofLiteral "Resolve")) :
    PreparedFor host doc (Responder.handleResolve host doc {} w) := by
  unfold Responder.handleResolve
  split_ifs with hempty haddr
  · exact preparedFor_false _
  · exact preparedFor_false _
  · intro _
    exact ⟨_, rfl, ⟨rfl, rfl, rfl, h, not_not.1 haddr⟩, by simp [Body.uri, Body.method, ofLiteral]⟩

theorem handleGet_preparedFor (h : doc.Calls wsdtUri (ofLiteral "Get")) :
    PreparedFor host doc (Responder.handleGet host {} w) := by
  intro _
  exact ⟨_, rfl, ⟨rfl, rfl, rfl, rfl, h⟩, by simp [Responder.handleGet, Body.uri, Body.method,
    ofLiteral]⟩

/-- The parts of the action, as `dispatch` takes them. -/
theorem calls_of_getD {uri method : SysString}
    (h : (doc.action.partitionAtLast '/'.toNat.toUInt8).getD ([], []) = (uri, method))
    (huri : uri ≠ []) : doc.Calls uri method := by
  cases hpart : doc.action.partitionAtLast '/'.toNat.toUInt8 with
  | none =>
    rw [hpart] at h
    exact absurd (Prod.mk.inj h).1.symm huri
  | some p =>
    rw [hpart, Option.getD_some] at h
    subst h
    rw [Soap.Calls, eq_of_partitionAtLast hpart]
    simp [ofLiteral]

theorem dispatch_preparedFor : PreparedFor host doc (Responder.dispatch host type doc w) := by
  have hne : wsdUri ≠ [] ∧ wsdtUri ≠ [] := by decide +kernel
  unfold Responder.dispatch
  rcases hpart : (doc.action.partitionAtLast '/'.toNat.toUInt8).getD ([], []) with ⟨uri, method⟩
  dsimp only
  cases type with
  | udp =>
    dsimp only
    split_ifs with huri hprobe hresolve
    · exact preparedFor_false _
    · obtain rfl := not_not.1 huri
      exact handleProbe_preparedFor (hprobe ▸ calls_of_getD hpart hne.1)
    · obtain rfl := not_not.1 huri
      exact handleResolve_preparedFor (hresolve ▸ calls_of_getD hpart hne.1)
    · exact preparedFor_false _
  | http =>
    dsimp only
    split_ifs with huri hget
    · exact preparedFor_false _
    · obtain rfl := not_not.1 huri
      exact handleGet_preparedFor (hget ▸ calls_of_getD hpart hne.2)
    · exact preparedFor_false _

/-- **What an answer is an answer to**: the request has a header and asks for it, and the answer
names the request and has the action of its body. -/
theorem Responder.handleRequest_answers (h : (w.handleRequest host type doc).1 = some m) :
    doc.header = true ∧ doc.AsksFor host m.body ∧ m.relatesTo = some doc.messageId ∧
      m.wsaTo = wsaUri ++ ofLiteral "/role/anonymous" ∧ m.Titled := by
  unfold Responder.handleRequest at h
  dsimp only at h
  split_ifs at h with hheader
  refine ⟨by simpa using hheader, ?_⟩
  split at h
  · cases h
  · rename_i w' hnew
    have hp : PreparedFor host doc (Responder.dispatch host type doc w') := dispatch_preparedFor
    obtain ⟨⟨handled, b, w''⟩, hr⟩ : ∃ r, Responder.dispatch host type doc w' = r := ⟨_, rfl⟩
    rw [hr] at h hp
    cases handled with
    | false => cases h
    | true =>
      obtain ⟨body, hbody, hasks, haction⟩ := hp rfl
      dsimp only at hbody haction
      simp only [Responder.reply, WSDResponseBuilder.build, hbody, haction, Option.some.injEq] at h
      subst h
      exact ⟨hasks, rfl, rfl, rfl⟩

end Wsddn
