import Wsddn.Config.WinNetInfo
import Wsddn.Http.Answer
import Wsddn.Wsd.Network

/-!
# How a client finds a host

What `Config` and `WsdServerImpl` tell about a host, and what a client learns of it: it asks for
devices, asks the one that has answered where it is, and asks there who it is.

* `Responder.handleRequest_of_asks` : a new request that asks for something is answered with it.
* `probe_answered`, `resolve_answered`, `get_answered` : the three steps, in any state of the server.
* `discovery` : **a client that knows nothing learns who the host is**.
-/

namespace Wsddn

open SysString WSDResponseBuilder

/-! ### The host -/

/-- The storage bytes of a string. -/
def utf8 (str : String) : SysString := str.toUTF8.toList

/-- A digit of the lower-case text of a UUID. -/
def hexDigit (n : ℕ) : UInt8 := if n < 10 then 48 + n.toUInt8 else 87 + n.toUInt8

/-- `to_sys_string` of a UUID. -/
def uuidToChars (uuid : Uuid) : SysString :=
  (List.range 32).flatMap fun i =>
    (if i = 8 ∨ i = 12 ∨ i = 16 ∨ i = 20 then [45] else []) ++
      [hexDigit (uuid.toNat / 16 ^ (31 - i) % 16)]

/-- `to_urn`. -/
def uuidToUrn (uuid : Uuid) : SysString := ofLiteral "urn:uuid:" ++ uuidToChars uuid

/-- `buildFullComputerName`. -/
def buildFullComputerName (info : WinNetInfo) : SysString :=
  utf8 info.hostName ++
    match info.memberOf with
    | .workgroup name => ofLiteral "/Workgroup:" ++ utf8 name
    | .domain name => ofLiteral "/Domain:" ++ utf8 name

/-- What the `Config` and the server tell about the host. -/
def Host.make (uuid : Uuid) (instanceIdentifier : ℕ) (info : WinNetInfo) (addr : IpAddress)
    (sizeBits : ℕ) : Host where
  endpointIdentifier := uuidToUrn uuid
  instanceIdentifier := instanceIdentifier
  httpPath := uuidToChars uuid
  httpAddress := (addr, 5357)
  hostDescription := utf8 info.hostDescription
  fullComputerName := buildFullComputerName info
  sizeBits := sizeBits

theorem mem_uuidToChars {uuid : Uuid} {b : UInt8} (h : b ∈ uuidToChars uuid) :
    b = 45 ∨ ∃ n < 16, b = hexDigit n := by
  obtain ⟨i, -, hi⟩ := List.mem_flatMap.1 h
  obtain hi | hi := List.mem_append.1 hi
  · split_ifs at hi
    · exact .inl (List.mem_singleton.1 hi)
    · cases hi
  · exact .inr ⟨_, Nat.mod_lt _ (by decide), List.mem_singleton.1 hi⟩

theorem plain_uuidToChars {uuid : Uuid} {b : UInt8} (h : b ∈ uuidToChars uuid) :
    33 ≤ b ∧ b < 127 := by
  have hdigit : ∀ n < 16, 33 ≤ hexDigit n ∧ hexDigit n < 127 := by decide
  obtain rfl | ⟨n, hn, rfl⟩ := mem_uuidToChars h
  · decide
  · exact hdigit n hn

theorem zero_notMem_urn (uuid : Uuid) : 0 ∉ uuidToUrn uuid := by
  have hurn : (0 : UInt8) ∉ ofLiteral "urn:uuid:" := by decide +kernel
  rw [uuidToUrn, List.mem_append, not_or]
  refine ⟨hurn, fun h => ?_⟩
  have := (plain_uuidToChars h).1
  revert this
  decide

/-! ### Requests that are answered -/

/-- How a message with this body is sent. -/
def Body.transport (b : Body) : RequestType := if b.overUdp then .udp else .http

namespace Responder

variable {host : Host} {doc : Soap} {w : Responder} {b : Body}

theorem checkNewMessageId_fst (h : doc.messageId ∉ w.knownMessageIds) :
    (w.checkNewMessageId doc.messageId).1 = true := by
  unfold checkNewMessageId
  rw [if_neg h]
  dsimp only
  split_ifs <;> rfl

/-- The parts of an action. -/
theorem getD_partition_of_calls {uri method : SysString} (h : doc.Calls uri method)
    (hslash : '/'.toNat.toUInt8 ∉ method) :
    (doc.action.partitionAtLast '/'.toNat.toUInt8).getD ([], []) = (uri, method) := by
  rw [h, partition_action hslash, Option.getD_some]

/-- The handler of the action prepares what it is asked for. -/
theorem dispatch_of_asks (hasks : doc.AsksFor host b) (hid : host.endpointIdentifier ≠ []) :
    (dispatch host b.transport doc w).1 = true ∧
      (dispatch host b.transport doc w).2.1.body = some b ∧
      (dispatch host b.transport doc w).2.1.action.isSome = true := by
  have hslash : '/'.toNat.toUInt8 ∉ ofLiteral "Probe" ∧ '/'.toNat.toUInt8 ∉ ofLiteral "Resolve" ∧
      '/'.toNat.toUInt8 ∉ ofLiteral "Get" := by decide +kernel
  have hne : ofLiteral "Resolve" ≠ ofLiteral "Probe" := by decide +kernel
  cases b with
  | hello => exact hasks.elim
  | bye => exact hasks.elim
  | probeMatch endpointIdentifier =>
    obtain ⟨rfl, hc, probe, hprobe, hdevice⟩ := hasks
    have hd : dispatch host .udp doc w = handleProbe host doc {} w := by
      unfold dispatch
      rw [getD_partition_of_calls hc hslash.1]
      simp
    simp [Body.transport, Body.overUdp, hd, handleProbe, hprobe, hdevice]
  | resolveMatch endpointIdentifier httpEndpoint httpPath =>
    obtain ⟨rfl, rfl, rfl, hc, haddr⟩ := hasks
    have hd : dispatch host .udp doc w = handleResolve host doc {} w := by
      unfold dispatch
      rw [getD_partition_of_calls hc hslash.2.1]
      simp [hne]
    simp [Body.transport, Body.overUdp, hd, handleResolve, haddr, hid]
  | responseToGet endpointIdentifier friendlyName fullComputerName hostAddr =>
    obtain ⟨rfl, rfl, rfl, rfl, hc⟩ := hasks
    have hd : dispatch host .http doc w = handleGet host {} w := by
      unfold dispatch
      rw [getD_partition_of_calls hc hslash.2.2]
      simp
    simp [Body.transport, Body.overUdp, hd, handleGet]

/-- **A new request that asks for something is answered with it.** -/
theorem handleRequest_of_asks (hheader : doc.header = true)
    (hnew : doc.messageId ∉ w.knownMessageIds) (hasks : doc.AsksFor host b)
    (hid : host.endpointIdentifier ≠ []) :
    ∃ m w', w.handleRequest host b.transport doc = (some m, w') ∧ m.body = b ∧
      m.relatesTo = some doc.messageId := by
  have hknown : doc.messageId ∉ (w.call (.handleRequest b.transport)).knownMessageIds := hnew
  have hfirst := checkNewMessageId_fst hknown
  rcases hc : (w.call (.handleRequest b.transport)).checkNewMessageId doc.messageId with ⟨new, w₁⟩
  rw [hc] at hfirst
  obtain rfl : new = true := hfirst
  obtain ⟨hhandled, hbody, haction⟩ := dispatch_of_asks (w := w₁) hasks hid
  rcases hd : dispatch host b.transport doc w₁ with ⟨handled, r, w₂⟩
  rw [hd] at hhandled hbody haction
  obtain rfl : handled = true := hhandled
  dsimp only at hbody haction
  obtain ⟨action, haction⟩ := Option.isSome_iff_exists.1 haction
  refine ⟨⟨wsaUri ++ ofLiteral "/role/anonymous", action, some doc.messageId, r.appSequence, b⟩, w₂,
    ?_, rfl, rfl⟩
  simp only [handleRequest, hheader, Bool.not_true, Bool.false_eq_true, if_false, hc, hd, reply,
    build, hbody, haction]

end Responder

namespace WsdServer

variable {Ctx : Type*} {E : WsdEnv Ctx} {s t : WsdServer Ctx} {doc : Soap} {sender : Endpoint}
  {b : Body}

/-- A running server reads a document that it has not met, and nothing else. -/
structure Meets (E : WsdEnv Ctx) (s t : WsdServer Ctx) (doc : Soap) (sender : Endpoint) : Prop where
  reachable : (machine E).Reachable s
  running : s.state = .running
  step : ∃ sock bytes, E.readMemory bytes = some doc ∧
    step E s (.udpRead sock .success [.datagram bytes (some sender) true, .wouldBlock]) = some t
  new : doc.messageId ∉ s.responder.knownMessageIds

/-- What the document asks for is sent to where it came from. -/
theorem Meets.answered (h : Meets E s t doc sender) (hheader : doc.header = true)
    (hasks : doc.AsksFor E.host b) (hb : b.overUdp = true) (hid : E.host.endpointIdentifier ≠ []) :
    ∃ m, t.udp.messages = s.udp.messages ++ [(m, sender)] ∧ m.body = b ∧
      m.relatesTo = some doc.messageId := by
  obtain ⟨sock, bytes, hdoc, hst⟩ := h.step
  obtain ⟨m, w', hm, hbody, hrel⟩ := Responder.handleRequest_of_asks hheader h.new hasks hid
  rw [Body.transport, if_pos hb] at hm
  have hh : handleUdpRequest E s.responder bytes = (some m, w') := by
    rw [handleUdpRequest, hdoc]
    exact hm
  have hhandler := ((inv_of_reachable h.reachable).live h.running).1
  refine ⟨m, ?_, hbody, hrel⟩
  unfold WsdServer.step at hst
  split at hst
  · cases hst
  · obtain ⟨⟨u, w, o⟩, hr, rfl⟩ := Option.map_eq_some_iff.1 hst
    unfold UdpServer.readHandler at hr
    dsimp only at hr
    split_ifs at hr with hsock hno
    · simp [hhandler] at hno
    · rw [UdpServer.readLoop, hh] at hr
      simp only [Bool.not_true, Bool.and_false, Bool.false_eq_true, if_false, UdpServer.readLoop,
        Option.some.injEq, Prod.mk.injEq] at hr
      obtain ⟨rfl, -, rfl⟩ := hr
      exact UdpServer.messages_write _ _ _ _ _ _

end WsdServer

/-! ### A client -/

namespace Client

/-- The endpoint that a `ProbeMatches` names. -/
def readAddress (root : XmlNode QName UInt8) : SysString :=
  XmlElement.string (XmlNode.select [Tag.envelope.qname, Tag.body.qname, Tag.probeMatches.qname,
    Tag.probeMatch.qname, Tag.endpointReference.qname, Tag.address.qname] [] [root])

/-- The URL in a `ResolveMatches`. -/
def readXAddrs (root : XmlNode QName UInt8) : SysString :=
  XmlElement.string (XmlNode.select [Tag.envelope.qname, Tag.body.qname, Tag.resolveMatches.qname,
    Tag.resolveMatch.qname, Tag.xAddrs.qname] [] [root])

/-- The path of an `http` URL: what follows the scheme and the authority. -/
def urlPath (url : SysString) : SysString :=
  (url.drop (ofLiteral "http://").length).dropWhile (· ≠ '/'.toNat.toUInt8)

/-- The name of the host and of its workgroup or domain, in a `GetResponse`. -/
def readComputer (root : XmlNode QName UInt8) : Option (SysString × SysString × SysString) :=
  let computer := XmlElement.string (XmlNode.select [Tag.envelope.qname, Tag.body.qname,
    Tag.metadata.qname, Tag.metadataSection.qname, Tag.relationship.qname, Tag.host.qname,
    Tag.computer.qname] [] [root])
  (SysString.partitionAtFirst '/'.toNat.toUInt8 computer).bind fun (name, member) =>
    (SysString.partitionAtFirst ':'.toNat.toUInt8 member).map fun (kind, memberOf) =>
      (name, kind, memberOf)

/-- The description of the host, in a `GetResponse`. -/
def readFriendlyName (root : XmlNode QName UInt8) : SysString :=
  XmlElement.string (XmlNode.select [Tag.envelope.qname, Tag.body.qname, Tag.metadata.qname,
    Tag.metadataSection.qname, Tag.thisDevice.qname, Tag.friendlyName.qname] [] [root])

variable {D : DocumentEnv} {u : Urns} {m : Message}

theorem readAddress_document {endpointIdentifier : SysString}
    (hm : m.body = .probeMatch endpointIdentifier) :
    readAddress (document D u m) = xmlStr endpointIdentifier := by
  rw [readAddress, (select_document (by simp)).2, hm]
  simp [fill, addEndpointReference, addTypes, addMetadataVersion]

theorem readXAddrs_document {endpointIdentifier httpPath : SysString} {httpEndpoint : Endpoint}
    (hm : m.body = .resolveMatch endpointIdentifier httpEndpoint httpPath) :
    readXAddrs (document D u m) = xmlStr (xaddr D httpEndpoint httpPath) := by
  rw [readXAddrs, (select_document (by simp)).2, hm]
  simp [fill, addEndpointReference, addTypes, addMetadataVersion]

/-- The scheme and the authority of the URL of the HTTP server; `c` is a slash or a null byte. -/
theorem exists_authority {c : UInt8} (hc : c < 48) (haddr : ∀ a, c ∉ D.toString a) (endp : Endpoint) :
    ∃ authority, c ∉ authority ∧
      makeHttpUrl D.toString endp = ofLiteral "http://" ++ authority := by
  have hmarks : ∀ {text : SysString}, (∀ b ∈ text, 48 ≤ b) → c ∉ text := by
    intro text htext hmem
    exact absurd hc (UInt8.not_lt.2 (htext c hmem))
  have hdigits : c ∉ toDecimal endp.2.toNat := hmarks fun b hb => (mem_toDecimal hb).1
  have hcolon : c ∉ ofLiteral ":" := hmarks (by decide +kernel)
  have hopen : c ∉ ofLiteral "[" := hmarks (by decide +kernel)
  have hclose : c ∉ ofLiteral "]:" := hmarks (by decide +kernel)
  obtain ⟨addr, port⟩ := endp
  cases addr with
  | v4 bits =>
    refine ⟨D.toString (.v4 bits) ++ ofLiteral ":" ++ toDecimal port.toNat, ?_, ?_⟩
    · simp only [List.mem_append, not_or]
      exact ⟨⟨haddr _, hcolon⟩, hdigits⟩
    · simp [makeHttpUrl]
  | v6 bits scope =>
    refine ⟨ofLiteral "[" ++ D.toString (.v6 bits 0) ++ ofLiteral "]:" ++ toDecimal port.toNat, ?_,
      ?_⟩
    · simp only [List.mem_append, not_or]
      exact ⟨⟨⟨hopen, haddr _⟩, hclose⟩, hdigits⟩
    · have hscheme : ofLiteral "http://[" = ofLiteral "http://" ++ ofLiteral "[" := by
        decide +kernel
      simp [makeHttpUrl, hscheme]

theorem urlPath_xaddr (haddr : ∀ a, '/'.toNat.toUInt8 ∉ D.toString a) (endp : Endpoint)
    (httpPath : SysString) : urlPath (xaddr D endp httpPath) = ofLiteral "/" ++ httpPath := by
  obtain ⟨authority, hauth, hurl⟩ := exists_authority (by decide) haddr endp
  have hdrop : ∀ {l : SysString}, '/'.toNat.toUInt8 ∉ l →
      (l ++ ofLiteral "/" ++ httpPath).dropWhile (· ≠ '/'.toNat.toUInt8) =
        ofLiteral "/" ++ httpPath := by
    intro l hl
    induction l with
    | nil => rfl
    | cons c cs ih =>
      obtain ⟨hc, hcs⟩ := not_or.1 (mt List.mem_cons.2 hl)
      rw [List.cons_append, List.cons_append,
        List.dropWhile_cons_of_pos (by simpa using Ne.symm hc)]
      exact ih hcs
  rw [urlPath, xaddr, hurl, List.append_assoc, List.append_assoc, List.drop_left,
    ← List.append_assoc, hdrop hauth]

theorem zero_notMem_xaddr (haddr : ∀ a, 0 ∉ D.toString a) (endp : Endpoint) {httpPath : SysString}
    (hpath : 0 ∉ httpPath) : 0 ∉ xaddr D endp httpPath := by
  obtain ⟨authority, hauth, hurl⟩ := exists_authority (by decide) haddr endp
  have hscheme : (0 : UInt8) ∉ ofLiteral "http://" ∧ (0 : UInt8) ∉ ofLiteral "/" := by
    decide +kernel
  rw [xaddr, hurl]
  simp only [List.mem_append, not_or]
  exact ⟨⟨⟨hscheme.1, hauth⟩, hscheme.2⟩, hpath⟩

/-- What `pub:Computer` says of the membership. -/
def membership : MemberOf → SysString × SysString
  | .workgroup name => (ofLiteral "Workgroup", utf8 name)
  | .domain name => (ofLiteral "Domain", utf8 name)

theorem read_responseToGet {endpointIdentifier friendlyName fullComputerName : SysString}
    {hostAddr : IpAddress} (hD : D.metadata = none)
    (hm : m.body = .responseToGet endpointIdentifier friendlyName fullComputerName hostAddr) :
    readFriendlyName (document D u m) = xmlStr friendlyName ∧
    readComputer (document D u m) =
      (SysString.partitionAtFirst '/'.toNat.toUInt8 (xmlStr fullComputerName)).bind
        fun (name, member) => (SysString.partitionAtFirst ':'.toNat.toUInt8 member).map
          fun (kind, memberOf) => (name, kind, memberOf) := by
  constructor
  · rw [readFriendlyName, (select_document (by simp)).2, hm]
    simp [fill, hD, defaultMetadata]
  · rw [readComputer, (select_document (by simp)).2, hm]
    simp [fill, hD, defaultMetadata, addEndpointReference]

theorem partition_fullComputerName (info : WinNetInfo)
    (hname : '/'.toNat.toUInt8 ∉ utf8 info.hostName) :
    ((SysString.partitionAtFirst '/'.toNat.toUInt8 (buildFullComputerName info)).bind
      fun (name, member) => (SysString.partitionAtFirst ':'.toNat.toUInt8 member).map
        fun (kind, memberOf) => (name, kind, memberOf)) =
      some (utf8 info.hostName, membership info.memberOf) := by
  have hcolon : ':'.toNat.toUInt8 ∉ ofLiteral "Workgroup" ∧
      ':'.toNat.toUInt8 ∉ ofLiteral "Domain" := by decide +kernel
  have hbuilt : buildFullComputerName info = utf8 info.hostName ++ '/'.toNat.toUInt8 ::
      ((membership info.memberOf).1 ++ ':'.toNat.toUInt8 :: (membership info.memberOf).2) := by
    cases h : info.memberOf <;> simp [buildFullComputerName, h, membership, ofLiteral]
  rw [hbuilt, partitionAtFirst_append hname, Option.bind_some]
  dsimp only
  rw [partitionAtFirst_append]
  · rfl
  · cases info.memberOf with
    | workgroup name => exact hcolon.1
    | domain name => exact hcolon.2

end Client

/-! ### The three steps -/

/-- The document asks for devices. -/
def Soap.Probes (doc : Soap) : Prop :=
  doc.header = true ∧ doc.Calls wsdUri (ofLiteral "Probe") ∧
    ∃ probe, doc.probe = some probe ∧ probe.asksForDevice

/-- The document asks where an endpoint is. -/
def Soap.Resolves (doc : Soap) (address : SysString) : Prop :=
  doc.header = true ∧ doc.Calls wsdUri (ofLiteral "Resolve") ∧ doc.resolveAddr = address

/-- The document asks what the host is. -/
def Soap.Gets (doc : Soap) : Prop := doc.header = true ∧ doc.Calls wsdtUri (ofLiteral "Get")

/-- What is known of the host of a server: its settings, no metadata template, and addresses that
are written without a slash. -/
structure Describes (E : WsdEnv Ctx) (D : DocumentEnv) (uuid : Uuid) (info : WinNetInfo) : Prop where
  host : ∃ instanceIdentifier addr sizeBits,
    E.host = Host.make uuid instanceIdentifier info addr sizeBits
  metadata : D.metadata = none
  toString : ∀ addr, '/'.toNat.toUInt8 ∉ D.toString addr ∧ 0 ∉ D.toString addr
  names : 0 ∉ utf8 info.hostDescription ∧ 0 ∉ buildFullComputerName info
  hostName : '/'.toNat.toUInt8 ∉ utf8 info.hostName

section Steps

variable {Ctx : Type*} {E : WsdEnv Ctx} {D : DocumentEnv} {uuid : Uuid} {info : WinNetInfo}
  {s t : WsdServer Ctx} {doc : Soap} {sender : Endpoint}

theorem Describes.endpoint (h : Describes E D uuid info) :
    E.host.endpointIdentifier = uuidToUrn uuid ∧ E.host.endpointIdentifier ≠ [] := by
  obtain ⟨n, addr, bits, hhost⟩ := h.host
  have hurn : ofLiteral "urn:uuid:" ≠ [] := by decide +kernel
  refine ⟨by rw [hhost]; rfl, ?_⟩
  rw [hhost]
  exact List.append_ne_nil_of_left_ne_nil hurn _

/-- **A probe is answered with the endpoint of the host.** -/
theorem probe_answered (h : Describes E D uuid info) (hr : WsdServer.Meets E s t doc sender)
    (hp : doc.Probes) :
    ∃ m, t.udp.messages = s.udp.messages ++ [(m, sender)] ∧ m.relatesTo = some doc.messageId ∧
      ∀ u, Client.readAddress (document D u m) = uuidToUrn uuid := by
  obtain ⟨hheader, hcalls, hprobe⟩ := hp
  obtain ⟨m, ht, hbody, hrel⟩ := hr.answered (b := .probeMatch E.host.endpointIdentifier) hheader
    ⟨rfl, hcalls, hprobe⟩ rfl h.endpoint.2
  refine ⟨m, ht, hrel, fun u => ?_⟩
  rw [Client.readAddress_document hbody, h.endpoint.1, xmlStr_of_notMem (zero_notMem_urn uuid)]

/-- **The endpoint is resolved to the URL of the host.** -/
theorem resolve_answered (h : Describes E D uuid info) (hr : WsdServer.Meets E s t doc sender)
    (hp : doc.Resolves (uuidToUrn uuid)) :
    ∃ m, t.udp.messages = s.udp.messages ++ [(m, sender)] ∧ m.relatesTo = some doc.messageId ∧
      ∀ u, Client.urlPath (Client.readXAddrs (document D u m)) =
        ofLiteral "/" ++ E.host.httpPath := by
  obtain ⟨hheader, hcalls, haddr⟩ := hp
  obtain ⟨m, ht, hbody, hrel⟩ := hr.answered
    (b := .resolveMatch E.host.endpointIdentifier E.host.httpAddress E.host.httpPath) hheader
    ⟨rfl, rfl, rfl, hcalls, haddr.trans h.endpoint.1.symm⟩ rfl h.endpoint.2
  refine ⟨m, ht, hrel, fun u => ?_⟩
  obtain ⟨n, addr, bits, hhost⟩ := h.host
  have hpath : 0 ∉ E.host.httpPath := by
    rw [hhost]
    exact fun hmem => zero_notMem_urn uuid (List.mem_append_right _ hmem)
  rw [Client.readXAddrs_document hbody,
    xmlStr_of_notMem (Client.zero_notMem_xaddr (fun a => (h.toString a).2) _ hpath),
    Client.urlPath_xaddr fun a => (h.toString a).1]

variable {w : Responder} {d : HttpRequestParser.Head} {charset : Option SysString}
  {body more : List UInt8} {reads : List (List UInt8)} {text : XmlNode QName UInt8 → SysString}
  {urns : Message → Urns}

/-- **A request for the description is answered with it.** -/
theorem get_answered (h : Describes E D uuid info) (htext : ∀ root, (text root).length < 2 ^ 64)
    (hd : HttpConnection.Posts d (ofLiteral "/" ++ E.host.httpPath) body.length charset)
    (hne : body ≠ []) (hb : E.xml.Builds (E.xml.createPush charset) body doc) (hp : doc.Gets)
    (hnew : doc.messageId ∉ w.knownMessageIds)
    (hreads : reads.flatten = d.encode ++ (body ++ more)) :
    ∃ m first seen, Stream.readAll readResponse
        (written (fun m => text (document D (urns m) m)) (reads.foldl
          (HttpConnection.Session.read (WsdServer.httpEnv E)) { handler := w }).outcomes) =
        some (first :: seen) ∧
      first.status = 200 ∧ first.content = text (document D (urns m) m) ∧
      m.relatesTo = some doc.messageId ∧ ∀ u,
        Client.readFriendlyName (document D u m) = utf8 info.hostDescription ∧
        Client.readComputer (document D u m) =
          some (utf8 info.hostName, Client.membership info.memberOf) := by
  obtain ⟨m, w', hm, hbody, hrel⟩ := Responder.handleRequest_of_asks
    (b := .responseToGet E.host.endpointIdentifier E.host.hostDescription E.host.fullComputerName
      E.host.httpAddress.1) hp.1 hnew ⟨rfl, rfl, rfl, rfl, hp.2⟩ h.endpoint.2
  have hreply : (WsdServer.httpEnv E).handleHttpRequest w doc = (some m, w') := hm
  obtain ⟨seen, hseen⟩ := HttpConnection.first_seen (fun m => htext (document D (urns m) m)) hd hne
    hb hreply hreads
  obtain ⟨n, addr, bits, hhost⟩ := h.host
  refine ⟨m, _, seen, hseen, rfl, rfl, hrel, fun u => ?_⟩
  obtain ⟨hfriendly, hcomputer⟩ := Client.read_responseToGet (u := u) h.metadata hbody
  rw [hfriendly, hcomputer, hhost]
  constructor
  · exact xmlStr_of_notMem h.names.1
  · show (SysString.partitionAtFirst _ (xmlStr (buildFullComputerName info))).bind _ = _
    rw [xmlStr_of_notMem h.names.2]
    exact Client.partition_fullComputerName info h.hostName

/-- **A client that knows nothing learns who the host is**, if the host has no metadata template and
its names can be written and taken apart again (`Describes`): any probe that reaches the server is
answered with an endpoint; asking where this endpoint is, is answered with a URL; and a request for
the description that is posted there, in whatever pieces it arrives, is answered with the name of the
host and of its workgroup or domain.  The states of the server in the three steps are any: other
clients can be served in between. -/
theorem discovery (h : Describes E D uuid info) {s₁ t₁ : WsdServer Ctx} {probe : Soap}
    {sender₁ : Endpoint} (hr₁ : WsdServer.Meets E s₁ t₁ probe sender₁) (hp₁ : probe.Probes) :
    ∃ m₁, t₁.udp.messages = s₁.udp.messages ++ [(m₁, sender₁)] ∧
      m₁.relatesTo = some probe.messageId ∧
    ∀ (u₁ : Urns) (s₂ t₂ : WsdServer Ctx) (resolve : Soap) (sender₂ : Endpoint),
      WsdServer.Meets E s₂ t₂ resolve sender₂ →
      resolve.Resolves (Client.readAddress (document D u₁ m₁)) →
    ∃ m₂, t₂.udp.messages = s₂.udp.messages ++ [(m₂, sender₂)] ∧
      m₂.relatesTo = some resolve.messageId ∧
    ∀ (u₂ : Urns) (w : Responder) (get : Soap) (d : HttpRequestParser.Head)
      (charset : Option SysString) (body more : List UInt8) (reads : List (List UInt8))
      (text : XmlNode QName UInt8 → SysString) (urns : Message → Urns),
      HttpConnection.Posts d (Client.urlPath (Client.readXAddrs (document D u₂ m₂))) body.length
        charset →
      body ≠ [] → E.xml.Builds (E.xml.createPush charset) body get → get.Gets →
      get.messageId ∉ w.knownMessageIds → reads.flatten = d.encode ++ (body ++ more) →
      (∀ root, (text root).length < 2 ^ 64) →
    ∃ m₃ first seen, Stream.readAll readResponse
        (written (fun m => text (document D (urns m) m)) (reads.foldl
          (HttpConnection.Session.read (WsdServer.httpEnv E)) { handler := w }).outcomes) =
        some (first :: seen) ∧
      first.status = 200 ∧ first.content = text (document D (urns m₃) m₃) ∧
      m₃.relatesTo = some get.messageId ∧ ∀ u,
        Client.readFriendlyName (document D u m₃) = utf8 info.hostDescription ∧
        Client.readComputer (document D u m₃) =
          some (utf8 info.hostName, Client.membership info.memberOf) := by
  obtain ⟨m₁, ht₁, hrel₁, haddress⟩ := probe_answered h hr₁ hp₁
  refine ⟨m₁, ht₁, hrel₁, fun u₁ s₂ t₂ resolve sender₂ hr₂ hp₂ => ?_⟩
  rw [haddress] at hp₂
  obtain ⟨m₂, ht₂, hrel₂, hpath⟩ := resolve_answered h hr₂ hp₂
  refine ⟨m₂, ht₂, hrel₂, fun u₂ w get d charset body more reads text urns hd hne hb hp hnew hreads
    htext => ?_⟩
  rw [hpath] at hd
  exact get_answered h htext hd hne hb hp hnew hreads

end Steps

/-! ### A host that is found -/

namespace Found

/-- The names of the host. -/
def info : WinNetInfo := ⟨"HOST", "a host", .workgroup "WG"⟩

/-- An attribute, or the declaration of a namespace. -/
def writeProperty (name value : SysString) : SysString :=
  ofLiteral " " ++ name ++ ofLiteral "=\"" ++ value ++ ofLiteral "\""

mutual

/-- The text of a node whose strings need no escaping. -/
def write : XmlNode QName UInt8 → SysString
  | .element pre name nsDef properties children =>
    let tag := pre ++ ofLiteral ":" ++ name.2
    ofLiteral "<" ++ tag ++
      nsDef.flatMap (fun ns => writeProperty (ofLiteral "xmlns:" ++ ns.1) ns.2) ++
      properties.flatMap (fun p => writeProperty p.1 p.2) ++
      if children.isEmpty then ofLiteral "/>"
      else ofLiteral ">" ++ writes children ++ ofLiteral "</" ++ tag ++ ofLiteral ">"
  | .text content => content
  | .other => []

/-- The text of a list of nodes. -/
def writes : List (XmlNode QName UInt8) → SysString
  | [] => []
  | node :: nodes => write node ++ writes nodes

end

/-- The text of a document; its length has to fit an `int`. -/
def dump (root : XmlNode QName UInt8) : SysString :=
  let text := ofLiteral "<?xml version=\"1.0\" encoding=\"utf-8\"?>\n" ++ write root ++ ofLiteral "\n"
  if text.length < 2 ^ 31 then text else []

theorem length_dump (root : XmlNode QName UInt8) : (dump root).length < 2 ^ 64 := by
  unfold dump
  dsimp only
  split_ifs with h
  · exact Nat.lt_trans h (by decide)
  · decide

/-- A request. -/
def request (action messageId : SysString) (body : List (XmlNode QName UInt8)) :
    XmlNode QName UInt8 :=
  .element (ofLiteral "e") Tag.envelope.qname
    [(ofLiteral "e", soapUri), (ofLiteral "a", wsaUri), (ofLiteral "d", wsdUri)] []
    [.element (ofLiteral "e") Tag.header.qname [] []
      [.element (ofLiteral "a") Tag.action.qname [] [] [.text action],
        .element (ofLiteral "a") Tag.messageID.qname [] [] [.text messageId]],
    .element (ofLiteral "e") Tag.body.qname [] [] body]

/-- The second request of the client. -/
def resolveRoot : XmlNode QName UInt8 :=
  request (wsdUri ++ ofLiteral "/Resolve") (ofLiteral "urn:uuid:2")
    [.element (ofLiteral "d") Tag.resolve.qname [] []
      [.element (ofLiteral "a") Tag.endpointReference.qname [] []
        [.element (ofLiteral "a") Tag.address.qname [] [] [.text (uuidToUrn 1)]]]]

/-- The third request of the client. -/
def getRoot : XmlNode QName UInt8 :=
  request (wsdtUri ++ ofLiteral "/Get") (ofLiteral "urn:uuid:3") []

/-- The texts of the three requests, with their documents. -/
def requests : List (SysString × XmlNode QName UInt8) :=
  [(Network.probeText, Network.probeRoot), (write resolveRoot, resolveRoot),
    (write getRoot, getRoot)]

/-- What the server reads. -/
def probe : Soap := .ofDocument Network.probeRoot

/-- The resolve, as the server reads it. -/
def resolve : Soap := .ofDocument resolveRoot

/-- The request for the description, as the server reads it. -/
def get : Soap := .ofDocument getRoot

theorem calls : probe.Calls wsdUri (ofLiteral "Probe") ∧
    resolve.Calls wsdUri (ofLiteral "Resolve") ∧ get.Calls wsdtUri (ofLiteral "Get") := by
  unfold Soap.Calls
  decide +kernel

/-- The host, with a libxml2 that knows these three texts. -/
def env : WsdEnv (List UInt8) where
  host := Host.make 1 1 info (.v4 0x0a000001) 64
  xml := { createPush := fun _ => [], parseChunk := fun ctx bytes _ => some (ctx ++ bytes),
           wellFormed := fun ctx => (requests.lookup ctx).isSome,
           extractDoc := fun ctx =>
            ((requests.lookup ctx).map Soap.ofDocument).getD ⟨false, [], [], none, []⟩ }
  readMemory bytes := (requests.lookup bytes).map Soap.ofDocument

/-- The host has one address and no template. -/
def documents : DocumentEnv := ⟨fun _ => ofLiteral "10.0.0.1", none⟩

theorem describes : Describes env documents 1 info := by
  have hplain : '/'.toNat.toUInt8 ∉ ofLiteral "10.0.0.1" ∧ 0 ∉ ofLiteral "10.0.0.1" := by
    decide +kernel
  exact ⟨⟨1, .v4 0x0a000001, 64, rfl⟩, rfl, fun _ => hplain, by decide +kernel, by decide +kernel⟩

/-- The client of the example. -/
def client : Endpoint := (.v4 0x0a000002, 50000)

/-- A datagram of the client. -/
def datagram (text : SysString) : WsdServer.Event :=
  .udpRead .recv .success [.datagram text (some client) true, .wouldBlock]

/-- The server, which meets the probe and then the resolve. -/
def started : WsdServer (List UInt8) :=
  (WsdServer.start env (WsdServer.create true (.v4 0xeffffffa, 3702)) true).1

/-- The server after the probe. -/
def probed : WsdServer (List UInt8) :=
  (WsdServer.step env started (datagram Network.probeText)).get (by decide +kernel)

/-- The server after the resolve. -/
def resolved : WsdServer (List UInt8) :=
  (WsdServer.step env probed (datagram (write resolveRoot))).get (by decide +kernel)

theorem step_started : WsdServer.step env started (datagram Network.probeText) = some probed :=
  (Option.some_get _).symm

theorem init_started : (WsdServer.machine env).init started := ⟨true, (.v4 0xeffffffa, 3702), rfl⟩

theorem meets_probe : WsdServer.Meets env started probed probe client :=
  ⟨⟨started, [], init_started, rfl⟩, rfl, ⟨.recv, _, by decide +kernel, step_started⟩,
    by decide +kernel⟩

theorem meets_resolve : WsdServer.Meets env probed resolved resolve client := by
  have hstep : (WsdServer.machine env).step = WsdServer.step env := rfl
  have hrun : (WsdServer.machine env).run started [datagram Network.probeText] = some probed := by
    rw [Machine.run_cons_eq_some, hstep]
    exact ⟨probed, step_started, Machine.run_nil _⟩
  exact ⟨⟨started, [datagram Network.probeText], init_started, hrun⟩, by decide +kernel,
    ⟨.recv, _, by decide +kernel, (Option.some_get _).symm⟩, by decide +kernel⟩

theorem uuid_text : ofLiteral "/" ++ uuidToChars 1 ≠ [] ∧
    ∀ b ∈ ofLiteral "/" ++ uuidToChars 1, HttpRequestParser.isCtl b = false ∧ b ≠ 32 := by
  decide +kernel

theorem length_text : ∀ b ∈ toDecimal (write getRoot).length, HttpRequestParser.isCtl b = false := by
  decide +kernel

/-- The headers of the request for the description. -/
def headers : List HttpRequestParser.Header :=
  HttpConnection.soapHeaders.take 1 ++
    [HttpConnection.lengthHeader (toDecimal (write getRoot).length) length_text]

theorem headers_size : (headers.map HttpRequestParser.Header.size).sum ≤
    HttpRequestParser.maxHeadersSize := by decide +kernel

/-- The head of the request for the description. -/
def post : HttpRequestParser.Head :=
  { HttpConnection.soapPost (ofLiteral "/" ++ uuidToChars 1) uuid_text.1 uuid_text.2 with
    headers := headers
    size_le := headers_size }

theorem posts_post : HttpConnection.Posts post (ofLiteral "/" ++ uuidToChars 1)
    (write getRoot).length none :=
  ⟨rfl, rfl, by decide +kernel, by decide +kernel, by decide +kernel, by decide +kernel,
    by decide +kernel⟩

/-- The bytes of the request, cut somewhere. -/
def reads : List (List UInt8) :=
  [post.encode.take 10, post.encode.drop 10 ++ (write getRoot).take 20, (write getRoot).drop 20]

/-- The UUIDs of the messages. -/
def urns : Urns := ⟨ofLiteral "urn:uuid:4", ofLiteral "urn:uuid:5"⟩

/-- The last message of a server. -/
theorem eq_of_messages {s t : WsdServer (List UInt8)} {m : Message} {p : Message × Endpoint}
    (h : t.udp.messages = s.udp.messages ++ [(m, client)])
    (hp : t.udp.messages.getLast? = some p) : m = p.1 := by
  rw [h, List.getLast?_concat] at hp
  exact congrArg Prod.fst (Option.some.inj hp)

theorem builds_get : env.xml.Builds (env.xml.createPush none) (write getRoot) get := by
  have hdoc : env.xml.extractDoc (write getRoot) = get := by decide +kernel
  exact hdoc ▸ HttpConnection.builds_collect (fun _ _ _ => rfl) (by decide +kernel)

/-- The client that sends these requests finds the host. -/
theorem discovery_found : ∃ m first seen, Stream.readAll readResponse
      (written (fun m => dump (document documents urns m)) (reads.foldl
        (HttpConnection.Session.read (WsdServer.httpEnv env))
          { handler := resolved.responder }).outcomes) = some (first :: seen) ∧
    first.status = 200 ∧ first.content = dump (document documents urns m) ∧
    m.relatesTo = some get.messageId ∧
    ∀ u, Client.readFriendlyName (document documents u m) = utf8 "a host" ∧
      Client.readComputer (document documents u m) =
        some (utf8 "HOST", Client.membership (.workgroup "WG")) := by
  have hprobe : probe.probe.any Probe.asksForDevice = true := by decide +kernel
  have hp₁ : probe.Probes := ⟨by decide +kernel, calls.1, (Option.any_eq_true _ _).1 hprobe⟩
  obtain ⟨m₁, ht₁, -, h₁⟩ := discovery describes meets_probe hp₁
  have hp₂ : resolve.Resolves (Client.readAddress (document documents urns m₁)) := by
    rw [eq_of_messages ht₁ (Option.some_get (by decide +kernel)).symm]
    exact ⟨by decide +kernel, calls.2.1, by decide +kernel⟩
  obtain ⟨m₂, ht₂, -, h₂⟩ := h₁ urns probed resolved resolve client meets_resolve hp₂
  have hd : HttpConnection.Posts post
      (Client.urlPath (Client.readXAddrs (document documents urns m₂))) (write getRoot).length
        none := by
    have hpath : Client.urlPath (Client.readXAddrs (document documents urns m₂)) =
        ofLiteral "/" ++ uuidToChars 1 := by
      rw [eq_of_messages ht₂ (Option.some_get (by decide +kernel)).symm]
      decide +kernel
    exact hpath ▸ posts_post
  exact h₂ urns resolved.responder get post none (write getRoot) [] reads dump (fun _ => urns) hd
    (by decide +kernel) builds_get ⟨by decide +kernel, calls.2.2⟩ (by decide +kernel)
    (by decide +kernel) length_dump

end Found

end Wsddn
