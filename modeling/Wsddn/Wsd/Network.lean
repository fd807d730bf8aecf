import Wsddn.Wsd.Traffic

/-!
# Hosts on one network

Any number of servers, which can be started and stopped at any time, and clients that send whatever
they like.  What is sent can be lost, delayed, duplicated and delivered in any order, to any of the
servers: the only thing a network does not do is to make datagrams up (`Carried`).  Each server is
the `WsdServer` of the other modules, and a message of it travels as the text of its document.

* `seen_of_run` : the part of a run that one server sees is a run of this server.
* `answers_from_clients` : **no server answers a server**: every answer names the request of a
  client and is what this request asks for.
* `network_traffic` : what a server sends is bounded by what the clients have asked it for.
-/

namespace Wsddn

open WSDResponseBuilder

/-- The message is sent in a datagram. -/
def Body.overUdp : Body → Bool
  | .responseToGet .. => false
  | _ => true

/-- What the servers use of libxml2. -/
structure XmlText where
  /-- `XmlDoc::dump`. -/
  dump : XmlNode QName UInt8 → List UInt8
  /-- `XmlDoc::readMemory` and `getRootElement`, `none` if it raises. -/
  readMemory : List UInt8 → Option (XmlNode QName UInt8)
  /-- The text of a message, or its beginning, is read as the message or not at all. -/
  readMemory_dump : ∀ (D : DocumentEnv) (u : Urns) (m : Message) (n : ℕ) (root : XmlNode QName UInt8),
    m.body.overUdp = true → readMemory ((dump (document D u m)).take n) = some root →
    Soap.ofDocument root = Soap.ofDocument (document D u m)

/-- Where a server runs. -/
structure Site (Ctx : Type*) where
  host : Host
  xml : XmlPush Ctx Soap
  documents : DocumentEnv
  /-- The UUIDs drawn for its messages, one after the other. -/
  urns : ℕ → Urns

namespace Site

variable {Ctx : Type*} (X : XmlText) (site : Site Ctx)

/-- What the server uses from outside. -/
def env : WsdEnv Ctx where
  host := site.host
  xml := site.xml
  readMemory bytes := (X.readMemory bytes).map Soap.ofDocument

/-- The bytes of a datagram. -/
def datagram (d : Sent Message) : List UInt8 :=
  X.dump (document site.documents (site.urns d.chain) d.buffer)

end Site

/-- The servers that have been started, and the datagrams that clients have sent. -/
structure Network (ι Ctx : Type*) where
  servers : ι → Option (WsdServer Ctx)
  clients : List (List UInt8)

/-- What can happen on the network. -/
inductive NetworkEvent (ι : Type*) where
  | client (bytes : List UInt8)
  | start (i : ι) (isV4 : Bool) (multicastDest : Endpoint)
  | server (i : ι) (l : WsdServer.Event)

namespace Network

variable {ι Ctx : Type*} (X : XmlText) (sites : ι → Site Ctx)

/-- A client has sent the bytes, which may have been cut off. -/
def FromClient (N : Network ι Ctx) (bytes : List UInt8) : Prop :=
  ∃ data ∈ N.clients, ∃ n, bytes = data.take n

/-- A server has sent the bytes, which may have been cut off. -/
def FromServer (N : Network ι Ctx) (bytes : List UInt8) : Prop :=
  ∃ i s, N.servers i = some s ∧ ∃ d ∈ s.udp.sent, ∃ n, bytes = ((sites i).datagram X d).take n

/-- Only datagrams that have been sent are received. -/
def Carried (N : Network ι Ctx) : NetworkEvent ι → Prop
  | .server _ l => ∀ bytes sender onInterface,
      .datagram bytes (some sender) onInterface ∈ l.received →
      N.FromClient bytes ∨ N.FromServer X sites bytes
  | _ => True

variable {X sites} {N N' N₀ : Network ι Ctx}

/-! ### Answers of one server -/

/-- A client has sent the request that the message answers. -/
def AnswersClient (X : XmlText) (site : Site Ctx) (N : Network ι Ctx) (m : Message) : Prop :=
  ∃ bytes doc, N.FromClient bytes ∧ (site.env X).readMemory bytes = some doc ∧
    doc.AsksFor site.host m.body ∧ m.relatesTo = some doc.messageId

/-- What holds of every server of the network. -/
structure Sound (X : XmlText) (sites : ι → Site Ctx) (N : Network ι Ctx) (i : ι)
    (s : WsdServer Ctx) : Prop where
  ordered : WsdServer.Ordered ((sites i).env X) s
  overUdp : ∀ p ∈ s.udp.messages, p.1.body.overUdp = true
  answers : ∀ p ∈ s.udp.messages, p.1.body.isMatch = true → AnswersClient X (sites i) N p.1

theorem FromClient.mono (h : N.clients ⊆ N'.clients) {bytes : List UInt8}
    (hb : N.FromClient bytes) : N'.FromClient bytes := by
  obtain ⟨data, hd, n, he⟩ := hb
  exact ⟨data, h hd, n, he⟩

theorem Sound.mono (h : N.clients ⊆ N'.clients) {i : ι} {s : WsdServer Ctx}
    (hs : Sound X sites N i s) : Sound X sites N' i s := by
  refine ⟨hs.ordered, hs.overUdp, fun p hp hm => ?_⟩
  obtain ⟨bytes, doc, hb, hrest⟩ := hs.answers p hp hm
  exact ⟨bytes, doc, hb.mono h, hrest⟩

theorem overUdp_of_isMatch {b : Body} (h : b.isMatch = true) : b.overUdp = true := by
  cases b <;> simp_all [Body.isMatch, Body.overUdp]

theorem Sound.init {i : ι} {s : WsdServer Ctx}
    (h₀ : (WsdServer.machine ((sites i).env X)).init s) : Sound X sites N i s := by
  obtain ⟨dest, hms, -⟩ := WsdServer.init_messages h₀
  refine ⟨.init h₀, ?_, ?_⟩
  · rw [hms]
    intro p hp
    rw [List.mem_singleton.1 hp]
    rfl
  · rw [hms]
    intro p hp hm
    rw [List.mem_singleton.1 hp] at hm
    cases hm

/-- A datagram of a server is not answered. -/
theorem handleUdpRequest_datagram {j : ι} {s : WsdServer Ctx} (hs : Sound X sites N j s)
    {d : Sent Message} (hd : d ∈ s.udp.sent) (E : Site Ctx) (w : Responder) (n : ℕ) :
    (WsdServer.handleUdpRequest (E.env X) w (((sites j).datagram X d).take n)).1 = none := by
  have hmem : (d.buffer, d.dest) ∈ s.udp.messages :=
    List.mem_of_getElem? (hs.ordered.traced.origin d hd)
  obtain ⟨he, -⟩ | ⟨doc, hdoc, he⟩ := WsdServer.handleUdpRequest_cases (E := E.env X) w
    (((sites j).datagram X d).take n)
  · rw [he]
  · obtain ⟨root, hroot, rfl⟩ := Option.map_eq_some_iff.1 hdoc
    have hread := X.readMemory_dump _ _ _ _ _ (hs.overUdp _ hmem) hroot
    rw [he, hread]
    exact Responder.handleRequest_document (hs.ordered.numbered.titled _ hmem)

theorem upholds_sound (hN : ∀ j s, N.servers j = some s → Sound X sites N j s) (i : ι) :
    WsdServer.Upholds ((sites i).env X)
      (fun bytes _ => N.FromClient bytes ∨ N.FromServer X sites bytes)
      fun ms _ => (∀ p ∈ ms, p.1.body.overUdp = true) ∧
        ∀ p ∈ ms, p.1.body.isMatch = true → AnswersClient X (sites i) N p.1 where
  call _ h := h
  bye := by
    intro ms s dest h
    refine ⟨fun p hp => ?_, fun p hp hm => ?_⟩
    · obtain hp | hp := List.mem_append.1 hp
      · exact h.1 p hp
      · rw [List.mem_singleton.1 hp]
        rfl
    · obtain hp | hp := List.mem_append.1 hp
      · exact h.2 p hp hm
      · rw [List.mem_singleton.1 hp] at hm
        cases hm
  refused _ h _ := h
  answered := by
    intro ms w bytes sender m w' harr h hh
    have hmatch := WsdServer.isMatch_of_handleUdpRequest hh
    have hanswers : AnswersClient X (sites i) N m := by
      obtain hclient | ⟨j, s, hs, d, hd, n, rfl⟩ := harr
      · obtain ⟨he, -⟩ | ⟨doc, hdoc, he⟩ :=
          WsdServer.handleUdpRequest_cases (E := (sites i).env X) w bytes
        · rw [he] at hh
          cases (Prod.mk.inj hh).1
        · rw [he] at hh
          obtain ⟨-, hasks, hrel, -⟩ :=
            Responder.handleRequest_answers (w := w) (m := m) (by rw [hh])
          exact ⟨bytes, doc, hclient, hdoc, hasks, hrel⟩
      · have hnone := handleUdpRequest_datagram (hN j s hs) hd (sites i) w n
        rw [hh] at hnone
        cases hnone
    refine ⟨fun p hp => ?_, fun p hp hm => ?_⟩
    · obtain hp | hp := List.mem_append.1 hp
      · exact h.1 p hp
      · rw [List.mem_singleton.1 hp]
        exact overUdp_of_isMatch hmatch
    · obtain hp | hp := List.mem_append.1 hp
      · exact h.2 p hp hm
      · rw [List.mem_singleton.1 hp]
        exact hanswers
  http _ h := h

/-! ### The network -/

variable [DecidableEq ι] {l : NetworkEvent ι} {ls : List (NetworkEvent ι)}

section Machine

variable (X : XmlText) (sites : ι → Site Ctx)

/-- What happens in an event; a server of the network does what it does by itself. -/
def step (N : Network ι Ctx) : NetworkEvent ι → Option (Network ι Ctx)
  | .client bytes => some { N with clients := bytes :: N.clients }
  | .start i isV4 multicastDest =>
    match N.servers i with
    | some _ => none
    | none =>
      let s := (WsdServer.start ((sites i).env X) (.create isV4 multicastDest) true).1
      some { N with servers := Function.update N.servers i (some s) }
  | .server i l =>
    match N.servers i with
    | none => none
    | some s => (WsdServer.step ((sites i).env X) s l).map fun s =>
        { N with servers := Function.update N.servers i (some s) }

/-- The network, before any server has started. -/
def machine : Machine (Network ι Ctx) (NetworkEvent ι) where
  init N := N = ⟨fun _ => none, []⟩
  step := step X sites

end Machine

/-- What a server of the network sees of an event. -/
def seenBy (i : ι) : NetworkEvent ι → Option WsdServer.Event
  | .server j l => if j = i then some l else none
  | _ => none

/-- What an event can do to the server `i`: nothing, its start, or a step of its own. -/
inductive ServerStep (X : XmlText) (sites : ι → Site Ctx) (i : ι) (l : NetworkEvent ι) :
    Option (WsdServer Ctx) → Option (WsdServer Ctx) → Prop
  | idle {s : Option (WsdServer Ctx)} (h : seenBy i l = none) : ServerStep X sites i l s s
  | start {s : WsdServer Ctx} (h : seenBy i l = none)
      (h₀ : (WsdServer.machine ((sites i).env X)).init s) : ServerStep X sites i l none (some s)
  | step {s t : WsdServer Ctx} {e : WsdServer.Event} (h : seenBy i l = some e)
      (hl : l = .server i e) (hst : WsdServer.step ((sites i).env X) s e = some t) :
      ServerStep X sites i l (some s) (some t)

/-- **Everything that an event does.** -/
theorem step_cases (hst : step X sites N l = some N') (i : ι) :
    ServerStep X sites i l (N.servers i) (N'.servers i) := by
  cases l with
  | client bytes =>
    obtain rfl := Option.some.inj hst
    exact .idle rfl
  | start j isV4 dest =>
    unfold step at hst
    dsimp only at hst
    split at hst
    · cases hst
    · rename_i hnone
      obtain rfl := Option.some.inj hst
      by_cases hij : i = j
      · subst hij
        rw [hnone]
        dsimp only
        rw [Function.update_self]
        exact .start rfl ⟨isV4, dest, rfl⟩
      · dsimp only
        rw [Function.update_of_ne hij]
        exact .idle rfl
  | server j e =>
    unfold step at hst
    dsimp only at hst
    split at hst
    · cases hst
    · rename_i s hs
      obtain ⟨t, ht, rfl⟩ := Option.map_eq_some_iff.1 hst
      by_cases hij : i = j
      · subst hij
        rw [hs]
        dsimp only
        rw [Function.update_self]
        exact .step (if_pos rfl) rfl ht
      · dsimp only
        rw [Function.update_of_ne hij]
        exact .idle (if_neg (Ne.symm hij))

theorem step_clients (hst : step X sites N l = some N') : N.clients ⊆ N'.clients := by
  cases l with
  | client bytes =>
    obtain rfl := Option.some.inj hst
    exact List.subset_cons_self _ _
  | start j isV4 dest =>
    unfold step at hst
    dsimp only at hst
    split at hst
    · cases hst
    · obtain rfl := Option.some.inj hst
      exact List.Subset.refl _
  | server j e =>
    unfold step at hst
    dsimp only at hst
    split at hst
    · cases hst
    · obtain ⟨t, -, rfl⟩ := Option.map_eq_some_iff.1 hst
      exact List.Subset.refl _

/-- The events that a server has seen are a run of it. -/
def Seen (X : XmlText) (sites : ι → Site Ctx) (i : ι) (ls : List (NetworkEvent ι)) :
    Option (WsdServer Ctx) → Prop
  | none => ls.filterMap (seenBy i) = []
  | some s => ∃ s₀, (WsdServer.machine ((sites i).env X)).init s₀ ∧
      (WsdServer.machine ((sites i).env X)).run s₀ (ls.filterMap (seenBy i)) = some s

/-- **One server of the network** goes through a run of its own. -/
theorem seen_of_run (h₀ : (machine X sites).init N₀) (hr : (machine X sites).run N₀ ls = some N)
    (i : ι) : Seen X sites i ls (N.servers i) := by
  induction ls using List.reverseRecOn generalizing N with
  | nil =>
    rw [Machine.run_nil, Option.some.injEq] at hr
    obtain rfl : N₀ = _ := h₀
    rw [← hr]
    rfl
  | append_singleton ls l ih =>
    obtain ⟨M, hM, hst⟩ := Machine.run_concat_eq_some.1 hr
    have hi := ih hM
    have hcase := step_cases hst i
    have hlast : ∀ o, seenBy i l = o → (ls ++ [l]).filterMap (seenBy i) =
        ls.filterMap (seenBy i) ++ o.toList := by
      intro o ho
      rw [List.filterMap_append]
      cases o <;> simp [ho]
    generalize M.servers i = a at hi hcase
    generalize N.servers i = b at hcase ⊢
    cases hcase with
    | idle h =>
      unfold Seen at hi ⊢
      rwa [hlast _ h, Option.toList_none, List.append_nil]
    | @start s h h₀ =>
      -- a server that has not been started has seen nothing
      have hnil : ls.filterMap (seenBy i) = [] := hi
      exact ⟨s, h₀, by rw [hlast _ h, hnil]; rfl⟩
    | step h _ hst =>
      obtain ⟨s₀, h₀, hr⟩ := hi
      refine ⟨s₀, h₀, ?_⟩
      rw [hlast _ h]
      exact Machine.run_concat_eq_some.2 ⟨_, hr, hst⟩

/-- One event keeps every server sound, if only datagrams that have been sent are received. -/
theorem sound_step (hN : ∀ i s, N.servers i = some s → Sound X sites N i s)
    (hok : Carried X sites N l) (hst : step X sites N l = some N') :
    ∀ i s, N'.servers i = some s → Sound X sites N' i s := by
  intro i t ht
  have hcase := step_cases hst i
  have hclients := step_clients hst
  have hi := hN i
  generalize N.servers i = a at hi hcase
  rw [ht] at hcase
  cases hcase with
  | idle => exact (hi t rfl).mono hclients
  | start _ h₀ => exact .init h₀
  | @step s _ e _ hl hse =>
    subst hl
    have hs := hi s rfl
    obtain ⟨hover, hanswers⟩ := WsdServer.step_messages (upholds_sound hN i) hs.ordered.inv hok hse
      ⟨hs.overUdp, hs.answers⟩
    have hsound : Sound X sites N i t := ⟨hs.ordered.step hse, hover, hanswers⟩
    exact hsound.mono hclients

theorem sound_of_run (h₀ : (machine X sites).init N₀)
    (hok : (machine X sites).Along (Carried X sites) N₀ ls)
    (hr : (machine X sites).run N₀ ls = some N) :
    ∀ i s, N.servers i = some s → Sound X sites N i s := by
  have hall := Machine.always_of_along
    (I := fun N : Network ι Ctx => ∀ i s, N.servers i = some s → Sound X sites N i s)
    (fun _ _ _ hN hok hst => sound_step hN hok hst) ?_ hok
  · exact hall.last hr
  · obtain rfl : N₀ = _ := h₀
    intro i s hs
    cases hs

/-- **No server answers a server.**  On a network that carries datagrams in any way, but makes none
up, each answer of each server, in each of its copies, is what a request that a client has sent asks
this server for, and it names this request. -/
theorem answers_from_clients (h₀ : (machine X sites).init N₀)
    (hok : (machine X sites).Along (Carried X sites) N₀ ls)
    (hr : (machine X sites).run N₀ ls = some N) {i : ι} {s : WsdServer Ctx}
    (hs : N.servers i = some s) {d : Sent Message} (hd : d ∈ s.udp.sent)
    (hm : d.buffer.body.isMatch = true) :
    ∃ bytes doc, N.FromClient bytes ∧ ((sites i).env X).readMemory bytes = some doc ∧
      doc.AsksFor (sites i).host d.buffer.body ∧ d.buffer.relatesTo = some doc.messageId :=
  (sound_of_run h₀ hok hr i s hs).answers _
    (List.mem_of_getElem? ((sound_of_run h₀ hok hr i s hs).ordered.traced.origin d hd)) hm

/-! ### Traffic -/

theorem clients_of_run (hr : (machine X sites).run N₀ ls = some N) : N₀.clients ⊆ N.clients :=
  Machine.run_invariant (M := machine X sites) (I := fun N => N₀.clients ⊆ N.clients)
    (fun _ _ _ hN hst => List.Subset.trans hN (step_clients hst)) (List.Subset.refl _) hr

/-- What a server receives in a run. -/
def receivedBy (i : ι) (ls : List (NetworkEvent ι)) : List Received :=
  (ls.filterMap (seenBy i)).flatMap WsdServer.Event.received

theorem requests_from_clients (hN : ∀ j s, N₀.servers j = some s → Sound X sites N₀ j s)
    (hok : (machine X sites).Along (Carried X sites) N₀ ls)
    (hr : (machine X sites).run N₀ ls = some N) (i : ι) {bytes : List UInt8} {sender : Endpoint}
    {onInterface : Bool} (hmem : .datagram bytes (some sender) onInterface ∈ receivedBy i ls)
    (hreq : WsdServer.isRequest ((sites i).env X) (.datagram bytes (some sender) onInterface) = true) :
    N.FromClient bytes := by
  induction ls generalizing N₀ with
  | nil => cases hmem
  | cons l ls ih =>
    obtain ⟨M, hst, hrM⟩ := Machine.run_cons_eq_some.1 hr
    have hclients : N₀.clients ⊆ N.clients :=
      List.Subset.trans (step_clients (show step X sites N₀ l = some M from hst))
        (clients_of_run hrM)
    have hM := sound_step hN hok.1 hst
    cases hl : seenBy i l with
    | none =>
      rw [receivedBy, List.filterMap_cons_none hl] at hmem
      exact ih hM (hok.2 M hst) hrM hmem
    | some e =>
      rw [receivedBy, List.filterMap_cons_some hl, List.flatMap_cons, List.mem_append] at hmem
      obtain hmem | hmem := hmem
      · -- the datagram was sent by a client, as it would not be answered otherwise
        obtain rfl : l = .server i e := by
          cases l with
          | client => cases hl
          | start => cases hl
          | server j e' =>
            simp only [seenBy, Option.ite_none_right_eq_some, Option.some.injEq] at hl
            rw [hl.1, hl.2]
        obtain hclient | ⟨j, s, hs, d, hd, n, rfl⟩ := hok.1 _ _ _ hmem
        · exact hclient.mono hclients
        · have hnone := handleUdpRequest_datagram (hN j s hs) hd (sites i) {} n
          have hsome : (WsdServer.handleUdpRequest ((sites i).env X) {}
            (((sites j).datagram X d).take n)).1.isSome = true := hreq
          rw [hnone] at hsome
          cases hsome
      · exact ih hM (hok.2 M hst) hrM hmem

/-- **No storms.**  What a server sends is four copies of its Hello and of each of its Byes and two
of the answer to each request it receives, at most; and these requests are those of clients, however
often the network delivers them. -/
theorem network_traffic (h₀ : (machine X sites).init N₀)
    (hok : (machine X sites).Along (Carried X sites) N₀ ls)
    (hr : (machine X sites).run N₀ ls = some N) {i : ι} {s : WsdServer Ctx}
    (hs : N.servers i = some s) :
    s.udp.sent.length ≤ 4 * (1 + (ls.filterMap (seenBy i)).countP WsdServer.Event.isGraceful) +
      2 * (receivedBy i ls).countP (WsdServer.isRequest ((sites i).env X)) ∧
    ∀ bytes sender onInterface, .datagram bytes (some sender) onInterface ∈ receivedBy i ls →
      WsdServer.isRequest ((sites i).env X) (.datagram bytes (some sender) onInterface) = true →
      N.FromClient bytes := by
  refine ⟨?_, fun bytes sender onInterface => requests_from_clients ?_ hok hr i⟩
  · have hseen := seen_of_run h₀ hr i
    rw [hs] at hseen
    obtain ⟨s₀, hs₀, hrun⟩ := hseen
    exact WsdServer.traffic hs₀ hrun
  · obtain rfl : N₀ = _ := h₀
    intro j s hs
    cases hs

/-! ### A probe -/

/-- The text of a probe. -/
def probeText : List UInt8 :=
  SysString.ofLiteral "<e:Envelope xmlns:e=\"" ++ soapUri ++
  SysString.ofLiteral "\" xmlns:a=\"" ++ wsaUri ++
  SysString.ofLiteral "\" xmlns:d=\"" ++ wsdUri ++
  SysString.ofLiteral "\" xmlns:p=\"" ++ wsdpUri ++
  SysString.ofLiteral "\"><e:Header><a:Action>" ++ wsdUri ++
  SysString.ofLiteral "/Probe</a:Action><a:MessageID>urn:uuid:1</a:MessageID></e:Header>" ++
  SysString.ofLiteral "<e:Body><d:Probe><d:Types>p:Device</d:Types></d:Probe></e:Body></e:Envelope>"

/-- The document with this text. -/
def probeRoot : XmlNode QName UInt8 :=
  .element (SysString.ofLiteral "e") Tag.envelope.qname
    [(SysString.ofLiteral "e", soapUri), (SysString.ofLiteral "a", wsaUri),
      (SysString.ofLiteral "d", wsdUri), (SysString.ofLiteral "p", wsdpUri)] []
    [.element (SysString.ofLiteral "e") Tag.header.qname [] []
      [.element (SysString.ofLiteral "a") Tag.action.qname [] []
        [.text (wsdUri ++ SysString.ofLiteral "/Probe")],
      .element (SysString.ofLiteral "a") Tag.messageID.qname [] []
        [.text (SysString.ofLiteral "urn:uuid:1")]],
    .element (SysString.ofLiteral "e") Tag.body.qname [] []
      [.element (SysString.ofLiteral "d") Tag.probe.qname [] []
        [.element (SysString.ofLiteral "d") Tag.types.qname [] []
          [.text (SysString.ofLiteral "p:Device")]]]]

/-- A libxml2 that knows this text only. -/
def probeXml : XmlText where
  dump _ := [60]
  readMemory bytes := if bytes = probeText then some probeRoot else none
  readMemory_dump := by
    intro D u m n root _ h
    split_ifs at h with heq
    obtain ⟨rest, hrest⟩ : ∃ rest, probeText = 60 :: 101 :: rest := ⟨_, rfl⟩
    rw [hrest] at heq
    have hlen := congrArg List.length heq
    simp only [List.length_take, List.length_cons, List.length_nil] at hlen
    omega

/-- Two hosts. -/
def twoSites (i : Bool) : Site Unit where
  host := ⟨SysString.ofLiteral (if i then "urn:uuid:a" else "urn:uuid:b"), 1,
    SysString.ofLiteral "0", (.v4 0x0a000001, 5357), SysString.ofLiteral "host",
    SysString.ofLiteral "HOST/Workgroup:WG", 64⟩
  xml := WsdServer.silentEnv.xml
  documents := ⟨fun _ => SysString.ofLiteral "10.0.0.1", none⟩
  urns _ := ⟨SysString.ofLiteral "urn:uuid:m", SysString.ofLiteral "urn:uuid:s"⟩

/-- Both hosts are started, and one of them receives the probe of a client twice. -/
def probing : List (NetworkEvent Bool) :=
  [.start true true (.v4 0xeffffffa, 3702), .start false true (.v4 0xeffffffa, 3702),
    .client probeText,
    .server true (.udpRead .recv .success [.datagram probeText (some (.v4 0x0a000002, 50000)) true,
      .datagram probeText (some (.v4 0x0a000002, 50000)) true, .wouldBlock])]

/-- The network after that. -/
def probed : Network Bool Unit :=
  ((machine probeXml twoSites).run ⟨fun _ => none, []⟩ probing).get (by decide +kernel)

theorem run_probing : (machine probeXml twoSites).run ⟨fun _ => none, []⟩ probing = some probed :=
  (Option.some_get _).symm

theorem carried_probing : (machine probeXml twoSites).Along (Carried probeXml twoSites)
    ⟨fun _ => none, []⟩ probing := by
  refine ⟨trivial, fun N₁ _ => ⟨trivial, fun N₂ _ => ⟨trivial, fun N₃ h₃ => ⟨?_, fun _ _ => trivial⟩⟩⟩⟩
  obtain rfl := Option.some.inj h₃
  intro bytes sender onInterface hmem
  refine .inl ⟨probeText, List.mem_cons_self, probeText.length, ?_⟩
  rw [List.take_length]
  simp only [WsdServer.Event.received, List.mem_cons, Received.datagram.injEq, reduceCtorEq,
    List.not_mem_nil, or_false] at hmem
  obtain ⟨rfl, -⟩ | ⟨rfl, -⟩ := hmem <;> rfl

/-- The server that the probe has reached. -/
theorem exists_probed : ∃ s, probed.servers true = some s ∧ s.udp.sent.length = 2 ∧
    ∃ d ∈ s.udp.sent, d.buffer.body.isMatch = true := by
  have hany : (probed.servers true).any (fun s => decide (s.udp.sent.length = 2) &&
      s.udp.sent.any fun d => d.buffer.body.isMatch) = true := by decide +kernel
  obtain ⟨s, hs, hsent⟩ := (Option.any_eq_true _ _).1 hany
  rw [Bool.and_eq_true, decide_eq_true_eq, List.any_eq_true] at hsent
  exact ⟨s, hs, hsent⟩

/-- The probe of the client is answered by the host that it reaches. -/
theorem answers_from_clients_probed : ∃ s, probed.servers true = some s ∧
    ∃ d ∈ s.udp.sent, d.buffer.body.isMatch = true ∧
      ∃ bytes doc, probed.FromClient bytes ∧
        ((twoSites true).env probeXml).readMemory bytes = some doc ∧
        doc.AsksFor (twoSites true).host d.buffer.body ∧ d.buffer.relatesTo = some doc.messageId := by
  obtain ⟨s, hs, -, d, hd, hm⟩ := exists_probed
  exact ⟨s, hs, d, hd, hm, answers_from_clients rfl carried_probing run_probing hs hd hm⟩

/-- It has reached it twice, and is answered once. -/
theorem network_traffic_probed : ∃ s, probed.servers true = some s ∧ s.udp.sent.length = 2 ∧
    s.udp.sent.length ≤ 4 * (1 + (probing.filterMap (seenBy true)).countP
      WsdServer.Event.isGraceful) + 2 * (receivedBy true probing).countP
        (WsdServer.isRequest ((twoSites true).env probeXml)) := by
  obtain ⟨s, hs, hlen, -⟩ := exists_probed
  exact ⟨s, hs, hlen, (network_traffic rfl carried_probing run_probing hs).1⟩

end Network

end Wsddn
