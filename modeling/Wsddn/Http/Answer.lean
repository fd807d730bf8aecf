import Wsddn.Http.Body
import Wsddn.Http.Language
import Wsddn.Http.Response

/-!
# A request that is answered (`parseIncoming`, `parseHeader`, `parseBody`)

From the bytes of a request to the first bytes of the answer.  What the XML parser makes of a text is
all that is assumed about it (`XmlPush.Builds`).

* `foldl_head`, `foldl_body` : a head and a body that are cut in any way.
* `reply_first` : a request with a document that the handler replies to is answered with this reply,
  before anything else.
* `exchange` : **a client that posts a document reads the reply to it**: from the bytes that it writes
  to those that it reads.
-/

namespace Wsddn

variable {Ctx Doc Reply σ : Type*}

/-- Some chunks and a last one, which is marked. -/
def XmlPush.feed (X : XmlPush Ctx Doc) : Ctx → List (List UInt8) → List UInt8 → Option Ctx
  | ctx, [], last => X.parseChunk ctx last true
  | ctx, chunk :: chunks, last =>
    (X.parseChunk ctx chunk false).bind fun ctx => X.feed ctx chunks last

/-- However the text is cut, the parser makes the document of it. -/
def XmlPush.Builds (X : XmlPush Ctx Doc) (ctx : Ctx) (text : List UInt8) (doc : Doc) : Prop :=
  ∀ chunks last, [] ∉ chunks → last ≠ [] → chunks.flatten ++ last = text →
    ∃ ctx', X.feed ctx chunks last = some ctx' ∧ X.wellFormed ctx' = true ∧ X.extractDoc ctx' = doc

namespace XmlPush.Builds

variable {X : XmlPush Ctx Doc} {ctx : Ctx} {chunk text : List UInt8} {doc : Doc}

/-- The whole text at once. -/
theorem parseChunk_last (h : X.Builds ctx text doc) (hne : text ≠ []) :
    ∃ ctx', X.parseChunk ctx text true = some ctx' ∧ X.wellFormed ctx' = true ∧
      X.extractDoc ctx' = doc :=
  h [] text List.not_mem_nil hne rfl

theorem parseChunk_first (h : X.Builds ctx (chunk ++ text) doc) (hchunk : chunk ≠ []) (hne : text ≠ []) :
    ∃ ctx', X.parseChunk ctx chunk false = some ctx' ∧ X.Builds ctx' text doc := by
  cases hx : X.parseChunk ctx chunk false with
  | none =>
    obtain ⟨ctx', hfeed, -⟩ := h [chunk] text (by simp [Ne.symm hchunk]) hne (by simp)
    rw [feed, hx] at hfeed
    cases hfeed
  | some ctx' =>
    refine ⟨ctx', rfl, fun chunks last hnil hlast hflat => ?_⟩
    obtain ⟨ctx'', hfeed, hdoc⟩ := h (chunk :: chunks) last
      (by simp [Ne.symm hchunk, hnil]) hlast (by rw [List.flatten_cons, List.append_assoc, hflat])
    rw [feed, hx, Option.bind_some] at hfeed
    exact ⟨ctx'', hfeed, hdoc⟩

end XmlPush.Builds

namespace HttpConnection

variable (E : HttpEnv Ctx Doc Reply σ)

/-- The connection is in front of a head that is accepted, with this plan for its body. -/
def Plans (c : HttpConnection Ctx Reply) (head : List UInt8) (plan : BodyPlan) : Prop :=
  c.state = .inHeader ∧ ∃ p req,
    c.headerParser.parse c.request head = ((p, req), some .good, []) ∧
    checkRequest E.httpPath req = .ok plan

/-- The connection is in front of a body of which `n` bytes are to come. -/
structure Expects (c : HttpConnection Ctx Reply) (ctx : Ctx) (n : ℕ) : Prop where
  state : c.state = .inBody
  parser : c.contentParser = some ctx
  remaining : c.contentRemaining = n

variable {E} {c : HttpConnection Ctx Reply} {h h' : σ} {ctx : Ctx} {n : ℕ} {plan : BodyPlan}
  {head body bytes more : List UInt8} {reads : List (List UInt8)} {s : Session Ctx Doc Reply σ}
  {doc : Doc} {reply : Reply}

/-! ### The head -/

theorem Plans.ne_nil (hp : Plans E c head plan) : head ≠ [] := by
  rintro rfl
  obtain ⟨-, p, req, hparse, -⟩ := hp
  simp [HttpRequestParser.parse] at hparse

/-- The whole head, with the beginning of the body. -/
theorem Plans.parseIncoming_append (hp : Plans E c head plan) (tail : List UInt8) :
    ∃ c' : HttpConnection Ctx Reply, c'.Expects (E.xml.createPush plan.charset) plan.length ∧
      parseIncoming E c h (head ++ tail) = parseIncoming E c' h tail := by
  obtain ⟨hs, p, req, hparse, hcheck⟩ := hp
  have hp' : c.headerParser.parse c.request (head ++ tail) = ((p, req), some .good, tail) :=
    Consumer.run_append_of_some tail hparse
  have hne : head ++ tail ≠ [] :=
    List.append_ne_nil_of_left_ne_nil (Plans.ne_nil ⟨hs, p, req, hparse, hcheck⟩) tail
  obtain ⟨c', hr, hc'⟩ : ∃ c' : HttpConnection Ctx Reply,
      parseHeader E c (head ++ tail) = (.continue, c', tail) ∧
        c'.Expects (E.xml.createPush plan.charset) plan.length :=
    ⟨_, parseHeader_of_ok hp' hcheck, rfl, rfl, rfl⟩
  exact ⟨c', hc', by rw [parseIncoming_inHeader hs hne, hr]⟩

theorem Plans.parseIncoming_of_append {head' : List UInt8} (hp : Plans E c (head ++ head') plan)
    (hne : head ≠ []) (hne' : head' ≠ []) :
    ∃ c' : HttpConnection Ctx Reply, Plans E c' head' plan ∧
      parseIncoming E c h head = ⟨.continue, c', h, none, []⟩ := by
  obtain ⟨hs, p, req, hparse, hcheck⟩ := hp
  rcases hr : c.headerParser.parse c.request head with ⟨⟨p', req'⟩, _ | o, rest⟩
  · have hp' : p'.parse req' head' = ((p, req), some .good, []) :=
      (Consumer.run_append_of_none head' hr).symm.trans hparse
    refine ⟨{ c with headerParser := p', request := req' }, ⟨hs, p, req, hp', hcheck⟩, ?_⟩
    rw [parseIncoming_inHeader hs hne, parseHeader_of_none hr,
      Consumer.rest_eq_nil_of_run_none hr]
    exact parseIncoming_nil
  · -- the parser would have stopped before the end of the head
    have := (Consumer.run_append_of_some head' hr).symm.trans hparse
    simp [hne'] at this

/-- A read of nothing changes nothing. -/
theorem Session.read_nil (hc : s.conn = some c) : s.read E [] = s := by
  rw [Session.read_of_some hc, parseIncoming_nil, Session.proceed, ← hc]

/-- A read that leaves the connection waiting. -/
theorem Session.read_of_continue {c' : HttpConnection Ctx Reply} {rest : List UInt8}
    (hc : s.conn = some c)
    (hr : parseIncoming E c s.handler bytes = ⟨.continue, c', s.handler, none, rest⟩) :
    s.read E bytes = { s with conn := some c' } := by
  rw [Session.read_of_some hc, hr]
  rfl

/-- **However a head is cut**, what is read after it is read in front of the body. -/
theorem foldl_head (hc : s.conn = some c) (hp : Plans E c head plan)
    (hreads : reads.flatten = head ++ bytes) :
    ∃ (c' : HttpConnection Ctx Reply) (reads' : List (List UInt8)),
      c'.Expects (E.xml.createPush plan.charset) plan.length ∧ reads'.flatten = bytes ∧
      reads.foldl (Session.read E) s =
        reads'.foldl (Session.read E) { s with conn := some c' } := by
  induction reads generalizing s c head with
  | nil => exact absurd (List.append_eq_nil_iff.1 hreads.symm).1 hp.ne_nil
  | cons read reads ih =>
    rw [List.flatten_cons] at hreads
    by_cases hread : read = []
    · rw [List.foldl_cons, hread, Session.read_nil hc]
      exact ih hc hp (by simpa [hread] using hreads)
    rcases List.append_eq_append_iff.1 hreads with ⟨head', rfl, hrest⟩ | ⟨tail, rfl, rfl⟩
    · by_cases hhead : head' = []
      · -- the read ends where the head does
        subst hhead
        rw [List.append_nil] at hp
        obtain ⟨c', hc', hr⟩ := hp.parseIncoming_append (h := s.handler) []
        rw [List.append_nil, parseIncoming_nil] at hr
        exact ⟨c', reads, hc', hrest, by rw [List.foldl_cons, Session.read_of_continue hc hr]⟩
      · obtain ⟨c', hp', hr⟩ := hp.parseIncoming_of_append (h := s.handler) hread hhead
        rw [List.foldl_cons, Session.read_of_continue hc hr]
        exact ih (s := { s with conn := some c' }) rfl hp' hrest
    · obtain ⟨c', hc', hr⟩ := hp.parseIncoming_append (h := s.handler) tail
      refine ⟨c', tail :: reads, hc', rfl, ?_⟩
      rw [List.foldl_cons, List.foldl_cons, Session.read_of_some hc, hr,
        Session.read_of_some (s := { s with conn := some c' }) rfl]
      rfl

/-! ### The body -/

/-- **However a body is cut**, its document is extracted at its end. -/
theorem foldl_body (hc : s.conn = some c) (he : c.Expects ctx n) (hlen : body.length = n)
    (hne : body ≠ []) (hb : E.xml.Builds ctx body doc) (hreads : reads.flatten = body ++ more) :
    ∃ (c' : HttpConnection Ctx Reply) (ctx' : Ctx) (rest : List UInt8)
      (reads' : List (List UInt8)), E.xml.wellFormed ctx' = true ∧ E.xml.extractDoc ctx' = doc ∧
      reads.foldl (Session.read E) s =
        reads'.foldl (Session.read E) (s.proceed (finishBody E c' s.handler ctx' rest)) := by
  induction reads generalizing s c ctx n body with
  | nil => exact absurd (List.append_eq_nil_iff.1 hreads.symm).1 hne
  | cons read reads ih =>
    obtain ⟨hstate, hparser, hrem⟩ := he
    rw [List.flatten_cons] at hreads
    by_cases hread : read = []
    · rw [List.foldl_cons, hread, Session.read_nil hc]
      exact ih hc ⟨hstate, hparser, hrem⟩ hlen hne hb (by simpa [hread] using hreads)
    rw [List.foldl_cons, Session.read_of_some hc, parseIncoming_inBody hstate hread]
    rcases List.append_eq_append_iff.1 hreads with ⟨body', rfl, hrest⟩ | ⟨tail, hread', -⟩
    · by_cases hbody : body' = []
      · -- the read ends where the body does
        rw [hbody, List.append_nil] at hlen hb
        obtain ⟨ctx', hx, hdoc⟩ := hb.parseChunk_last hread
        rw [parseBody_of_le hparser (by omega), List.take_of_length_le (by omega), hx]
        exact ⟨_, ctx', _, reads, hdoc.1, hdoc.2, rfl⟩
      · rw [List.length_append] at hlen
        have hpos := List.length_pos_iff.2 hbody
        obtain ⟨ctx', hx, hb'⟩ := hb.parseChunk_first hread hbody
        rw [parseBody_of_lt hparser (by omega), hx]
        exact ih (s := s.proceed _) rfl ⟨hstate, rfl, rfl⟩ (by dsimp only; omega) hbody hb' hrest
    · obtain ⟨ctx', hx, hdoc⟩ := hb.parseChunk_last hne
      have htake : read.take c.contentRemaining = body := by
        rw [hread', hrem, ← hlen, List.take_left]
      have hle : c.contentRemaining ≤ read.length := by
        rw [hread', List.length_append]
        omega
      rw [parseBody_of_le hparser hle, htake, hx]
      exact ⟨_, ctx', _, reads, hdoc.1, hdoc.2, rfl⟩

/-! ### The answer -/

theorem outcomes_kept (reads : List (List UInt8)) (s : Session Ctx Doc Reply σ) :
    s.outcomes <+: (reads.foldl (Session.read E) s).outcomes := by
  induction reads generalizing s with
  | nil => exact List.prefix_rfl
  | cons read reads ih =>
    refine .trans ?_ (ih (s.read E read))
    cases hc : s.conn with
    | none => rw [Session.read_of_none hc]
    | some c =>
      rw [Session.read_of_some hc]
      unfold Session.proceed Session.write
      rcases (parseIncoming E c s.handler read).result with _ | _ | _
      · exact List.prefix_rfl
      · simp only [if_true, List.append_assoc]
        exact List.prefix_append _ _
      · dsimp only
        split_ifs
        · rw [List.append_assoc]
          exact List.prefix_append _ _
        · exact List.prefix_append _ _

/-- **A request with a document that the handler replies to is answered with this reply**, before
anything else, however it is cut and whatever comes after it. -/
theorem reply_first (hc : s.conn = some c) (hp : Plans E c head plan) (hlen : body.length = plan.length)
    (hne : body ≠ []) (hb : E.xml.Builds (E.xml.createPush plan.charset) body doc)
    (hh : E.handleHttpRequest s.handler doc = (some reply, h'))
    (hreads : reads.flatten = head ++ (body ++ more)) :
    s.outcomes ++ [.handed doc, .response (.makeReply reply)] <+:
      (reads.foldl (Session.read E) s).outcomes := by
  obtain ⟨c₁, reads₁, he, hflat, hr₁⟩ := foldl_head hc hp hreads
  obtain ⟨c₂, ctx, rest, reads₂, hw, rfl, hr₂⟩ :=
    foldl_body (s := { s with conn := some c₁ }) rfl he hlen hne hb hflat
  rw [hr₁, hr₂, finishBody_of_some hw hh]
  refine .trans ?_ (outcomes_kept reads₂ _)
  unfold Session.proceed Session.write
  dsimp only
  split_ifs
  · rw [List.append_assoc]
    exact List.prefix_append_right_inj _ |>.2 (List.prefix_append _ _)
  · exact List.prefix_rfl

/-! ### A client that posts a document -/

open SysString HttpRequestParser

/-- The head of a request that posts `n` bytes with this encoding. -/
structure Posts (d : Head) (uri : SysString) (n : ℕ) (charset : Option SysString) : Prop where
  method : d.target.method = ofLiteral "POST"
  uri : d.target.uri = uri
  ascii : ∀ b ∈ d.target.uri, b < 128
  uri_le : d.target.uri.length ≤ maxUriSize
  length : d.request.getContentLength = .ok (some n)
  length_le : n ≤ httpMaxContentLength
  type : contentCharset d.request = some charset

/-- It is accepted by the server that it is meant for. -/
theorem Posts.plans {d : Head} {charset : Option SysString}
    (hd : Posts d (ofLiteral "/" ++ E.httpPath) n charset) :
    Plans E ({} : HttpConnection Ctx Reply) d.encode ⟨n, charset, d.request.getKeepAlive⟩ := by
  have hparse : consumer.run ({}, {}) (d.encode ++ []) = _ := run_encode d hd.ascii hd.uri_le
  rw [List.append_nil] at hparse
  refine ⟨rfl, _, d.request, hparse, checkRequest_eq_ok.2 ⟨⟨hd.method, ?_⟩, hd.length, hd.length_le,
    hd.type, rfl⟩⟩
  exact (stored_of_ascii hd.ascii).trans hd.uri

section Exchange

variable {dump : Reply → SysString} {d : Head} {charset : Option SysString}

/-- The reply to a document that is posted comes first. -/
theorem first_seen (hdump : ∀ reply, (dump reply).length < 2 ^ 64)
    (hd : Posts d (ofLiteral "/" ++ E.httpPath) body.length charset) (hne : body ≠ [])
    (hb : E.xml.Builds (E.xml.createPush charset) body doc)
    (hh : E.handleHttpRequest h doc = (some reply, h'))
    (hreads : reads.flatten = d.encode ++ (body ++ more)) :
    ∃ seen, Stream.readAll readResponse
        (written dump (reads.foldl (Session.read E) { handler := h }).outcomes) =
      some (HttpResponse.seen dump (.makeReply reply) :: seen) := by
  obtain ⟨later, hout⟩ :=
    reply_first (s := { handler := h }) rfl hd.plans rfl hne hb hh hreads
  rw [← hout, written, Stream.readAll_flatMap fun r _ => delimits_response hdump r]
  exact ⟨_, rfl⟩

/-- **A client that posts a document reads the reply to it**, however its bytes are cut: the document
is the first that the handler is given, and the reply to it is what the client reads first. -/
theorem exchange (hdump : ∀ reply, (dump reply).length < 2 ^ 64)
    (hd : Posts d (ofLiteral "/" ++ E.httpPath) body.length charset) (hne : body ≠ [])
    (hb : E.xml.Builds (E.xml.createPush charset) body doc)
    (hh : E.handleHttpRequest h doc = (some reply, h'))
    (hreads : reads.flatten = d.encode ++ (body ++ more)) :
    (documents (reads.foldl (Session.read E) { handler := h }).outcomes).head? = some doc ∧
    ∃ seen, Stream.readAll readResponse
        (written dump (reads.foldl (Session.read E) { handler := h }).outcomes) =
      some (HttpResponse.seen dump (.makeReply reply) :: seen) := by
  refine ⟨?_, first_seen hdump hd hne hb hh hreads⟩
  obtain ⟨later, hout⟩ :=
    reply_first (s := { handler := h }) rfl hd.plans rfl hne hb hh hreads
  rw [← hout]
  rfl

end Exchange

theorem post_text : ofLiteral "POST" ≠ [] ∧ (ofLiteral "POST").length ≤ maxMethodSize ∧
    ∀ b ∈ ofLiteral "POST", isToken b = true := by
  decide +kernel

theorem contentType_text : ofLiteral "Content-Type" ≠ [] ∧
    (∀ b ∈ ofLiteral "Content-Type", isToken b = true) ∧
    ∀ b ∈ ofLiteral "application/soap+xml", isCtl b = false := by
  decide +kernel

theorem contentLength_text : ofLiteral "Content-Length" ≠ [] ∧
    ∀ b ∈ ofLiteral "Content-Length", isToken b = true := by
  decide +kernel

theorem four_text : ∀ b ∈ ofLiteral "4", isCtl b = false := by decide +kernel

/-- The header that says how long the document is. -/
def lengthHeader (value : List UInt8) (htext : ∀ b ∈ value, isCtl b = false) : Header where
  name := ofLiteral "Content-Length"
  value := value
  name_ne := contentLength_text.1
  name_token := contentLength_text.2
  value_text := htext

/-- The headers of a document of four bytes. -/
def soapHeaders : List Header :=
  [⟨ofLiteral "Content-Type", ofLiteral "application/soap+xml", contentType_text.1,
      contentType_text.2.1, contentType_text.2.2⟩,
    lengthHeader (ofLiteral "4") four_text]

theorem soapHeaders_size : (soapHeaders.map Header.size).sum ≤ maxHeadersSize := by decide +kernel

theorem isDigit_one : isDigit 49 = true := by decide

theorem one_le : 0 = 0 → (49 : UInt8) ≤ 49 := by decide

/-- A head that posts four bytes to a URI. -/
def soapPost (uri : List UInt8) (hne : uri ≠ [])
    (htext : ∀ b ∈ uri, isCtl b = false ∧ b ≠ 32) : Head where
  target := ⟨ofLiteral "POST", uri, post_text.1, post_text.2.1, post_text.2.2, hne, htext⟩
  version := ⟨0, 49, isDigit_one, one_le⟩
  headers := soapHeaders
  size_le := soapHeaders_size

theorem uuid_text : ofLiteral "/uuid" ≠ [] ∧
    ∀ b ∈ ofLiteral "/uuid", isCtl b = false ∧ b ≠ 32 := by
  decide +kernel

/-- The request of the example, for the path `/uuid`. -/
def elementPost : Head := soapPost (ofLiteral "/uuid") uuid_text.1 uuid_text.2

theorem posts_elementPost : Posts elementPost (ofLiteral "/uuid") 4 none :=
  ⟨rfl, rfl, by decide +kernel, by decide +kernel, by decide +kernel, by decide, by decide +kernel⟩

/-- A parser that collects what it is fed. -/
theorem builds_collect {X : XmlPush (List UInt8) Doc} {text : List UInt8}
    (hchunk : ∀ ctx bytes last, X.parseChunk ctx bytes last = some (ctx ++ bytes))
    (hw : X.wellFormed text = true) : X.Builds [] text (X.extractDoc text) := by
  have hfeed : ∀ (chunks : List (List UInt8)) (ctx last : List UInt8),
      X.feed ctx chunks last = some (ctx ++ chunks.flatten ++ last) := by
    intro chunks
    induction chunks with
    | nil =>
      intro ctx last
      rw [XmlPush.feed, hchunk, List.flatten_nil, List.append_nil]
    | cons chunk chunks ih =>
      intro ctx last
      rw [XmlPush.feed, hchunk, Option.bind_some, ih, List.flatten_cons, List.append_assoc ctx]
  intro chunks last _ _ hflat
  exact ⟨text, by rw [hfeed, List.nil_append, hflat], hw, rfl⟩

/-- The surroundings `elementEnv` with a handler that replies. -/
def replyingEnv : HttpEnv (List UInt8) (List UInt8) Unit Unit :=
  { elementEnv with handleHttpRequest := fun _ _ => (some (), ()) }

/-- The body is cut in two, and the end of the head comes with its first part. -/
theorem exchange_element : ∃ seen, Stream.readAll readResponse
      (written (fun _ => ofLiteral "<r/>") ([elementPost.encode ++ ofLiteral "<a",
        ofLiteral "/>"].foldl (Session.read replyingEnv) { handler := () }).outcomes) =
    some (HttpResponse.seen (fun _ => ofLiteral "<r/>") (.makeReply ()) :: seen) := by
  have hb : replyingEnv.xml.Builds [] (ofLiteral "<a/>") (ofLiteral "<a/>") :=
    builds_collect (fun _ _ _ => rfl) (by decide +kernel)
  have hreads : [elementPost.encode ++ ofLiteral "<a", ofLiteral "/>"].flatten =
      elementPost.encode ++ (ofLiteral "<a/>" ++ []) := by decide +kernel
  exact (exchange (fun _ => by decide +kernel) posts_elementPost (by decide +kernel) hb rfl
    hreads).2

end HttpConnection

end Wsddn
