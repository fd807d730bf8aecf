import Wsddn.Http.RequestParser

/-!
# One HTTP connection (`HttpConnection` of `http_server.cpp`)

The part of a connection that decides what is answered: `parseHeader`, `parseBody` and the loop
`parseIncoming` around them.  What they use from outside is a parameter (`HttpEnv`): the XML push
parser of libxml2, and `handleHttpRequest`, which reaches the WSD server and has a state of its
own.

* `parseIncoming_eq` : the loop unfolded once; the fuel of the definition never runs out.
* `parseHeader_spec` : `parseHeader` is the request parser followed by the checks `checkRequest`.
* `HttpConnection.Ok` : in the body of a request there is a content parser, the header parser
  is reset and the request came with exactly one `Content-Length`; `parseIncoming_ok` says that
  every piece of input preserves this.
-/

namespace Wsddn

open SysString

/-- The XML push parser (`XmlParserContext`): contexts `Ctx` and documents `Doc` are those of
libxml2. -/
structure XmlPush (Ctx Doc : Type*) where
  /-- A new context, with the encoding if one was given. -/
  createPush : Option SysString → Ctx
  /-- Feed some bytes; the flag is set with the last ones.  `none` if it raises. -/
  parseChunk : Ctx → List UInt8 → Bool → Option Ctx
  wellFormed : Ctx → Bool
  extractDoc : Ctx → Doc

/-- What a connection uses from outside. -/
structure HttpEnv (Ctx Doc Reply σ : Type*) where
  /-- `Config::httpPath()`. -/
  httpPath : SysString
  xml : XmlPush Ctx Doc
  /-- The owner's `handleHttpRequest`, with its state; no reply also if it raises. -/
  handleHttpRequest : σ → Doc → Option Reply × σ

/-- The statuses the daemon answers with. -/
inductive Status where
  | ok
  | badRequest
  | notFound
  | internalServerError
  deriving DecidableEq, Repr

/-- A response: a reply document, or the stock page of its status. -/
structure HttpResponse (Reply : Type*) where
  status : Status := .internalServerError
  content : Option Reply := none
  deriving DecidableEq, Repr

namespace HttpResponse

variable {Reply : Type*}

/-- A response without a document. -/
def makeStockResponse (status : Status) : HttpResponse Reply := { status }

/-- The response with the document of the handler. -/
def makeReply (xml : Reply) : HttpResponse Reply := { status := .ok, content := some xml }

end HttpResponse

open HttpResponse

/-- What a connection is reading. -/
inductive ConnState where
  | inHeader
  | inBody
  deriving DecidableEq, Repr

/-- How the reading of a piece of input ends. -/
inductive ParseResult where
  | continue
  | error
  | done
  deriving DecidableEq, Repr

/-- The parsing state of a connection. -/
structure HttpConnection (Ctx Reply : Type*) where
  state : ConnState := .inHeader
  headerParser : HttpRequestParser := {}
  request : HttpRequest := {}
  response : HttpResponse Reply := {}
  contentRemaining : ℕ := 0
  keepAlive : Bool := false
  contentParser : Option Ctx := none

/-- What a piece of input leads to: the result, the connection and the handler afterwards, the
document handed to the handler, and the bytes that were not looked at. -/
structure Parsed (Ctx Doc Reply σ : Type*) where
  result : ParseResult
  conn : HttpConnection Ctx Reply
  handler : σ
  handed : Option Doc
  rest : List UInt8

/-- The longest body that is read. -/
def httpMaxContentLength : ℕ := 256 * 1024

namespace HttpConnection

variable {Ctx Doc Reply σ : Type*} (E : HttpEnv Ctx Doc Reply σ)

/-- The request is a `POST` to the configured path. -/
def Addressed (path : SysString) (req : HttpRequest) : Prop :=
  req.method = ofLiteral "POST" ∧ req.uri = ofLiteral "/" ++ path

instance (path : SysString) (req : HttpRequest) : Decidable (Addressed path req) :=
  inferInstanceAs (Decidable (_ ∧ _))

/-- The encoding that the `Content-Type` asks for; `none` if the type is refused. -/
def contentCharset (req : HttpRequest) : Option (Option SysString) :=
  match req.getContentType with
  | .error _ => none
  | .ok none => some none
  | .ok (some [type]) => if type ≠ ofLiteral "application/soap+xml" then none else some none
  | .ok (some [type, param]) =>
    if type ≠ ofLiteral "application/soap+xml" then none
    else if !(ofLiteral "charset=").isPrefixOf param then none
    else some (some (param.drop (ofLiteral "charset=").length))
  | .ok (some _) => none

/-- Some bytes of a request head and, once it is complete, the checks on it. -/
def parseHeader (c : HttpConnection Ctx Reply) (bytes : List UInt8) :
    ParseResult × HttpConnection Ctx Reply × List UInt8 :=
  match c.headerParser.parse c.request bytes with
  | ((p, req), some .bad, rest) =>
    (.error, { c with headerParser := p, request := req,
                      response := makeStockResponse .badRequest }, rest)
  | ((p, req), none, rest) => (.continue, { c with headerParser := p, request := req }, rest)
  | ((p, req), some .good, rest) =>
    let c := { c with headerParser := p, request := req }
    if ¬ Addressed E.httpPath req then
      (.error, { c with response := makeStockResponse .notFound }, rest)
    else
      match req.getContentLength with
      | .error _ => (.error, { c with response := makeStockResponse .badRequest }, rest)
      | .ok none => (.error, { c with response := makeStockResponse .badRequest }, rest)
      | .ok (some contentLength) =>
        if httpMaxContentLength < contentLength then
          (.error, { c with response := makeStockResponse .badRequest }, rest)
        else
          let c := { c with contentRemaining := contentLength }
          match contentCharset req with
          | none => (.error, { c with response := makeStockResponse .badRequest }, rest)
          | some charset =>
            (.continue, { c with contentParser := some (E.xml.createPush charset)
                                 keepAlive := req.getKeepAlive
                                 headerParser := p.reset
                                 state := .inBody }, rest)

/-- The answer to a body that cannot be used. -/
def refuseBody (c : HttpConnection Ctx Reply) (h : σ) (handed : Option Doc) (rest : List UInt8) :
    Parsed Ctx Doc Reply σ :=
  ⟨.error, { c with response := makeStockResponse .badRequest }, h, handed, rest⟩

/-- The end of a request body: the document goes to the handler. -/
def finishBody (c : HttpConnection Ctx Reply) (h : σ) (ctx : Ctx) (rest : List UInt8) :
    Parsed Ctx Doc Reply σ :=
  if !E.xml.wellFormed ctx then refuseBody c h none rest
  else
    let doc := E.xml.extractDoc ctx
    match E.handleHttpRequest h doc with
    | (none, h) => refuseBody c h (some doc) rest
    | (some reply, h) =>
      ⟨.done, { c with response := makeReply reply, state := .inHeader, contentParser := none },
        h, some doc, rest⟩

/-- Some bytes of a request body.  In the body of a request there is a content parser
(`HttpConnection.Ok`). -/
def parseBody (c : HttpConnection Ctx Reply) (h : σ) (bytes : List UInt8) :
    Parsed Ctx Doc Reply σ :=
  let chunkSize := min c.contentRemaining bytes.length
  let c := { c with contentRemaining := c.contentRemaining - chunkSize }
  match c.contentParser with
  | none => refuseBody c h none (bytes.drop chunkSize)
  | some ctx =>
    match E.xml.parseChunk ctx (bytes.take chunkSize) (c.contentRemaining = 0) with
    | none => refuseBody c h none (bytes.drop chunkSize)
    | some ctx =>
      if c.contentRemaining = 0 then finishBody E c h ctx (bytes.drop chunkSize)
      else ⟨.continue, { c with contentParser := some ctx }, h, none, []⟩

/-- The loop of `parseIncoming`, with as much fuel as it can need. -/
def parseLoop : ℕ → HttpConnection Ctx Reply → σ → List UInt8 → Parsed Ctx Doc Reply σ
  | 0, c, h, bytes => ⟨.continue, c, h, none, bytes⟩
  | fuel + 1, c, h, bytes =>
    if bytes = [] then ⟨.continue, c, h, none, []⟩
    else
      match c.state with
      | .inHeader =>
        match parseHeader E c bytes with
        | (.continue, c, rest) => parseLoop fuel c h rest
        | (res, c, rest) => ⟨res, c, h, none, rest⟩
      | .inBody =>
        match parseBody E c h bytes with
        | ⟨.continue, c, h, _, rest⟩ => parseLoop fuel c h rest
        | r => r

/-- A piece of input, as it was read from the socket. -/
def parseIncoming (c : HttpConnection Ctx Reply) (h : σ) (bytes : List UInt8) :
    Parsed Ctx Doc Reply σ :=
  parseLoop E (bytes.length + 1) c h bytes

/-! ### The checks on a complete head -/

/-- What an accepted head announces: the length and the encoding of the body, and whether the
connection is to be kept. -/
structure BodyPlan where
  length : ℕ
  charset : Option SysString
  keepAlive : Bool
  deriving DecidableEq, Repr

/-- The checks of `parseHeader` on a complete head, in one place. -/
def checkRequest (path : SysString) (req : HttpRequest) : Except Status BodyPlan :=
  if ¬ Addressed path req then .error .notFound
  else
    match req.getContentLength with
    | .ok (some length) =>
      if httpMaxContentLength < length then .error .badRequest
      else
        match contentCharset req with
        | none => .error .badRequest
        | some charset => .ok ⟨length, charset, req.getKeepAlive⟩
    | _ => .error .badRequest

section Spec

variable {E} {c : HttpConnection Ctx Reply} {h : σ} {bytes rest : List UInt8}
  {p : HttpRequestParser} {req : HttpRequest}

/-- When a head is accepted, and what it announces then. -/
theorem checkRequest_eq_ok {path : SysString} {plan : BodyPlan} :
    checkRequest path req = .ok plan ↔ Addressed path req ∧
      req.getContentLength = .ok (some plan.length) ∧ plan.length ≤ httpMaxContentLength ∧
      contentCharset req = some plan.charset ∧ plan.keepAlive = req.getKeepAlive := by
  obtain ⟨length, charset, keepAlive⟩ := plan
  unfold checkRequest
  by_cases ha : Addressed path req
  · rcases hl : req.getContentLength with _ | _ | n
    · simp [ha]
    · simp [ha]
    · by_cases hm : httpMaxContentLength < n
      · simp only [ha, hm, not_true_eq_false, if_false, if_true, reduceCtorEq, true_and, false_iff]
        rintro ⟨h1, h2, -⟩
        obtain rfl : n = length := by simpa using h1
        exact absurd hm (Nat.not_lt.2 h2)
      · rcases hcs : contentCharset req with _ | cs
        · simp [ha, hm]
        · simp only [ha, hm, not_true_eq_false, if_false, Except.ok.injEq, BodyPlan.mk.injEq,
            Option.some.injEq, true_and]
          constructor
          · rintro ⟨rfl, rfl, rfl⟩
            exact ⟨rfl, Nat.not_lt.1 hm, rfl, rfl⟩
          · rintro ⟨h1, -, h3, h4⟩
            exact ⟨h1, h3, h4.symm⟩
  · simp [ha]

/-- A head for another path is not found. -/
theorem checkRequest_of_not_addressed {path : SysString} (ha : ¬ Addressed path req) :
    checkRequest path req = .error .notFound := by
  rw [checkRequest, if_pos ha]

/-- Any other head that is refused is a bad request. -/
theorem checkRequest_error {path : SysString} {status : Status}
    (hc : checkRequest path req = .error status) (ha : Addressed path req) :
    status = .badRequest := by
  unfold checkRequest at hc
  rw [if_neg (not_not.2 ha)] at hc
  split at hc
  · split_ifs at hc
    · exact (Except.error.inj hc).symm
    · split at hc
      · exact (Except.error.inj hc).symm
      · simp at hc
  · exact (Except.error.inj hc).symm

/-- An accepted head: on to the body, with a new content parser and the header parser reset. -/
theorem parseHeader_of_ok {plan : BodyPlan}
    (hp : c.headerParser.parse c.request bytes = ((p, req), some .good, rest))
    (hc : checkRequest E.httpPath req = .ok plan) :
    parseHeader E c bytes = (.continue,
      { c with headerParser := {}, request := req, contentRemaining := plan.length,
               contentParser := some (E.xml.createPush plan.charset),
               keepAlive := plan.keepAlive, state := .inBody }, rest) := by
  obtain ⟨ha, hl, hm, hcs, hk⟩ := checkRequest_eq_ok.1 hc
  simp only [parseHeader, hp, ha, hl, Nat.not_lt.2 hm, hcs, hk, not_true_eq_false, if_false,
    HttpRequestParser.reset]

/-- A refused head: the stock page of the status. -/
theorem parseHeader_of_error {status : Status}
    (hp : c.headerParser.parse c.request bytes = ((p, req), some .good, rest))
    (hc : checkRequest E.httpPath req = .error status) :
    ∃ c', parseHeader E c bytes = (.error, c', rest) ∧ c'.response = makeStockResponse status := by
  unfold checkRequest at hc
  simp only [parseHeader, hp]
  by_cases ha : Addressed E.httpPath req
  · rw [if_neg (not_not.2 ha)] at hc ⊢
    rcases hl : req.getContentLength with _ | _ | length <;> rw [hl] at hc
    · exact ⟨_, rfl, Except.error.inj hc ▸ rfl⟩
    · exact ⟨_, rfl, Except.error.inj hc ▸ rfl⟩
    · simp only at hc ⊢
      split_ifs at hc ⊢
      · exact ⟨_, rfl, Except.error.inj hc ▸ rfl⟩
      · rcases hcs : contentCharset req with _ | charset <;> rw [hcs] at hc
        · exact ⟨_, rfl, Except.error.inj hc ▸ rfl⟩
        · simp at hc
  · rw [if_pos ha] at hc
    exact ⟨_, if_pos ha, Except.error.inj hc ▸ rfl⟩

/-- An incomplete head. -/
theorem parseHeader_of_none (hp : c.headerParser.parse c.request bytes = ((p, req), none, rest)) :
    parseHeader E c bytes = (.continue, { c with headerParser := p, request := req }, rest) := by
  simp only [parseHeader, hp]

/-- A malformed head. -/
theorem parseHeader_of_bad
    (hp : c.headerParser.parse c.request bytes = ((p, req), some .bad, rest)) :
    parseHeader E c bytes = (.error,
      { c with headerParser := p, request := req,
               response := makeStockResponse .badRequest }, rest) := by
  simp only [parseHeader, hp]

/-- No request is answered before its body. -/
theorem parseHeader_ne_done : (parseHeader E c bytes).1 ≠ .done := by
  rcases hp : c.headerParser.parse c.request bytes with ⟨⟨p, req⟩, _ | _ | _, rest⟩
  · simp [parseHeader_of_none hp]
  · rcases hc : checkRequest E.httpPath req with status | plan
    · obtain ⟨c', hc', -⟩ := parseHeader_of_error hp hc
      simp [hc']
    · simp [parseHeader_of_ok hp hc]
  · simp [parseHeader_of_bad hp]

/-! ### The loop -/

/-- A head that is not refused leaves less to read. -/
theorem parseHeader_length_lt {c' : HttpConnection Ctx Reply} (hb : bytes ≠ [])
    (hr : parseHeader E c bytes = (.continue, c', rest)) : rest.length < bytes.length := by
  rcases hp : c.headerParser.parse c.request bytes with ⟨⟨p, req⟩, _ | _ | _, rest'⟩
  · rw [parseHeader_of_none hp] at hr
    obtain rfl : rest' = rest := by simpa using (Prod.ext_iff.1 (Prod.ext_iff.1 hr).2).2
    rw [Consumer.rest_eq_nil_of_run_none hp]
    exact List.length_pos_iff.2 hb
  · rcases hc : checkRequest E.httpPath req with status | plan
    · obtain ⟨c'', hc'', -⟩ := parseHeader_of_error hp hc
      simp [hc''] at hr
    · rw [parseHeader_of_ok hp hc] at hr
      obtain rfl : rest' = rest := by simpa using (Prod.ext_iff.1 (Prod.ext_iff.1 hr).2).2
      exact Consumer.run_length_lt hp
  · simp [parseHeader_of_bad hp] at hr

/-- Bytes that do not complete the body. -/
theorem parseBody_of_lt {ctx : Ctx} (hp : c.contentParser = some ctx)
    (hn : bytes.length < c.contentRemaining) :
    parseBody E c h bytes =
      match E.xml.parseChunk ctx bytes false with
      | none =>
        refuseBody { c with contentRemaining := c.contentRemaining - bytes.length } h none []
      | some ctx =>
        ⟨.continue, { c with contentRemaining := c.contentRemaining - bytes.length,
                             contentParser := some ctx }, h, none, []⟩ := by
  have hm : min c.contentRemaining bytes.length = bytes.length := Nat.min_eq_right (Nat.le_of_lt hn)
  have h0 : ¬ c.contentRemaining - bytes.length = 0 := by omega
  simp only [parseBody, hp, hm, h0, List.take_length, List.drop_length, if_false, decide_false]

/-- Bytes that complete the body: the rest of the piece is not looked at. -/
theorem parseBody_of_le {ctx : Ctx} (hp : c.contentParser = some ctx)
    (hn : c.contentRemaining ≤ bytes.length) :
    parseBody E c h bytes =
      match E.xml.parseChunk ctx (bytes.take c.contentRemaining) true with
      | none => refuseBody { c with contentRemaining := 0 } h none (bytes.drop c.contentRemaining)
      | some ctx =>
        finishBody E { c with contentRemaining := 0 } h ctx (bytes.drop c.contentRemaining) := by
  have hm : min c.contentRemaining bytes.length = c.contentRemaining := Nat.min_eq_left hn
  simp only [parseBody, hp, hm, Nat.sub_self, if_true, decide_true]

theorem finishBody_of_illFormed {ctx : Ctx} (hw : E.xml.wellFormed ctx = false) :
    finishBody E c h ctx rest = refuseBody c h none rest := by
  simp [finishBody, hw]

theorem finishBody_of_none {ctx : Ctx} {h' : σ} (hw : E.xml.wellFormed ctx = true)
    (hh : E.handleHttpRequest h (E.xml.extractDoc ctx) = (none, h')) :
    finishBody E c h ctx rest = refuseBody c h' (some (E.xml.extractDoc ctx)) rest := by
  simp [finishBody, hw, hh]

theorem finishBody_of_some {ctx : Ctx} {h' : σ} {reply : Reply} (hw : E.xml.wellFormed ctx = true)
    (hh : E.handleHttpRequest h (E.xml.extractDoc ctx) = (some reply, h')) :
    finishBody E c h ctx rest =
      ⟨.done, { c with response := makeReply reply, state := .inHeader, contentParser := none },
        h', some (E.xml.extractDoc ctx), rest⟩ := by
  simp [finishBody, hw, hh]

theorem finishBody_result {ctx : Ctx} : (finishBody E c h ctx rest).result ≠ .continue := by
  cases hw : E.xml.wellFormed ctx with
  | false => simp [finishBody_of_illFormed hw, refuseBody]
  | true =>
    rcases hh : E.handleHttpRequest h (E.xml.extractDoc ctx) with ⟨_ | reply, h'⟩
    · simp [finishBody_of_none hw hh, refuseBody]
    · simp [finishBody_of_some hw hh]

/-- A body that goes on leaves nothing to read, and handed nothing over. -/
theorem parseBody_rest (hr : (parseBody E c h bytes).result = .continue) :
    (parseBody E c h bytes).rest = [] ∧ (parseBody E c h bytes).handed = none := by
  rcases hp : c.contentParser with _ | ctx
  · simp [parseBody, hp, refuseBody] at hr
  · rcases Nat.lt_or_ge bytes.length c.contentRemaining with hn | hn
    · rw [parseBody_of_lt hp hn] at hr ⊢
      rcases hx : E.xml.parseChunk ctx bytes false with _ | ctx
      · simp [hx, refuseBody] at hr
      · exact ⟨rfl, rfl⟩
    · rw [parseBody_of_le hp hn] at hr
      rcases hx : E.xml.parseChunk ctx (bytes.take c.contentRemaining) true with _ | ctx
      · simp [hx, refuseBody] at hr
      · rw [hx] at hr
        exact absurd hr finishBody_result

theorem parseLoop_fuel : ∀ {fuel fuel' : ℕ} {c : HttpConnection Ctx Reply} {h : σ}
    {bytes : List UInt8}, bytes.length < fuel → bytes.length < fuel' →
      parseLoop E fuel c h bytes = parseLoop E fuel' c h bytes := by
  intro fuel
  induction fuel with
  | zero => intro fuel' c h bytes hf; exact absurd hf (Nat.not_lt_zero _)
  | succ fuel ih =>
    intro fuel' c h bytes hf hf'
    obtain ⟨fuel', rfl⟩ := Nat.exists_eq_succ_of_ne_zero (Nat.ne_zero_of_lt hf')
    unfold parseLoop
    by_cases hb : bytes = []
    · rw [if_pos hb, if_pos hb]
    rw [if_neg hb, if_neg hb]
    have hpos : 0 < bytes.length := List.length_pos_iff.2 hb
    cases c.state with
    | inHeader =>
      rcases hr : parseHeader E c bytes with ⟨_ | _ | _, c', rest⟩
      · have := parseHeader_length_lt hb hr
        exact ih (by omega) (by omega)
      all_goals rfl
    | inBody =>
      rcases hr : parseBody E c h bytes with ⟨_ | _ | _, c', h', handed, rest⟩
      · have hrest := @parseBody_rest _ _ _ _ E c h bytes (by rw [hr])
        rw [hr] at hrest
        obtain ⟨rfl, -⟩ := hrest
        exact ih (by rw [List.length_nil]; omega) (by rw [List.length_nil]; omega)
      all_goals rfl

theorem parseIncoming_nil : parseIncoming E c h [] = ⟨.continue, c, h, none, []⟩ := rfl

/-- **The loop unfolded once**, in the head of a request. -/
theorem parseIncoming_inHeader (hs : c.state = .inHeader) (hb : bytes ≠ []) :
    parseIncoming E c h bytes =
      match parseHeader E c bytes with
      | (.continue, c', rest) => parseIncoming E c' h rest
      | (res, c', rest) => ⟨res, c', h, none, rest⟩ := by
  unfold parseIncoming
  rw [parseLoop, if_neg hb, hs]
  rcases hr : parseHeader E c bytes with ⟨_ | _ | _, c', rest⟩
  · have := parseHeader_length_lt hb hr
    exact parseLoop_fuel this (Nat.lt_succ_self _)
  all_goals rfl

/-- In the body of a request `parseBody` is the whole of the loop. -/
theorem parseIncoming_inBody (hs : c.state = .inBody) (hb : bytes ≠ []) :
    parseIncoming E c h bytes = parseBody E c h bytes := by
  unfold parseIncoming
  rw [parseLoop, if_neg hb, hs]
  rcases hr : parseBody E c h bytes with ⟨_ | _ | _, c', h', handed, rest⟩
  · have hrest := @parseBody_rest _ _ _ _ E c h bytes (by rw [hr])
    rw [hr] at hrest
    obtain ⟨rfl, rfl⟩ := hrest
    obtain ⟨n, hn⟩ := Nat.exists_eq_succ_of_ne_zero (mt List.length_eq_zero_iff.1 hb)
    simp only [hn, parseLoop, if_true]
  all_goals rfl

/-! ### The invariant of a connection -/

/-- In the body of a request there is a content parser, the header parser is reset, and the head
came with exactly one `Content-Length`. -/
def Ok (c : HttpConnection Ctx Reply) : Prop :=
  c.state = .inBody → (∃ ctx, c.contentParser = some ctx) ∧ c.headerParser = {} ∧
    (c.request.equalRange (ofLiteral "Content-Length")).length = 1

/-- A request was answered and the connection waits for the next one: the parser is as new, but
the header table still holds the one `Content-Length`. -/
def Between (c : HttpConnection Ctx Reply) : Prop :=
  c.state = .inHeader ∧ c.headerParser = {} ∧
    (c.request.equalRange (ofLiteral "Content-Length")).length = 1

theorem ok_of_inHeader (hs : c.state = .inHeader) : c.Ok :=
  fun h => by rw [hs] at h; cases h

/-- After a head that is not refused, the body comes next or the piece has ended. -/
theorem parseHeader_ok {c' : HttpConnection Ctx Reply} (hs : c.state = .inHeader)
    (hr : parseHeader E c bytes = (.continue, c', rest)) :
    c'.Ok ∧ (c'.state = .inBody ∨ rest = []) := by
  rcases hp : c.headerParser.parse c.request bytes with ⟨⟨p, req⟩, _ | _ | _, rest'⟩
  · rw [parseHeader_of_none hp, Prod.mk.injEq, Prod.mk.injEq] at hr
    rw [← hr.2.1, ← hr.2.2]
    exact ⟨ok_of_inHeader hs, .inr (Consumer.rest_eq_nil_of_run_none hp)⟩
  · rcases hc : checkRequest E.httpPath req with status | plan
    · obtain ⟨c'', hc'', -⟩ := parseHeader_of_error hp hc
      simp [hc''] at hr
    · rw [parseHeader_of_ok hp hc, Prod.mk.injEq, Prod.mk.injEq] at hr
      rw [← hr.2.1]
      refine ⟨fun _ => ⟨⟨_, rfl⟩, rfl, ?_⟩, .inl rfl⟩
      exact HttpRequest.length_eq_one_of_getContentLength (checkRequest_eq_ok.1 hc).2.1
  · simp [parseHeader_of_bad hp] at hr

theorem finishBody_between {ctx : Ctx} (hq : c.headerParser = {})
    (hl : (c.request.equalRange (ofLiteral "Content-Length")).length = 1)
    (hr : (finishBody E c h ctx rest).result = .done) :
    (finishBody E c h ctx rest).conn.Between := by
  cases hw : E.xml.wellFormed ctx with
  | false => simp [finishBody_of_illFormed hw, refuseBody] at hr
  | true =>
    rcases hh : E.handleHttpRequest h (E.xml.extractDoc ctx) with ⟨_ | reply, h'⟩
    · simp [finishBody_of_none hw hh, refuseBody] at hr
    · rw [finishBody_of_some hw hh]
      exact ⟨rfl, hq, hl⟩

theorem parseBody_ok (hs : c.state = .inBody) (hok : c.Ok) :
    ((parseBody E c h bytes).result = .continue → (parseBody E c h bytes).conn.Ok) ∧
    ((parseBody E c h bytes).result = .done → (parseBody E c h bytes).conn.Between) := by
  obtain ⟨⟨ctx, hp⟩, hq, hl⟩ := hok hs
  rcases Nat.lt_or_ge bytes.length c.contentRemaining with hn | hn
  · rw [parseBody_of_lt hp hn]
    rcases E.xml.parseChunk ctx bytes false with _ | ctx
    · simp [refuseBody]
    · exact ⟨fun _ _ => ⟨⟨ctx, rfl⟩, hq, hl⟩, fun h => by simp at h⟩
  · rw [parseBody_of_le hp hn]
    rcases E.xml.parseChunk ctx (bytes.take c.contentRemaining) true with _ | ctx
    · simp [refuseBody]
    · exact ⟨fun h => absurd h finishBody_result, fun h => finishBody_between hq hl h⟩

/-- **Every piece of input keeps the invariant**, and an answered request leaves the connection
between two requests. -/
theorem parseIncoming_ok (hok : c.Ok) :
    ((parseIncoming E c h bytes).result = .continue → (parseIncoming E c h bytes).conn.Ok) ∧
    ((parseIncoming E c h bytes).result = .done → (parseIncoming E c h bytes).conn.Between) := by
  by_cases hb : bytes = []
  · subst hb
    rw [parseIncoming_nil]
    exact ⟨fun _ => hok, fun h => by simp at h⟩
  cases hs : c.state with
  | inBody =>
    rw [parseIncoming_inBody hs hb]
    exact parseBody_ok hs hok
  | inHeader =>
    rw [parseIncoming_inHeader hs hb]
    rcases hr : parseHeader E c bytes with ⟨_ | _ | _, c', rest⟩
    · obtain ⟨hok', hs'⟩ := parseHeader_ok hs hr
      by_cases hb' : rest = []
      · subst hb'
        exact ⟨fun _ => hok', fun h => by simp [parseIncoming_nil] at h⟩
      · have hs' := hs'.resolve_right hb'
        simp only [parseIncoming_inBody hs' hb']
        exact parseBody_ok hs' hok'
    · simp
    · exact absurd (by rw [hr]) (@parseHeader_ne_done _ _ _ _ E c bytes)

/-! ### The handler -/

/-- What every request preserves of the handler's state, the end of a body preserves. -/
theorem parseBody_handler {P : σ → Prop} (hP : ∀ h doc, P h → P (E.handleHttpRequest h doc).2)
    (hh : P h) : P (parseBody E c h bytes).handler := by
  unfold parseBody finishBody
  dsimp only
  split
  · exact hh
  · split
    · exact hh
    · rename_i ctx _ _ ctx' _
      have hdoc := hP h (E.xml.extractDoc ctx') hh
      split_ifs
      · exact hh
      · split
        · rename_i h' hr
          rw [hr] at hdoc
          exact hdoc
        · rename_i reply h' hr
          rw [hr] at hdoc
          exact hdoc
      · exact hh

/-- What every request preserves of the handler's state, every piece of input preserves. -/
theorem parseIncoming_handler {P : σ → Prop} (hP : ∀ h doc, P h → P (E.handleHttpRequest h doc).2)
    (hh : P h) : P (parseIncoming E c h bytes).handler := by
  have hloop : ∀ (fuel : ℕ) (c : HttpConnection Ctx Reply) (h : σ) (bytes : List UInt8), P h →
      P (parseLoop E fuel c h bytes).handler := by
    intro fuel
    induction fuel with
    | zero => exact fun _ _ _ hh => hh
    | succ fuel ih =>
      intro c h bytes hh
      rw [parseLoop]
      split_ifs
      · exact hh
      · have hbody : P (parseBody E c h bytes).handler := parseBody_handler hP hh
        split
        · split
          · exact ih _ _ _ hh
          · exact hh
        · split
          · rename_i hr
            rw [hr] at hbody
            exact ih _ _ _ hbody
          · exact hbody
  exact hloop _ c h bytes hh

end Spec

end HttpConnection

end Wsddn
