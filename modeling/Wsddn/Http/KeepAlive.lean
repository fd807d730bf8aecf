import Wsddn.Http.Connection

/-!
# Requests on a kept connection

A connection that was kept after an answer goes on with the same `HttpRequest`: the parser is
reset, the method and the URI are overwritten by the next head, but nothing ever empties the
header table.  So the next request is judged on its own headers *and* on those of all requests
before it.  This file says when that can be seen.

* `treat` : how a connection treats the bytes it reads next, up to its first answer.
* `KeptAlive` : the connection has just answered a request and was kept.
* `treat_of_inHeader` : the treatment is the request parser, the checks `checkRequest` on the
  header table, and the XML parser on the body (`treatBody`).
* `treat_eq_fresh_iff` : **the exact condition** (`Unaffected`).  A kept connection treats what
  comes next as a new connection does if and only if the head is incomplete, malformed or not
  addressed to the daemon, or the request is refused in any case: with a `Content-Length` of its
  own, on its own headers; without one, on its headers joined to the old ones.
* `second_get_refused` : two ordinary `Get` requests on one connection; the second is refused.
-/

namespace Wsddn

open SysString HttpResponse

namespace HttpConnection

/-- How some input is treated: the result, the status of the answer and the document handed to
the handler. -/
structure Treatment (Doc : Type*) where
  result : ParseResult
  status : Option Status
  handed : Option Doc
  deriving DecidableEq

variable {Ctx Doc Reply σ : Type*} (E : HttpEnv Ctx Doc Reply σ)

/-- The treatment of what is read next, in pieces, up to the first answer. -/
def treat : HttpConnection Ctx Reply → σ → List (List UInt8) → Treatment Doc
  | _, _, [] => ⟨.continue, none, none⟩
  | c, h, bytes :: reads =>
    let r := parseIncoming E c h bytes
    if r.result = .continue then treat r.conn r.handler reads
    else ⟨r.result, some r.conn.response.status, r.handed⟩

/-- A connection in use: it was kept after every answer so far. -/
inductive Live : HttpConnection Ctx Reply → Prop
  | fresh : Live {}
  | more {c : HttpConnection Ctx Reply} {h : σ} {bytes : List UInt8} : Live c →
      (parseIncoming E c h bytes).result = .continue → Live (parseIncoming E c h bytes).conn
  | kept {c : HttpConnection Ctx Reply} {h : σ} {bytes : List UInt8} : Live c →
      (parseIncoming E c h bytes).result = .done →
      (parseIncoming E c h bytes).conn.keepAlive = true → Live (parseIncoming E c h bytes).conn

/-- The last input was answered and the connection is kept. -/
def KeptAlive (c : HttpConnection Ctx Reply) : Prop :=
  ∃ c₀ h bytes, Live E c₀ ∧ (parseIncoming E c₀ h bytes).result = .done ∧
    (parseIncoming E c₀ h bytes).conn = c ∧ c.keepAlive = true

/-! ### The treatment, without the loop -/

/-- The treatment of a body of which `n` bytes are still to come. -/
def treatBody (h : σ) : Ctx → ℕ → List (List UInt8) → Treatment Doc
  | _, _, [] => ⟨.continue, none, none⟩
  | ctx, n, bytes :: reads =>
    if bytes = [] then treatBody h ctx n reads
    else if bytes.length < n then
      match E.xml.parseChunk ctx bytes false with
      | none => ⟨.error, some .badRequest, none⟩
      | some ctx => treatBody h ctx (n - bytes.length) reads
    else
      match E.xml.parseChunk ctx (bytes.take n) true with
      | none => ⟨.error, some .badRequest, none⟩
      | some ctx =>
        if E.xml.wellFormed ctx then
          match (E.handleHttpRequest h (E.xml.extractDoc ctx)).1 with
          | none => ⟨.error, some .badRequest, some (E.xml.extractDoc ctx)⟩
          | some _ => ⟨.done, some .ok, some (E.xml.extractDoc ctx)⟩
        else ⟨.error, some .badRequest, none⟩

/-- The XML parser refuses the body: it raises, or the body ends and is not well formed. -/
def BodyRefused (X : XmlPush Ctx Doc) : Ctx → ℕ → List (List UInt8) → Prop
  | _, _, [] => False
  | ctx, n, bytes :: reads =>
    if bytes = [] then BodyRefused X ctx n reads
    else if bytes.length < n then
      match X.parseChunk ctx bytes false with
      | none => True
      | some ctx => BodyRefused X ctx (n - bytes.length) reads
    else
      match X.parseChunk ctx (bytes.take n) true with
      | none => True
      | some ctx => X.wellFormed ctx = false

/-- The request is refused before any document is handed over: by the checks on its head, or by
the XML parser. -/
def Refused (req : HttpRequest) (body : List (List UInt8)) : Prop :=
  match checkRequest E.httpPath req with
  | .error _ => True
  | .ok plan => BodyRefused E.xml (E.xml.createPush plan.charset) plan.length body

/-- The old headers `hs` do not show in the treatment of what is read next. -/
def Unaffected (hs : List (SysString × SysString)) (reads : List (List UInt8)) : Prop :=
  match HttpRequestParser.consumer.runReads ({}, {}) reads with
  | ((_, req), some .good, body) =>
    Addressed E.httpPath req →
      if req.equalRange (ofLiteral "Content-Length") ≠ [] then Refused E req body
      else Refused E { req with headers := hs ++ req.headers } body
  | _ => True

variable {E} {c : HttpConnection Ctx Reply} {h : σ}

theorem treat_cons_of_continue {bytes : List UInt8} {reads : List (List UInt8)}
    (hr : (parseIncoming E c h bytes).result = .continue) :
    treat E c h (bytes :: reads) =
      treat E (parseIncoming E c h bytes).conn (parseIncoming E c h bytes).handler reads := by
  rw [treat, if_pos hr]

theorem treat_cons_of_ne {bytes : List UInt8} {reads : List (List UInt8)}
    (hr : (parseIncoming E c h bytes).result ≠ .continue) :
    treat E c h (bytes :: reads) =
      ⟨(parseIncoming E c h bytes).result, some (parseIncoming E c h bytes).conn.response.status,
        (parseIncoming E c h bytes).handed⟩ := by
  rw [treat, if_neg hr]

theorem treat_cons_congr {c' : HttpConnection Ctx Reply} {bytes bytes' : List UInt8}
    (hin : parseIncoming E c h bytes = parseIncoming E c' h bytes') (reads : List (List UInt8)) :
    treat E c h (bytes :: reads) = treat E c' h (bytes' :: reads) := by
  rw [treat, treat, hin]

/-- In the body, the treatment is up to the XML parser and the handler. -/
theorem treat_of_inBody {reads : List (List UInt8)} : ∀ {c : HttpConnection Ctx Reply} {ctx : Ctx},
    c.state = .inBody → c.contentParser = some ctx →
      treat E c h reads = treatBody E h ctx c.contentRemaining reads := by
  induction reads with
  | nil => intro c ctx _ _; rfl
  | cons bytes reads ih =>
    intro c ctx hs hp
    by_cases hb : bytes = []
    · subst hb
      rw [treat_cons_of_continue (by rw [parseIncoming_nil]), treatBody, if_pos rfl,
        parseIncoming_nil]
      exact ih hs hp
    rw [treatBody, if_neg hb]
    have hbody := parseIncoming_inBody (E := E) (h := h) hs hb
    rcases Nat.lt_or_ge bytes.length c.contentRemaining with hn | hn
    · rw [if_pos hn]
      rw [parseBody_of_lt hp hn] at hbody
      rcases hx : E.xml.parseChunk ctx bytes false with _ | ctx'
      · rw [hx] at hbody
        rw [treat_cons_of_ne (by simp [hbody, refuseBody]), hbody]
        rfl
      · rw [hx] at hbody
        rw [treat_cons_of_continue (by rw [hbody]), hbody]
        exact ih hs rfl
    · rw [if_neg (Nat.not_lt.2 hn)]
      rw [parseBody_of_le hp hn] at hbody
      rcases hx : E.xml.parseChunk ctx (bytes.take c.contentRemaining) true with _ | ctx'
      · rw [hx] at hbody
        rw [treat_cons_of_ne (by simp [hbody, refuseBody]), hbody]
        rfl
      · rw [hx] at hbody
        rw [treat_cons_of_ne (by rw [hbody]; exact finishBody_result), hbody]
        cases hw : E.xml.wellFormed ctx' with
        | false =>
          simp [finishBody_of_illFormed hw, refuseBody, makeStockResponse, hw]
        | true =>
          rcases hh : E.handleHttpRequest h (E.xml.extractDoc ctx') with ⟨_ | reply, h'⟩
          · simp [finishBody_of_none hw hh, refuseBody, makeStockResponse, hw, hh]
          · simp [finishBody_of_some hw hh, makeReply, hw, hh]

variable (E) in
/-- The treatment of a complete head and of the body that follows. -/
def judge (h : σ) (req : HttpRequest) (body : List (List UInt8)) : Treatment Doc :=
  match checkRequest E.httpPath req with
  | .error status => ⟨.error, some status, none⟩
  | .ok plan => treatBody E h (E.xml.createPush plan.charset) plan.length body

/-- **In the head, the treatment is the request parser and then `judge`.** -/
theorem treat_of_inHeader {reads : List (List UInt8)} : ∀ {c : HttpConnection Ctx Reply},
    c.state = .inHeader → treat E c h reads =
      match HttpRequestParser.consumer.runReads (c.headerParser, c.request) reads with
      | (_, none, _) => ⟨.continue, none, none⟩
      | (_, some .bad, _) => ⟨.error, some .badRequest, none⟩
      | ((_, req), some .good, body) => judge E h req body := by
  induction reads with
  | nil => intro c _; rfl
  | cons bytes reads ih =>
    intro c hs
    by_cases hb : bytes = []
    · subst hb
      rw [treat_cons_of_continue (by rw [parseIncoming_nil]), parseIncoming_nil, ih hs,
        Consumer.runReads_cons_of_none (Consumer.run_nil _)]
    have hin := parseIncoming_inHeader (E := E) (h := h) hs hb
    rcases hp : c.headerParser.parse c.request bytes with ⟨⟨p, req⟩, _ | _ | _, rest⟩
    · rw [parseHeader_of_none hp, Consumer.rest_eq_nil_of_run_none hp] at hin
      simp only [parseIncoming_nil] at hin
      rw [treat_cons_of_continue (by rw [hin]), hin, Consumer.runReads_cons_of_none hp]
      exact ih hs
    · rw [Consumer.runReads_cons_of_some hp]
      rcases hc : checkRequest E.httpPath req with status | plan
      · obtain ⟨c', hc', hst⟩ := parseHeader_of_error hp hc
        rw [hc'] at hin
        simp only at hin
        rw [treat_cons_of_ne (by rw [hin]; simp), hin, hst]
        simp only [judge, hc, makeStockResponse]
      · rw [parseHeader_of_ok hp hc] at hin
        -- What is left of the piece belongs to the body, which the connection now is in.
        rw [treat_cons_congr hin, treat_of_inBody rfl rfl]
        simp only [judge, hc]
    · rw [parseHeader_of_bad hp] at hin
      simp only at hin
      rw [treat_cons_of_ne (by rw [hin]; simp), hin, Consumer.runReads_cons_of_some hp]
      rfl

/-! ### When the old headers show -/

/-- A request that is refused with no document handed over. -/
def refusal : Treatment Doc := ⟨.error, some .badRequest, none⟩

theorem treatBody_eq_refusal_iff {reads : List (List UInt8)} : ∀ {ctx : Ctx} {n : ℕ},
    treatBody E h ctx n reads = refusal ↔ BodyRefused E.xml ctx n reads := by
  induction reads with
  | nil => intro ctx n; simp [treatBody, BodyRefused, refusal]
  | cons bytes reads ih =>
    intro ctx n
    unfold treatBody BodyRefused
    split_ifs
    · exact ih
    · rcases E.xml.parseChunk ctx bytes false with _ | ctx'
      · simp [refusal]
      · exact ih
    · rcases E.xml.parseChunk ctx (bytes.take n) true with _ | ctx'
      · simp [refusal]
      · cases hw : E.xml.wellFormed ctx' with
        | false => simp [hw, refusal]
        | true =>
          rcases hh : (E.handleHttpRequest h (E.xml.extractDoc ctx')).1 with _ | reply <;>
            simp [hw, hh, refusal]

theorem judge_eq_refusal_iff {req : HttpRequest} {body : List (List UInt8)}
    (ha : Addressed E.httpPath req) : judge E h req body = refusal ↔ Refused E req body := by
  unfold judge Refused
  rcases hc : checkRequest E.httpPath req with status | plan
  · obtain rfl := checkRequest_error hc ha
    simp [refusal]
  · exact treatBody_eq_refusal_iff

/-- More than one `Content-Length`, or none: the request is refused. -/
theorem judge_eq_refusal_of_length {req : HttpRequest} {body : List (List UInt8)}
    (ha : Addressed E.httpPath req)
    (hl : (req.equalRange (ofLiteral "Content-Length")).length ≠ 1) :
    judge E h req body = refusal := by
  refine (judge_eq_refusal_iff ha).2 ?_
  unfold Refused
  rcases hc : checkRequest E.httpPath req with status | plan
  · trivial
  · exact absurd (HttpRequest.length_eq_one_of_getContentLength (checkRequest_eq_ok.1 hc).2.1) hl

/-- A request is judged the same with and without the old headers `hs`, which hold one
`Content-Length`. -/
theorem judge_joined_iff {hs : List (SysString × SysString)} {req : HttpRequest}
    {body : List (List UInt8)}
    (hl : (({ headers := hs } : HttpRequest).equalRange (ofLiteral "Content-Length")).length = 1) :
    judge E h { req with headers := hs ++ req.headers } body = judge E h req body ↔
      (Addressed E.httpPath req →
        if req.equalRange (ofLiteral "Content-Length") ≠ [] then Refused E req body
        else Refused E { req with headers := hs ++ req.headers } body) := by
  set joined : HttpRequest := { req with headers := hs ++ req.headers } with hjoined
  have haddr : Addressed E.httpPath joined ↔ Addressed E.httpPath req := Iff.rfl
  by_cases ha : Addressed E.httpPath req
  · have ha' := haddr.2 ha
    simp only [ha, forall_const]
    split_ifs with hown
    · -- With the old length there is one too many.
      have hmany : (joined.equalRange (ofLiteral "Content-Length")).length ≠ 1 := by
        rw [hjoined, HttpRequest.equalRange_append, List.length_append, hl]
        have := List.length_pos_iff.2 hown
        omega
      rw [judge_eq_refusal_of_length ha' hmany, eq_comm, judge_eq_refusal_iff ha]
    · -- Without a length of its own, a new connection refuses the request.
      have hnone : (req.equalRange (ofLiteral "Content-Length")).length ≠ 1 := by
        rw [not_not.1 hown]
        simp
      rw [judge_eq_refusal_of_length ha hnone, judge_eq_refusal_iff ha']
  · simp [judge, checkRequest_of_not_addressed ha, checkRequest_of_not_addressed (mt haddr.1 ha), ha]

theorem Live.ok (hc : Live E c) : c.Ok := by
  induction hc with
  | fresh => exact ok_of_inHeader rfl
  | more _ hr ih => exact (parseIncoming_ok ih).1 hr
  | kept _ hr _ ih => exact ok_of_inHeader ((parseIncoming_ok ih).2 hr).1

theorem KeptAlive.between (hc : KeptAlive E c) : c.Between := by
  obtain ⟨c₀, h, bytes, hl, hr, rfl, -⟩ := hc
  exact (parseIncoming_ok hl.ok).2 hr

/-- **When a kept connection treats a request as a new one does.**  The only trace of the earlier
requests is their headers, and they make no difference exactly if the request is `Unaffected` by
them. -/
theorem treat_eq_fresh_iff (hc : KeptAlive E c) (h : σ) (reads : List (List UInt8)) :
    treat E c h reads = treat E {} h reads ↔ Unaffected E c.request.headers reads := by
  obtain ⟨hs, hp, hl⟩ := hc.between
  have hagree : HttpRequestParser.Agree c.request.headers (c.headerParser, c.request) ({}, {}) :=
    ⟨hp, by simp, by simp [hp, HttpRequestParser.pastMethod],
      by simp [hp, HttpRequestParser.pastUri], by simp [hp, HttpRequestParser.pastVersion]⟩
  obtain ⟨hw, hr⟩ := @HttpRequestParser.runReads_agree _ reads _ _ hagree
  rw [treat_of_inHeader hs, treat_of_inHeader rfl]
  unfold Unaffected
  rcases h₁ : HttpRequestParser.consumer.runReads (c.headerParser, c.request) reads
    with ⟨⟨p, req⟩, o, body⟩
  rcases h₂ : HttpRequestParser.consumer.runReads ({}, {}) reads with ⟨⟨p', req'⟩, o', body'⟩
  rw [h₁, h₂] at hw hr
  obtain ⟨rfl, rfl⟩ := Prod.mk.inj hr
  cases o with
  | none => simp
  | some result =>
    cases result with
    | bad => simp
    | good =>
      have hlast := HttpRequestParser.runReads_good h₁
      obtain rfl : req = { req' with headers := c.request.headers ++ req'.headers } := by
        obtain ⟨hv₁, hv₂⟩ := hw.version (by rw [hlast]; rfl)
        have hm := hw.method (by rw [hlast]; rfl)
        have hu := hw.uri (by rw [hlast]; rfl)
        have hh := hw.headers
        cases req
        simp_all
      exact judge_joined_iff hl

/-! ### Two requests on one connection -/

/-- A `Get` request, with the message identifier `id`. -/
def getBody (id : String) : List UInt8 :=
  ofLiteral "<s:Envelope xmlns:s=\"http://www.w3.org/2003/05/soap-envelope\" " ++
  ofLiteral "xmlns:a=\"http://schemas.xmlsoap.org/ws/2004/08/addressing\"><s:Header>" ++
  ofLiteral "<a:Action>http://schemas.xmlsoap.org/ws/2004/09/transfer/Get</a:Action>" ++
  ofLiteral "<a:MessageID>" ++ ofLiteral id ++ ofLiteral "</a:MessageID></s:Header></s:Envelope>"

/-- The same as a client sends it on a connection that it wants to keep. -/
def getRequest (id : String) : List UInt8 :=
  ofLiteral "POST /uuid HTTP/1.1\r\nConnection: keep-alive\r\nContent-Length: 258\r\n\r\n" ++
  getBody id

/-- A connection's surroundings, on the bodies `getBody "urn:1"` and `getBody "urn:2"`: the XML
parser collects the bytes, which are well formed, and the handler replies to both. -/
def getEnv : HttpEnv (List UInt8) (List UInt8) Unit Unit where
  httpPath := ofLiteral "uuid"
  xml :=
    { createPush := fun _ => []
      parseChunk := fun ctx bytes _ => some (ctx ++ bytes)
      wellFormed := fun ctx => ctx == getBody "urn:1" || ctx == getBody "urn:2"
      extractDoc := fun ctx => ctx }
  handleHttpRequest := fun _ _ => (some (), ())

/-- The connection after the first request. -/
def afterFirstGet : HttpConnection (List UInt8) Unit :=
  (parseIncoming getEnv {} () (getRequest "urn:1")).conn

theorem keptAlive_afterFirstGet : KeptAlive getEnv afterFirstGet :=
  ⟨{}, (), getRequest "urn:1", .fresh, by decide +kernel, rfl, by decide +kernel⟩

/-- **The second of two ordinary requests is refused** on the connection that answered the first,
and answered on a new one. -/
theorem second_get_refused : KeptAlive getEnv afterFirstGet ∧
    treat getEnv afterFirstGet () [getRequest "urn:2"] ≠ treat getEnv {} () [getRequest "urn:2"] :=
  ⟨keptAlive_afterFirstGet, by decide +kernel⟩

/-- A second request for another path is treated as on a new connection, and so is unaffected. -/
theorem unaffected_other_path :
    Unaffected getEnv afterFirstGet.request.headers [ofLiteral "GET / HTTP/1.1\r\n\r\n"] :=
  (treat_eq_fresh_iff keptAlive_afterFirstGet () _).1 (by decide +kernel)

end HttpConnection

end Wsddn
