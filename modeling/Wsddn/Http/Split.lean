import Wsddn.Http.KeepAlive
import Wsddn.Machine.Basic

/-!
# The reads of a connection (`HttpConnection::read`, `HttpConnection::write`)

A connection reads, answers, and reads again until it is closed.  How the stream was cut into
reads is up to the network and should not be seen in the answers.  It can be: `parseIncoming`
returns at the end of a request, and what is left of the read is never looked at.

* `Session` : a connection with what it has done so far; `Session.read` is one read with its
  answer, and `sessions` the machine that reads.
* `parseIncoming_append_of_continue`, `parseIncoming_append_of_ne` : a read that is cut in two is
  treated as the two reads are, up to the point where a request ends.
* `Overrun` : a read that goes past the end of a request which is answered on a connection that
  is kept.
* `foldl_read_eq_bytewise` : as long as no read overruns, the session is the one that reads byte by
  byte.
* `cuts_agree_iff` : **the exact condition.**  Two cuts of a stream give the same outcomes and
  drop no byte if and only if no read of either overruns.
* `pipelined_second_dropped` : two requests in one read; the second is never answered.
-/

namespace Wsddn

open SysString HttpResponse

/-- The push parser does not see how its input was cut. -/
def XmlPush.Chunked {Ctx Doc : Type*} (X : XmlPush Ctx Doc) : Prop :=
  ∀ ctx a b last, a ≠ [] → b ≠ [] →
    X.parseChunk ctx (a ++ b) last = (X.parseChunk ctx a false).bind (X.parseChunk · b last)

namespace HttpConnection

/-- What a connection does that can be seen from outside. -/
inductive Outcome (Doc Reply : Type*) where
  | handed (doc : Doc)
  | response (response : HttpResponse Reply)
  | closed
  deriving DecidableEq

/-- A connection in use (`none` once it is closed), with the outcomes so far and the bytes that
were read and never looked at. -/
structure Session (Ctx Doc Reply σ : Type*) where
  conn : Option (HttpConnection Ctx Reply) := some {}
  handler : σ
  outcomes : List (Outcome Doc Reply) := []
  dropped : List UInt8 := []

variable {Ctx Doc Reply σ : Type*} (E : HttpEnv Ctx Doc Reply σ)

namespace Session

/-- The answer is written; after a final one the connection is closed, otherwise it is read
again. -/
def write (s : Session Ctx Doc Reply σ) (r : Parsed Ctx Doc Reply σ) (finalWrite : Bool) :
    Session Ctx Doc Reply σ :=
  let answer := (r.handed.map .handed).toList ++ [.response r.conn.response]
  if finalWrite then
    { s with conn := none, handler := r.handler, outcomes := s.outcomes ++ answer ++ [.closed] }
  else
    { s with conn := some r.conn, handler := r.handler, outcomes := s.outcomes ++ answer,
             dropped := s.dropped ++ r.rest }

/-- What follows from a read, by the result of `parseIncoming`. -/
def proceed (s : Session Ctx Doc Reply σ) (r : Parsed Ctx Doc Reply σ) : Session Ctx Doc Reply σ :=
  match r.result with
  | .continue => { s with conn := some r.conn, handler := r.handler }
  | .done => s.write r (!r.conn.keepAlive)
  | .error => s.write r true

/-- One read, and the write it leads to.  Nothing is read from a closed connection. -/
def read (s : Session Ctx Doc Reply σ) (bytes : List UInt8) : Session Ctx Doc Reply σ :=
  match s.conn with
  | none => s
  | some c => s.proceed (parseIncoming E c s.handler bytes)

end Session

/-- The connection as a machine that reads. -/
def sessions : Machine (Session Ctx Doc Reply σ) (List UInt8) where
  init s := s.conn = some {} ∧ s.outcomes = [] ∧ s.dropped = []
  step s bytes := some (s.read E bytes)

/-- A body of which `n` bytes are to come ends inside `bytes`, with something after it, and it is
answered. -/
def BodyOverrun (h : σ) (ctx : Ctx) (n : ℕ) (bytes : List UInt8) : Prop :=
  n < bytes.length ∧ ∃ ctx', E.xml.parseChunk ctx (bytes.take n) true = some ctx' ∧
    E.xml.wellFormed ctx' = true ∧
    (E.handleHttpRequest h (E.xml.extractDoc ctx')).1.isSome = true

/-- The read goes past the end of a request that is answered, on a connection that is kept. -/
def Overrun (c : HttpConnection Ctx Reply) (h : σ) (bytes : List UInt8) : Prop :=
  match c.state with
  | .inHeader =>
    ∃ p req rest plan, c.headerParser.parse c.request bytes = ((p, req), some .good, rest) ∧
      checkRequest E.httpPath req = .ok plan ∧ plan.keepAlive = true ∧
      BodyOverrun E h (E.xml.createPush plan.charset) plan.length rest
  | .inBody =>
    c.keepAlive = true ∧ ∃ ctx, c.contentParser = some ctx ∧
      BodyOverrun E h ctx c.contentRemaining bytes

/-- The read stays within the request that is being read. -/
def Session.Within (s : Session Ctx Doc Reply σ) (bytes : List UInt8) : Prop :=
  ∀ c, s.conn = some c → ¬ Overrun E c s.handler bytes

/-- A way of cutting a stream into the reads of a connection, whose buffer has 8192 bytes. -/
structure Cut (stream : List UInt8) where
  reads : List (List UInt8)
  flatten_eq : reads.flatten = stream
  nonempty : ∀ bytes ∈ reads, bytes ≠ []
  bounded : ∀ bytes ∈ reads, bytes.length ≤ 8192

/-- The session of a new connection that reads the stream so. -/
def Cut.session {stream : List UInt8} (k : Cut stream) (h : σ) : Session Ctx Doc Reply σ :=
  k.reads.foldl (Session.read E) { handler := h }

variable {E} {c : HttpConnection Ctx Reply} {h : σ} {a b : List UInt8}

/-! ### A read cut in two -/

/-- The same treatment: whatever can be told after it.  A refused connection is closed, and what
it would have gone on with does not matter. -/
structure Parsed.Same (r r' : Parsed Ctx Doc Reply σ) : Prop where
  result : r.result = r'.result
  handler : r.handler = r'.handler
  handed : r.handed = r'.handed
  response : r.conn.response = r'.conn.response
  conn : r.result ≠ .error → r.conn = r'.conn
  rest : r.result ≠ .error → r.rest = r'.rest

theorem Parsed.Same.refl (r : Parsed Ctx Doc Reply σ) : Parsed.Same r r :=
  ⟨rfl, rfl, rfl, rfl, fun _ => rfl, fun _ => rfl⟩

theorem Parsed.Same.of_error {r r' : Parsed Ctx Doc Reply σ} (he : r.result = .error)
    (hr : r.result = r'.result) (hh : r.handler = r'.handler) (hd : r.handed = r'.handed)
    (hs : r.conn.response = r'.conn.response) : Parsed.Same r r' :=
  ⟨hr, hh, hd, hs, fun h => absurd he h, fun h => absurd he h⟩

theorem finishBody_same {ctx : Ctx} {rest : List UInt8} {x : Option Ctx} :
    Parsed.Same (finishBody E c h ctx rest)
      (finishBody E { c with contentParser := x } h ctx rest) := by
  cases hw : E.xml.wellFormed ctx with
  | false =>
    rw [finishBody_of_illFormed hw, finishBody_of_illFormed hw]
    exact .of_error rfl rfl rfl rfl rfl
  | true =>
    rcases hh : E.handleHttpRequest h (E.xml.extractDoc ctx) with ⟨_ | reply, h'⟩
    · rw [finishBody_of_none hw hh, finishBody_of_none hw hh]
      exact .of_error rfl rfl rfl rfl rfl
    · rw [finishBody_of_some hw hh, finishBody_of_some hw hh]
      exact .refl _

theorem finishBody_append {ctx : Ctx} {rest : List UInt8} :
    finishBody E c h ctx (rest ++ b) =
      { finishBody E c h ctx rest with rest := (finishBody E c h ctx rest).rest ++ b } := by
  cases hw : E.xml.wellFormed ctx with
  | false => simp [finishBody_of_illFormed hw, refuseBody]
  | true =>
    rcases hh : E.handleHttpRequest h (E.xml.extractDoc ctx) with ⟨_ | reply, h'⟩
    · simp [finishBody_of_none hw hh, refuseBody]
    · simp [finishBody_of_some hw hh]

/-- A body that does not end in `a` has some of `b` left to read. -/
theorem take_sub_ne_nil {n : ℕ} (hn : a.length < n) (hb : b ≠ []) : b.take (n - a.length) ≠ [] := by
  rw [Ne, List.take_eq_nil_iff]
  rintro (h0 | h0)
  · omega
  · exact hb h0

/-- A read of a body that goes on, and the next one, are together one read. -/
theorem parseBody_append_of_continue (hX : E.xml.Chunked) {ctx : Ctx}
    (hp : c.contentParser = some ctx) (ha : a ≠ []) (hb : b ≠ [])
    (hr : (parseBody E c h a).result = .continue) :
    Parsed.Same (parseBody E c h (a ++ b))
      (parseBody E (parseBody E c h a).conn (parseBody E c h a).handler b) := by
  rcases Nat.lt_or_ge a.length c.contentRemaining with hn | hn
  · rw [parseBody_of_lt hp hn] at hr ⊢
    rcases hx : E.xml.parseChunk ctx a false with _ | ctx'
    · simp [hx, refuseBody] at hr
    have hxb : ∀ b' last, b' ≠ [] →
        E.xml.parseChunk ctx (a ++ b') last = E.xml.parseChunk ctx' b' last := by
      intro b' last hb'
      rw [hX ctx a b' last ha hb', hx, Option.bind_some]
    simp only
    rcases Nat.lt_or_ge (a ++ b).length c.contentRemaining with hm | hm
    · -- the body does not end in `b` either
      have hm' : b.length < c.contentRemaining - a.length := by
        rw [List.length_append] at hm
        omega
      rw [parseBody_of_lt hp hm, parseBody_of_lt rfl hm', hxb b false hb, List.length_append,
        Nat.sub_sub]
      rcases E.xml.parseChunk ctx' b false with _ | ctx''
      · exact .of_error rfl rfl rfl rfl rfl
      · exact .refl _
    · -- the body ends in `b`, and its last chunk starts with `a` or is given after it
      have hm' : c.contentRemaining - a.length ≤ b.length := by
        rw [List.length_append] at hm
        omega
      have hne := take_sub_ne_nil hn hb
      rw [parseBody_of_le hp hm, parseBody_of_le rfl hm', List.take_append,
        List.take_of_length_le (Nat.le_of_lt hn), List.drop_append,
        List.drop_of_length_le (Nat.le_of_lt hn), List.nil_append, hxb _ true hne]
      rcases E.xml.parseChunk ctx' (b.take (c.contentRemaining - a.length)) true with _ | ctx''
      · exact .of_error rfl rfl rfl rfl rfl
      · exact finishBody_same
  · -- a body that ends in `a` does not go on
    rw [parseBody_of_le hp hn] at hr
    rcases hx : E.xml.parseChunk ctx (a.take c.contentRemaining) true with _ | ctx'
    · simp [hx, refuseBody] at hr
    · rw [hx] at hr
      exact absurd hr finishBody_result

/-- A read of a body that does not go on decides, whatever follows it. -/
theorem parseBody_append_of_ne (hX : E.xml.Chunked) {ctx : Ctx}
    (hp : c.contentParser = some ctx) (ha : a ≠ []) (hb : b ≠ [])
    (hr : (parseBody E c h a).result ≠ .continue) :
    Parsed.Same (parseBody E c h (a ++ b))
      { parseBody E c h a with rest := (parseBody E c h a).rest ++ b } := by
  rcases Nat.lt_or_ge a.length c.contentRemaining with hn | hn
  · rw [parseBody_of_lt hp hn] at hr ⊢
    rcases hx : E.xml.parseChunk ctx a false with _ | ctx'
    · -- The XML parser raises inside `a`, and so it does with any continuation.
      have hxb : ∀ b' last, b' ≠ [] → E.xml.parseChunk ctx (a ++ b') last = none := by
        intro b' last hb'
        rw [hX ctx a b' last ha hb', hx, Option.bind_none]
      rcases Nat.lt_or_ge (a ++ b).length c.contentRemaining with hm | hm
      · rw [parseBody_of_lt hp hm, hxb b false hb]
        exact .of_error rfl rfl rfl rfl rfl
      · have hne := take_sub_ne_nil hn hb
        rw [parseBody_of_le hp hm, List.take_append, List.take_of_length_le (Nat.le_of_lt hn),
          hxb _ true hne]
        exact .of_error rfl rfl rfl rfl rfl
    · simp [hx] at hr
  · -- the body ends in `a`, and `b` is behind it
    have hm : c.contentRemaining ≤ (a ++ b).length := by
      rw [List.length_append]
      omega
    rw [parseBody_of_le hp hn, parseBody_of_le hp hm, List.take_append_of_le_length hn,
      List.drop_append_of_le_length hn]
    rcases E.xml.parseChunk ctx (a.take c.contentRemaining) true with _ | ctx'
    · exact .refl _
    · simp only
      rw [finishBody_append]
      exact .refl _

/-- An incomplete head and what follows are together one read. -/
theorem parseHeader_append_of_none {p : HttpRequestParser} {req : HttpRequest} {rest : List UInt8}
    (hp : c.headerParser.parse c.request a = ((p, req), none, rest)) :
    parseHeader E c (a ++ b) = parseHeader E { c with headerParser := p, request := req } b := by
  have happ : c.headerParser.parse c.request (a ++ b) = p.parse req b :=
    Consumer.run_append_of_none b hp
  simp only [parseHeader, happ]

theorem parseBody_state (hs : c.state = .inBody) (hr : (parseBody E c h a).result = .continue) :
    (parseBody E c h a).conn.state = .inBody := by
  rcases hp : c.contentParser with _ | ctx
  · simp [parseBody, hp, refuseBody] at hr
  · rcases Nat.lt_or_ge a.length c.contentRemaining with hn | hn
    · rw [parseBody_of_lt hp hn] at hr ⊢
      rcases hx : E.xml.parseChunk ctx a false with _ | ctx'
      · simp [hx, refuseBody] at hr
      · exact hs
    · rw [parseBody_of_le hp hn] at hr
      rcases hx : E.xml.parseChunk ctx (a.take c.contentRemaining) true with _ | ctx'
      · simp [hx, refuseBody] at hr
      · rw [hx] at hr
        exact absurd hr finishBody_result

/-- A head that is complete or malformed decides, whatever follows it. -/
theorem parseHeader_append_of_some {w : HttpRequestParser.Work} {o : ResultType}
    {rest : List UInt8} (hp : c.headerParser.parse c.request a = (w, some o, rest)) :
    parseHeader E c (a ++ b) =
      ((parseHeader E c a).1, (parseHeader E c a).2.1, (parseHeader E c a).2.2 ++ b) := by
  have happ : c.headerParser.parse c.request (a ++ b) = (w, some o, rest ++ b) :=
    Consumer.run_append_of_some b hp
  obtain ⟨p, req⟩ := w
  cases o with
  | bad => simp only [parseHeader, hp, happ]
  | good =>
    simp only [parseHeader, hp, happ]
    by_cases haddr : Addressed E.httpPath req
    · rw [if_neg (not_not.2 haddr), if_neg (not_not.2 haddr)]
      rcases req.getContentLength with _ | _ | n
      · rfl
      · rfl
      · simp only
        split_ifs
        · rfl
        · cases contentCharset req <;> rfl
    · rw [if_pos haddr, if_pos haddr]

/-- **A read that goes on, and the next one, are together one read.** -/
theorem parseIncoming_append_of_continue (hX : E.xml.Chunked) (hok : c.Ok) (ha : a ≠ [])
    (hb : b ≠ []) (hr : (parseIncoming E c h a).result = .continue) :
    Parsed.Same (parseIncoming E c h (a ++ b))
      (parseIncoming E (parseIncoming E c h a).conn (parseIncoming E c h a).handler b) := by
  have hab : a ++ b ≠ [] := List.append_ne_nil_of_left_ne_nil ha b
  -- In a body, which the connection is in from the start or after a complete head.
  have body : ∀ {c : HttpConnection Ctx Reply} {a : List UInt8}, c.state = .inBody → c.Ok →
      a ≠ [] → (parseIncoming E c h a).result = .continue →
      Parsed.Same (parseIncoming E c h (a ++ b))
        (parseIncoming E (parseIncoming E c h a).conn (parseIncoming E c h a).handler b) := by
    intro c a hs hok ha hr
    obtain ⟨⟨ctx, hp⟩, -⟩ := hok hs
    rw [parseIncoming_inBody hs (List.append_ne_nil_of_left_ne_nil ha b)]
    rw [parseIncoming_inBody hs ha] at hr ⊢
    rw [parseIncoming_inBody (parseBody_state hs hr) hb]
    exact parseBody_append_of_continue hX hp ha hb hr
  cases hs : c.state with
  | inBody => exact body hs hok ha hr
  | inHeader =>
    rw [parseIncoming_inHeader hs hab]
    rw [parseIncoming_inHeader hs ha] at hr ⊢
    rcases hp : c.headerParser.parse c.request a with ⟨⟨p, req⟩, _ | o, rest⟩
    · -- the head is not complete: the parser goes on with `b` where it stopped
      rw [parseHeader_append_of_none hp, parseHeader_of_none hp,
        Consumer.rest_eq_nil_of_run_none hp]
      simp only [parseIncoming_nil]
      rw [← parseIncoming_inHeader (c := { c with headerParser := p, request := req }) hs hb]
      exact .refl _
    · rw [parseHeader_append_of_some hp]
      rcases hh : parseHeader E c a with ⟨_ | _ | _, c', rest'⟩
      · rw [hh] at hr
        simp only at hr ⊢
        obtain ⟨hok', hs'⟩ := parseHeader_ok hs hh
        -- the head ends in `a`, perhaps with some of the body behind it
        by_cases hrest : rest' = []
        · rw [hrest, List.nil_append, parseIncoming_nil]
          exact .refl _
        · exact body (hs'.resolve_right hrest) hok' hrest hr
      all_goals simp [hh] at hr

/-- **A read that does not go on decides**, whatever follows it. -/
theorem parseIncoming_append_of_ne (hX : E.xml.Chunked) (hok : c.Ok) (ha : a ≠ []) (hb : b ≠ [])
    (hr : (parseIncoming E c h a).result ≠ .continue) :
    Parsed.Same (parseIncoming E c h (a ++ b))
      { parseIncoming E c h a with rest := (parseIncoming E c h a).rest ++ b } := by
  have hab : a ++ b ≠ [] := List.append_ne_nil_of_left_ne_nil ha b
  cases hs : c.state with
  | inBody =>
    obtain ⟨⟨ctx, hp⟩, -⟩ := hok hs
    rw [parseIncoming_inBody hs hab]
    rw [parseIncoming_inBody hs ha] at hr ⊢
    exact parseBody_append_of_ne hX hp ha hb hr
  | inHeader =>
    rw [parseIncoming_inHeader hs hab]
    rw [parseIncoming_inHeader hs ha] at hr ⊢
    rcases hp : c.headerParser.parse c.request a with ⟨⟨p, req⟩, _ | o, rest⟩
    · rw [parseHeader_of_none hp, Consumer.rest_eq_nil_of_run_none hp] at hr
      simp [parseIncoming_nil] at hr
    · rw [parseHeader_append_of_some hp]
      rcases hh : parseHeader E c a with ⟨_ | _ | _, c', rest'⟩
      · rw [hh] at hr
        simp only at hr ⊢
        obtain ⟨hok', hs'⟩ := parseHeader_ok hs hh
        by_cases hrest : rest' = []
        · rw [hrest, parseIncoming_nil] at hr
          exact absurd rfl hr
        · have hs' := hs'.resolve_right hrest
          obtain ⟨⟨ctx, hp'⟩, -⟩ := hok' hs'
          rw [parseIncoming_inBody hs' (List.append_ne_nil_of_left_ne_nil hrest b)]
          rw [parseIncoming_inBody hs' hrest] at hr ⊢
          exact parseBody_append_of_ne hX hp' hrest hb hr
      all_goals exact .refl _

/-! ### The end of a request inside a read -/

/-- The body ends inside the read and is answered, on a connection that is kept. -/
theorem parseBody_overrun_iff {ctx : Ctx} (hp : c.contentParser = some ctx) :
    (parseBody E c h a).result = .done ∧ (parseBody E c h a).conn.keepAlive = true ∧
        (parseBody E c h a).rest ≠ [] ↔
      c.keepAlive = true ∧ BodyOverrun E h ctx c.contentRemaining a := by
  rcases Nat.lt_or_ge a.length c.contentRemaining with hn | hn
  · rw [parseBody_of_lt hp hn]
    have hnot : ¬ BodyOverrun E h ctx c.contentRemaining a := fun ho => by
      have := ho.1
      omega
    rcases E.xml.parseChunk ctx a false with _ | ctx' <;> simp [refuseBody, hnot]
  · rw [parseBody_of_le hp hn]
    have hrest : a.drop c.contentRemaining ≠ [] ↔ c.contentRemaining < a.length := by
      rw [Ne, List.drop_eq_nil_iff, Nat.not_le]
    rcases hx : E.xml.parseChunk ctx (a.take c.contentRemaining) true with _ | ctx'
    · simp [refuseBody, BodyOverrun, hx]
    · cases hw : E.xml.wellFormed ctx' with
      | false => simp [finishBody_of_illFormed hw, refuseBody, BodyOverrun, hx, hw]
      | true =>
        rcases hh : E.handleHttpRequest h (E.xml.extractDoc ctx') with ⟨_ | reply, h'⟩
        · simp [finishBody_of_none hw hh, refuseBody, BodyOverrun, hx, hw, hh]
        · simp only [finishBody_of_some hw hh, BodyOverrun, hx, hw, hh, hrest, true_and,
            Option.isSome_some, Option.some.injEq, exists_eq_left', and_true]

/-- **A read overruns exactly if the connection answers, is kept, and leaves bytes behind.** -/
theorem overrun_iff (hok : c.Ok) :
    Overrun E c h a ↔ (parseIncoming E c h a).result = .done ∧
      (parseIncoming E c h a).conn.keepAlive = true ∧ (parseIncoming E c h a).rest ≠ [] := by
  by_cases ha : a = []
  · subst ha
    simp only [parseIncoming_nil, reduceCtorEq, false_and, iff_false]
    unfold Overrun
    cases hs : c.state with
    | inHeader =>
      rintro ⟨p, req, rest, plan, hp, -⟩
      simp [HttpRequestParser.parse] at hp
    | inBody =>
      rintro ⟨-, ctx, -, hn, -⟩
      simp at hn
  unfold Overrun
  cases hs : c.state with
  | inBody =>
    obtain ⟨⟨ctx, hp⟩, -⟩ := hok hs
    rw [parseIncoming_inBody hs ha, parseBody_overrun_iff hp]
    simp [hp]
  | inHeader =>
    rw [parseIncoming_inHeader hs ha]
    rcases hp : c.headerParser.parse c.request a with ⟨⟨p, req⟩, _ | _ | _, rest⟩
    · rw [parseHeader_of_none hp, Consumer.rest_eq_nil_of_run_none hp]
      simp [parseIncoming_nil]
    · rcases hc : checkRequest E.httpPath req with status | plan
      · obtain ⟨c', hc', -⟩ := parseHeader_of_error hp hc
        simp [hc', hc]
      · rw [parseHeader_of_ok hp hc]
        by_cases hrest : rest = []
        · simp [hrest, parseIncoming_nil, BodyOverrun]
        · simp only
          rw [parseIncoming_inBody rfl hrest, parseBody_overrun_iff rfl]
          simp only [Prod.mk.injEq, true_and]
          constructor
          · rintro ⟨_, _, _, plan', ⟨⟨rfl, rfl⟩, rfl⟩, hc', ho⟩
            obtain rfl : plan = plan' := Except.ok.inj (hc.symm.trans hc')
            exact ho
          · intro ho
            exact ⟨p, req, rest, plan, ⟨⟨rfl, rfl⟩, rfl⟩, hc, ho⟩
    · rw [parseHeader_of_bad hp]
      simp

/-! ### Whole sessions -/

namespace Session

variable {s : Session Ctx Doc Reply σ}

/-- The invariant of a session: that of its connection. -/
def Ok (s : Session Ctx Doc Reply σ) : Prop := ∀ c, s.conn = some c → c.Ok

theorem read_of_none (hc : s.conn = none) (bytes : List UInt8) : s.read E bytes = s := by
  simp only [read, hc]

theorem read_of_some (hc : s.conn = some c) (bytes : List UInt8) :
    s.read E bytes = s.proceed (parseIncoming E c s.handler bytes) := by
  simp only [read, hc]

/-- Only what can be told counts. -/
theorem proceed_congr {r r' : Parsed Ctx Doc Reply σ} (h : Parsed.Same r r') :
    s.proceed r = s.proceed r' := by
  unfold proceed write
  rw [← h.result, ← h.handler, ← h.handed, ← h.response]
  rcases hr : r.result
  · rw [h.conn (by simp [hr])]
  · rfl
  · rw [h.conn (by simp [hr]), h.rest (by simp [hr])]

theorem read_ok (hs : s.Ok) (bytes : List UInt8) : (s.read E bytes).Ok := by
  intro c' hc'
  cases hc : s.conn with
  | none =>
    rw [read_of_none hc, hc] at hc'
    cases hc'
  | some c =>
    rw [read_of_some hc] at hc'
    obtain ⟨hcont, hdone⟩ := @parseIncoming_ok _ _ _ _ E c s.handler bytes (hs c hc)
    unfold proceed write at hc'
    rcases hr : (parseIncoming E c s.handler bytes).result <;> simp only [hr] at hc'
    · exact Option.some.inj hc' ▸ hcont hr
    · simp at hc'
    · split_ifs at hc'
      exact Option.some.inj hc' ▸ ok_of_inHeader (hdone hr).1

/-- A connection that is kept after the read `a` would have overrun with more in the read. -/
theorem overrun_append (hX : E.xml.Chunked) (hok : c.Ok) (ha : a ≠ []) (hb : b ≠ [])
    (hr : (parseIncoming E c h a).result = .done)
    (hk : (parseIncoming E c h a).conn.keepAlive = true) : Overrun E c h (a ++ b) := by
  have hsame := parseIncoming_append_of_ne hX hok ha hb (by rw [hr]; simp)
  have hres := hsame.result.trans hr
  have hne : (parseIncoming E c h (a ++ b)).result ≠ .error := by rw [hres]; simp
  refine (overrun_iff hok).2 ⟨hres, ?_, ?_⟩
  · rw [hsame.conn hne]
    exact hk
  · rw [hsame.rest hne]
    exact List.append_ne_nil_of_right_ne_nil _ hb

/-- **A read that stays within its request can be cut in two.** -/
theorem read_append (hX : E.xml.Chunked) (hs : s.Ok) (ha : a ≠ []) (hb : b ≠ [])
    (hw : s.Within E (a ++ b)) : s.read E (a ++ b) = (s.read E a).read E b := by
  cases hc : s.conn with
  | none => rw [read_of_none hc, read_of_none hc, read_of_none hc]
  | some c =>
    have hok := hs c hc
    rw [read_of_some hc, read_of_some hc]
    rcases hr : (parseIncoming E c s.handler a).result
    · rw [proceed_congr (parseIncoming_append_of_continue hX hok ha hb hr)]
      simp only [proceed, hr]
      rfl
    · rw [proceed_congr (parseIncoming_append_of_ne hX hok ha hb (by rw [hr]; simp))]
      simp only [proceed, hr]
      rw [read_of_none (by simp [write])]
      rfl
    · rw [proceed_congr (parseIncoming_append_of_ne hX hok ha hb (by rw [hr]; simp))]
      have hk : (parseIncoming E c s.handler a).conn.keepAlive = false := by
        by_contra hk
        exact hw c hc (overrun_append hX hok ha hb hr (by simpa using hk))
      simp only [proceed, hr, hk, Bool.not_false]
      rw [read_of_none (by simp [write])]
      rfl

/-- What is left of a read that stays within its request stays within it. -/
theorem within_append (hX : E.xml.Chunked) (hs : s.Ok) (ha : a ≠ []) (hb : b ≠ [])
    (hw : s.Within E (a ++ b)) : (s.read E a).Within E b := by
  intro c' hc' ho
  cases hc : s.conn with
  | none =>
    rw [read_of_none hc, hc] at hc'
    cases hc'
  | some c =>
    have hok := hs c hc
    have hok' := read_ok hs a c' hc'
    rw [read_of_some hc] at hc' ho
    rcases hr : (parseIncoming E c s.handler a).result
    · simp only [proceed, hr, Option.some.injEq] at hc' ho
      subst hc'
      obtain ⟨hres, hk, hrest⟩ := (overrun_iff hok').1 ho
      have hsame := parseIncoming_append_of_continue hX hok ha hb hr
      have hres' := hsame.result.trans hres
      have hne : (parseIncoming E c s.handler (a ++ b)).result ≠ .error := by rw [hres']; simp
      refine hw c hc ((overrun_iff hok).2 ⟨hres', ?_, ?_⟩)
      · rw [hsame.conn hne]
        exact hk
      · rw [hsame.rest hne]
        exact hrest
    · simp [proceed, hr, write] at hc'
    · cases hk : (parseIncoming E c s.handler a).conn.keepAlive with
      | false => simp [proceed, hr, write, hk] at hc'
      | true => exact hw c hc (overrun_append hX hok ha hb hr hk)

/-- A read that stays within its request is the reads of its bytes, one by one. -/
theorem read_eq_bytewise (hX : E.xml.Chunked) : ∀ {bytes : List UInt8}
    {s : Session Ctx Doc Reply σ}, s.Ok → bytes ≠ [] → s.Within E bytes →
      s.read E bytes = (bytes.map fun b => [b]).foldl (read E) s := by
  intro bytes
  induction bytes with
  | nil => exact fun _ hb => absurd rfl hb
  | cons x bytes ih =>
    intro s hs _ hw
    by_cases hb : bytes = []
    · rw [hb]
      rfl
    · rw [List.map_cons, List.foldl_cons, ← ih (read_ok hs [x]) hb]
      · exact read_append hX hs (List.cons_ne_nil x []) hb hw
      · exact within_append hX hs (List.cons_ne_nil x []) hb hw

end Session

open Session

theorem run_eq_foldl {s : Session Ctx Doc Reply σ} {reads : List (List UInt8)} :
    (sessions E).run s reads = some (reads.foldl (read E) s) := by
  induction reads generalizing s with
  | nil => rfl
  | cons bytes reads ih => exact ih

/-- **As long as no read overruns, the session is the one that reads byte by byte.** -/
theorem foldl_read_eq_bytewise (hX : E.xml.Chunked) : ∀ {reads : List (List UInt8)}
    {s : Session Ctx Doc Reply σ}, s.Ok → (∀ bytes ∈ reads, bytes ≠ []) →
      (sessions E).Along (fun s bytes => s.Within E bytes) s reads →
      reads.foldl (read E) s = (reads.flatten.map fun b => [b]).foldl (read E) s := by
  intro reads
  induction reads with
  | nil => exact fun _ _ _ => rfl
  | cons bytes reads ih =>
    intro s hs hne hw
    obtain ⟨hb, hne⟩ := List.forall_mem_cons.1 hne
    rw [List.flatten_cons, List.map_append, List.foldl_append, ← read_eq_bytewise hX hs hb hw.1]
    exact ih (read_ok hs bytes) hne (hw.2 _ rfl)

/-- Bytes are dropped by the reads that overrun and by no others. -/
theorem dropped_read {s : Session Ctx Doc Reply σ} (hs : s.Ok) {bytes : List UInt8} :
    (s.read E bytes).dropped = [] ↔ s.dropped = [] ∧ s.Within E bytes := by
  cases hc : s.conn with
  | none => simp [read_of_none hc, Session.Within, hc]
  | some c =>
    have hw : s.Within E bytes ↔ ¬ Overrun E c s.handler bytes := by simp [Session.Within, hc]
    rw [read_of_some hc, hw, overrun_iff (hs c hc)]
    rcases hr : (parseIncoming E c s.handler bytes).result
    · simp [proceed, hr]
    · simp [proceed, hr, write]
    · cases hk : (parseIncoming E c s.handler bytes).conn.keepAlive <;>
        simp [proceed, hr, hk, write]

theorem dropped_of_read {s : Session Ctx Doc Reply σ} {bytes : List UInt8}
    (h : (s.read E bytes).dropped = []) : s.dropped = [] := by
  cases hc : s.conn with
  | none => rwa [read_of_none hc] at h
  | some c =>
    rw [read_of_some hc] at h
    unfold proceed write at h
    rcases hr : (parseIncoming E c s.handler bytes).result <;> simp only [hr] at h
    · exact h
    · simpa using h
    · split_ifs at h
      · exact h
      · exact (List.append_eq_nil_iff.1 h).1

/-- **No byte is dropped exactly if no read overruns.** -/
theorem dropped_eq_nil_iff {s : Session Ctx Doc Reply σ} (hs : s.Ok) (h0 : s.dropped = [])
    {reads : List (List UInt8)} :
    (reads.foldl (read E) s).dropped = [] ↔
      (sessions E).Along (fun s bytes => s.Within E bytes) s reads := by
  have hrun : (sessions E).run s reads = some (reads.foldl (read E) s) := run_eq_foldl
  have hexact : (sessions E).Always (fun s => s.dropped = []) s reads ↔
      (sessions E).Along (fun s bytes => s.Within E bytes) s reads := by
    refine Machine.always_iff_along (I := fun s => s.Ok ∧ s.dropped = []) (fun _ h => h.2) ?_ ?_
      ⟨hs, h0⟩ hrun
    · rintro s bytes _ ⟨hs, h0⟩ hw ⟨⟩
      exact ⟨read_ok hs bytes, (dropped_read hs).2 ⟨h0, hw⟩⟩
    · rintro s bytes _ ⟨hs, -⟩ ⟨⟩ hw ht
      exact hw ((dropped_read hs).1 ht).2
  rw [← hexact]
  constructor
  · refine fun h => Machine.always_of_last ?_ hrun h
    rintro s bytes _ ⟨⟩ ht
    exact dropped_of_read ht
  · exact fun h => h.last hrun

variable (E) in
/-- No read of the cut overruns. -/
def Cut.Aligned {stream : List UInt8} (k : Cut stream) (h : σ) : Prop :=
  (sessions E).Along (fun s bytes => s.Within E bytes) { handler := h } k.reads

/-- **When the way a stream is cut does not show.**  Two cuts of a stream lead to the same
outcomes, with no byte dropped by either, if and only if no read of either goes past the end of a
request that is answered on a connection that is kept. -/
theorem cuts_agree_iff (hX : E.xml.Chunked) (h : σ) {stream : List UInt8} (k k' : Cut stream) :
    ((k.session E h).outcomes = (k'.session E h).outcomes ∧ (k.session E h).dropped = [] ∧
        (k'.session E h).dropped = []) ↔
      k.Aligned E h ∧ k'.Aligned E h := by
  have hok : ({ handler := h } : Session Ctx Doc Reply σ).Ok := by
    rintro _ ⟨⟩
    exact ok_of_inHeader rfl
  have hdrop : ∀ k : Cut stream, (k.session E h).dropped = [] ↔ k.Aligned E h :=
    fun k => dropped_eq_nil_iff hok rfl
  rw [hdrop, hdrop, and_iff_right_iff_imp]
  rintro ⟨hk, hk'⟩
  unfold Cut.session
  rw [foldl_read_eq_bytewise hX hok k.nonempty hk, foldl_read_eq_bytewise hX hok k'.nonempty hk',
    k.flatten_eq, k'.flatten_eq]

/-! ### Two requests in one read -/

/-- Both requests arrive at once. -/
def pipelined : Cut (getRequest "urn:1" ++ getRequest "urn:2") where
  reads := [getRequest "urn:1" ++ getRequest "urn:2"]
  flatten_eq := by simp
  nonempty := by decide +kernel
  bounded := by decide +kernel

/-- One after the other. -/
def sequential : Cut (getRequest "urn:1" ++ getRequest "urn:2") where
  reads := [getRequest "urn:1", getRequest "urn:2"]
  flatten_eq := by simp
  nonempty := by decide +kernel
  bounded := by decide +kernel

/-- **Of two requests in one read, the second is never answered.** -/
theorem pipelined_second_dropped :
    (pipelined.session getEnv ()).outcomes ≠ (sequential.session getEnv ()).outcomes ∧
      (pipelined.session getEnv ()).dropped = getRequest "urn:2" := by
  constructor <;> decide +kernel

theorem chunked_getEnv : getEnv.xml.Chunked := by
  intro ctx a b last _ _
  simp [getEnv]

/-- Read one after the other, the two requests are read whole. -/
theorem aligned_sequential : sequential.Aligned getEnv () :=
  ((cuts_agree_iff chunked_getEnv () sequential sequential).1 ⟨rfl, by decide +kernel⟩).1

end HttpConnection

end Wsddn
