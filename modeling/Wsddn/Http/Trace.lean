import Wsddn.Http.Split

/-!
# What a connection asks of others (`parseIncoming`, `parseBody`)

A connection feeds the bytes of a body to the XML parser and hands the document to its owner.  The
functions of `Connection` return what comes of it; here they also return the calls they make, in
their order (`parseBodyTraced`, `parseLoopTraced`, `parseIncomingTraced`).

* `parseIncomingTraced_fst` : the trace changes nothing.
* `deliver` : reads, one after the other, until one of them does not leave the connection waiting
  for more.
* `response_iff_deliver` : a session writes a response during some reads exactly if one of them does
  not leave it waiting.
-/

namespace Wsddn

namespace HttpConnection

/-- A call of the XML parser, with whether it raised, or of the owner. -/
inductive Call (Doc : Type*) where
  | parseChunk (bytes : List UInt8) (terminate raised : Bool)
  | handleHttpRequest (doc : Doc)
  deriving DecidableEq, Repr

/-- The call has raised. -/
def Call.raised {Doc : Type*} : Call Doc → Bool
  | .parseChunk _ _ raised => raised
  | .handleHttpRequest _ => false

variable {Ctx Doc Reply σ : Type*} (E : HttpEnv Ctx Doc Reply σ)

/-- `parseBody`, with the calls. -/
def parseBodyTraced (c : HttpConnection Ctx Reply) (h : σ) (bytes : List UInt8) :
    Parsed Ctx Doc Reply σ × List (Call Doc) :=
  let chunkSize := min c.contentRemaining bytes.length
  let c := { c with contentRemaining := c.contentRemaining - chunkSize }
  match c.contentParser with
  | none => (refuseBody c h none (bytes.drop chunkSize), [])
  | some ctx =>
    match E.xml.parseChunk ctx (bytes.take chunkSize) (c.contentRemaining = 0) with
    | none => (refuseBody c h none (bytes.drop chunkSize),
        [.parseChunk (bytes.take chunkSize) (c.contentRemaining = 0) true])
    | some ctx =>
      let call := Call.parseChunk (bytes.take chunkSize) (c.contentRemaining = 0) false
      if c.contentRemaining = 0 then
        (finishBody E c h ctx (bytes.drop chunkSize), call ::
          if E.xml.wellFormed ctx then [.handleHttpRequest (E.xml.extractDoc ctx)] else [])
      else (⟨.continue, { c with contentParser := some ctx }, h, none, []⟩, [call])

/-- `parseLoop`, with the calls. -/
def parseLoopTraced : ℕ → HttpConnection Ctx Reply → σ → List UInt8 →
    Parsed Ctx Doc Reply σ × List (Call Doc)
  | 0, c, h, bytes => (⟨.continue, c, h, none, bytes⟩, [])
  | fuel + 1, c, h, bytes =>
    if bytes = [] then (⟨.continue, c, h, none, []⟩, [])
    else
      match c.state with
      | .inHeader =>
        match parseHeader E c bytes with
        | (.continue, c, rest) => parseLoopTraced fuel c h rest
        | (res, c, rest) => (⟨res, c, h, none, rest⟩, [])
      | .inBody =>
        match parseBodyTraced E c h bytes with
        | (⟨.continue, c, h, _, rest⟩, calls) =>
          ((parseLoopTraced fuel c h rest).1, calls ++ (parseLoopTraced fuel c h rest).2)
        | r => r

/-- `parseIncoming`, with the calls. -/
def parseIncomingTraced (c : HttpConnection Ctx Reply) (h : σ) (bytes : List UInt8) :
    Parsed Ctx Doc Reply σ × List (Call Doc) :=
  parseLoopTraced E (bytes.length + 1) c h bytes

/-- The reads up to the first that does not leave the connection waiting for more, and the calls
that are made. -/
def deliver : HttpConnection Ctx Reply → σ → List (List UInt8) →
    Parsed Ctx Doc Reply σ × List (Call Doc)
  | c, h, [] => (⟨.continue, c, h, none, []⟩, [])
  | c, h, bytes :: reads =>
    match parseIncomingTraced E c h bytes with
    | (⟨.continue, c, h, _, _⟩, calls) =>
      ((deliver c h reads).1, calls ++ (deliver c h reads).2)
    | r => r

variable {E} {c : HttpConnection Ctx Reply} {h : σ} {bytes rest : List UInt8}

/-! ### The trace changes nothing -/

theorem parseBodyTraced_fst : (parseBodyTraced E c h bytes).1 = parseBody E c h bytes := by
  obtain ⟨state, headerParser, request, response, n, keepAlive, parser⟩ := c
  rcases parser with _ | ctx
  · rfl
  · unfold parseBodyTraced parseBody
    dsimp only
    rcases E.xml.parseChunk ctx (bytes.take (min n bytes.length))
      (decide (n - min n bytes.length = 0)) with _ | ctx'
    · rfl
    · dsimp only
      split_ifs <;> rfl

/-- **The trace changes nothing.** -/
theorem parseIncomingTraced_fst :
    (parseIncomingTraced E c h bytes).1 = parseIncoming E c h bytes := by
  have hloop : ∀ (fuel : ℕ) (c : HttpConnection Ctx Reply) (h : σ) (bytes : List UInt8),
      (parseLoopTraced E fuel c h bytes).1 = parseLoop E fuel c h bytes := by
    intro fuel
    induction fuel with
    | zero => exact fun _ _ _ => rfl
    | succ fuel ih =>
      intro c h bytes
      unfold parseLoopTraced parseLoop
      by_cases hb : bytes = []
      · rw [if_pos hb, if_pos hb]
      rw [if_neg hb, if_neg hb]
      cases c.state with
      | inHeader =>
        rcases parseHeader E c bytes with ⟨_ | _ | _, c', rest⟩
        · exact ih c' h rest
        · rfl
        · rfl
      | inBody =>
        have hbody : (parseBodyTraced E c h bytes).1 = parseBody E c h bytes := parseBodyTraced_fst
        rcases hr : parseBodyTraced E c h bytes with ⟨⟨_ | _ | _, c', h', handed, rest⟩, calls⟩ <;>
          rw [hr] at hbody <;> rw [← hbody]
        exact ih c' h' rest
  exact hloop _ c h bytes

/-! ### One read -/

theorem parseBodyTraced_of_lt {ctx : Ctx} (hp : c.contentParser = some ctx)
    (hn : bytes.length < c.contentRemaining) :
    parseBodyTraced E c h bytes =
      match E.xml.parseChunk ctx bytes false with
      | none =>
        (refuseBody { c with contentRemaining := c.contentRemaining - bytes.length } h none [],
          [.parseChunk bytes false true])
      | some ctx =>
        (⟨.continue, { c with contentRemaining := c.contentRemaining - bytes.length,
                              contentParser := some ctx }, h, none, []⟩,
          [.parseChunk bytes false false]) := by
  have hm : min c.contentRemaining bytes.length = bytes.length := Nat.min_eq_right (Nat.le_of_lt hn)
  have h0 : ¬ c.contentRemaining - bytes.length = 0 := by omega
  simp only [parseBodyTraced, hp, hm, h0, List.take_length, List.drop_length, if_false,
    decide_false]

theorem parseBodyTraced_of_le {ctx : Ctx} (hp : c.contentParser = some ctx)
    (hn : c.contentRemaining ≤ bytes.length) :
    parseBodyTraced E c h bytes =
      match E.xml.parseChunk ctx (bytes.take c.contentRemaining) true with
      | none => (refuseBody { c with contentRemaining := 0 } h none (bytes.drop c.contentRemaining),
          [.parseChunk (bytes.take c.contentRemaining) true true])
      | some ctx =>
        (finishBody E { c with contentRemaining := 0 } h ctx (bytes.drop c.contentRemaining),
          .parseChunk (bytes.take c.contentRemaining) true false ::
            if E.xml.wellFormed ctx then [.handleHttpRequest (E.xml.extractDoc ctx)] else []) := by
  have hm : min c.contentRemaining bytes.length = c.contentRemaining := Nat.min_eq_left hn
  simp only [parseBodyTraced, hp, hm, Nat.sub_self, if_true, decide_true]

theorem parseLoopTraced_nil (fuel : ℕ) :
    parseLoopTraced E fuel c h [] = (⟨.continue, c, h, none, []⟩, []) := by
  cases fuel <;> rfl

/-- In the body of a request `parseBody` is the whole of the loop. -/
theorem parseLoopTraced_inBody {fuel : ℕ} (hs : c.state = .inBody) (hb : bytes ≠ []) :
    parseLoopTraced E (fuel + 1) c h bytes = parseBodyTraced E c h bytes := by
  have hbody : (parseBodyTraced E c h bytes).1 = parseBody E c h bytes := parseBodyTraced_fst
  rw [parseLoopTraced, if_neg hb, hs]
  rcases hr : parseBodyTraced E c h bytes with ⟨⟨_ | _ | _, c', h', handed, rest⟩, calls⟩
  · rw [hr] at hbody
    obtain ⟨hrest, hhanded⟩ := @parseBody_rest _ _ _ _ E c h bytes (by rw [← hbody])
    rw [← hbody] at hrest hhanded
    obtain rfl : rest = [] := hrest
    obtain rfl : handed = none := hhanded
    simp only [parseLoopTraced_nil, List.append_nil]
  · rfl
  · rfl

theorem parseIncomingTraced_inBody (hs : c.state = .inBody) (hb : bytes ≠ []) :
    parseIncomingTraced E c h bytes = parseBodyTraced E c h bytes :=
  parseLoopTraced_inBody hs hb

/-- After the end of an accepted head the loop goes on with the body. -/
theorem parseIncomingTraced_inHeader {c' : HttpConnection Ctx Reply} (hs : c.state = .inHeader)
    (hb : bytes ≠ []) (hr : parseHeader E c bytes = (.continue, c', rest))
    (hs' : c'.state = .inBody) :
    parseIncomingTraced E c h bytes = parseIncomingTraced E c' h rest := by
  have hlt := parseHeader_length_lt hb hr
  rw [parseIncomingTraced, parseLoopTraced, if_neg hb, hs]
  simp only [hr]
  by_cases hrest : rest = []
  · rw [hrest, parseLoopTraced_nil, parseIncomingTraced, parseLoopTraced_nil]
  · obtain ⟨fuel, hfuel⟩ := Nat.exists_eq_add_one_of_ne_zero (Nat.ne_zero_of_lt hlt)
    rw [hfuel, parseLoopTraced_inBody hs' hrest, parseIncomingTraced_inBody hs' hrest]

theorem parseIncomingTraced_of_none {p : HttpRequestParser} {req : HttpRequest}
    (hs : c.state = .inHeader) (hb : bytes ≠ [])
    (hp : c.headerParser.parse c.request bytes = ((p, req), none, rest)) :
    parseIncomingTraced E c h bytes =
      (⟨.continue, { c with headerParser := p, request := req }, h, none, []⟩, []) := by
  rw [parseIncomingTraced, parseLoopTraced, if_neg hb, hs]
  simp only [parseHeader_of_none hp, Consumer.rest_eq_nil_of_run_none hp, parseLoopTraced_nil, hs]

/-! ### Reads -/

theorem deliver_cons_of_continue {reads : List (List UInt8)} {c' : HttpConnection Ctx Reply}
    {h' : σ} {handed : Option Doc} {calls : List (Call Doc)}
    (hr : parseIncomingTraced E c h bytes = (⟨.continue, c', h', handed, rest⟩, calls)) :
    deliver E c h (bytes :: reads) =
      ((deliver E c' h' reads).1, calls ++ (deliver E c' h' reads).2) := by
  simp only [deliver, hr]

theorem deliver_cons_of_ne {reads : List (List UInt8)}
    (hr : (parseIncomingTraced E c h bytes).1.result ≠ .continue) :
    deliver E c h (bytes :: reads) = parseIncomingTraced E c h bytes := by
  rcases hp : parseIncomingTraced E c h bytes with ⟨⟨_ | _ | _, c', h', handed, rest⟩, calls⟩
  · rw [hp] at hr
    exact absurd rfl hr
  · simp only [deliver, hp]
  · simp only [deliver, hp]

/-- Nothing comes of an empty read. -/
theorem deliver_nil_cons {reads : List (List UInt8)} :
    deliver E c h ([] :: reads) = deliver E c h reads := by
  rw [deliver_cons_of_continue (parseLoopTraced_nil _), List.nil_append]

/-- What was done stays done. -/
theorem mem_outcomes_foldl {o : Outcome Doc Reply} {reads : List (List UInt8)} :
    ∀ {s : Session Ctx Doc Reply σ}, o ∈ s.outcomes →
      o ∈ (reads.foldl (Session.read E) s).outcomes := by
  induction reads with
  | nil => exact fun ho => ho
  | cons bytes reads ih =>
    intro s ho
    refine ih ?_
    cases hc : s.conn with
    | none => rwa [Session.read_of_none hc]
    | some c =>
      rw [Session.read_of_some hc]
      unfold Session.proceed Session.write
      rcases (parseIncoming E c s.handler bytes).result with _ | _ | _
      · exact ho
      · simp [ho]
      · dsimp only
        split_ifs <;> simp [ho]

/-- **A response is written** during some reads exactly if one of them does not leave the connection
waiting for more. -/
theorem response_iff_deliver {reads : List (List UInt8)} :
    (∃ response, .response response ∈
        (reads.foldl (Session.read E) { conn := some c, handler := h }).outcomes) ↔
      (deliver E c h reads).1.result ≠ .continue := by
  induction reads generalizing c h with
  | nil => simp [deliver]
  | cons bytes reads ih =>
    have hfst : (parseIncomingTraced E c h bytes).1 = parseIncoming E c h bytes :=
      parseIncomingTraced_fst
    rw [List.foldl_cons, Session.read_of_some rfl, ← hfst]
    rcases hr : parseIncomingTraced E c h bytes with ⟨⟨_ | _ | _, c', h', handed, rest⟩, calls⟩
    · rw [deliver_cons_of_continue hr]
      exact ih
    · rw [deliver_cons_of_ne (by rw [hr]; simp), hr]
      refine iff_of_true ⟨c'.response, mem_outcomes_foldl ?_⟩ (by simp)
      simp [Session.proceed, Session.write]
    · rw [deliver_cons_of_ne (by rw [hr]; simp), hr]
      refine iff_of_true ⟨c'.response, mem_outcomes_foldl ?_⟩ (by simp)
      unfold Session.proceed Session.write
      dsimp only
      split_ifs <;> simp

end HttpConnection

end Wsddn
