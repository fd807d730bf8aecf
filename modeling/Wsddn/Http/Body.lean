import Wsddn.Http.Trace

/-!
# The body of a request (`parseIncoming`, `parseHeader`, `parseBody`)

After an accepted head the connection feeds the next `n` bytes to the XML parser, in the pieces in
which they arrive, and then answers.

* `deliver_head` : however a head is cut, the reads go on with the body as if the head had not been
  there.
* `bodyCalls_deliver` : the calls that are made for a body, by induction on the reads.
* `body_accounted` : **the body is accounted for.**  The chunks are the first `n` bytes, the last of
  them is marked, and the owner is called after it, at most once.
* `answered_iff` : **a complete request is answered** exactly if its body is not empty: the loop of
  `parseIncoming` stops at the end of a read, and with it at the end of a head that has no body.
-/

namespace Wsddn

namespace HttpConnection

variable {Ctx Doc Reply σ : Type*} (E : HttpEnv Ctx Doc Reply σ)

/-- `parseHeader` accepts the head, with a content length of `n`. -/
def Accepts (c : HttpConnection Ctx Reply) (head : List UInt8) (n : ℕ) : Prop :=
  c.state = .inHeader ∧ ∃ c', parseHeader E c head = (.continue, c', []) ∧ c'.state = .inBody ∧
    c'.contentRemaining = n

/-- The chunks that were passed to the XML parser. -/
def chunksOf (calls : List (Call Doc)) : List (List UInt8) :=
  calls.filterMap fun
    | .parseChunk bytes _ _ => some bytes
    | .handleHttpRequest _ => none

/-- The number of bytes that were passed to the XML parser. -/
def passed (calls : List (Call Doc)) : ℕ := (chunksOf calls).flatten.length

/-- What is to be true after `bytes` have followed a head with a content length of `n`. -/
structure Accounted (n : ℕ) (bytes : List UInt8) (r : Parsed Ctx Doc Reply σ × List (Call Doc)) :
    Prop where
  /-- The chunks are the first `n` of the bytes, in their order. -/
  chunks : (chunksOf r.2).flatten = bytes.take n
  /-- The call that passes the `n`-th byte is marked, and no other. -/
  terminate : ∀ pre chunk terminate raised post,
    r.2 = pre ++ .parseChunk chunk terminate raised :: post →
      (terminate = true ↔ passed pre < n ∧ n ≤ passed pre + chunk.length)
  /-- The bytes that remain are those that were not passed. -/
  remaining : r.1.conn.contentRemaining + passed r.2 = n
  /-- The length of a chunk fits an `int`. -/
  fits : ∀ chunk terminate raised, .parseChunk chunk terminate raised ∈ r.2 → chunk.length < 2 ^ 31
  /-- A call of the owner is the last one, after the call that passes the `n`-th byte. -/
  handled : ∀ pre doc post, r.2 = pre ++ .handleHttpRequest doc :: post →
    post = [] ∧ ∃ pre' chunk, pre = pre' ++ [.parseChunk chunk true false]

variable {E} {c : HttpConnection Ctx Reply} {h : σ} {head bytes : List UInt8} {n : ℕ}
  {reads : List (List UInt8)}

/-! ### The head -/

theorem Accepts.exists_plan (ha : Accepts E c head n) :
    ∃ p req plan, c.headerParser.parse c.request head = ((p, req), some .good, []) ∧
      checkRequest E.httpPath req = .ok plan ∧ plan.length = n := by
  obtain ⟨hs, c', hr, hs', hn⟩ := ha
  rcases hp : c.headerParser.parse c.request head with ⟨⟨p, req⟩, _ | _ | _, rest⟩
  · rw [parseHeader_of_none hp] at hr
    obtain rfl := (Prod.mk.inj (Prod.mk.inj hr).2).1
    rw [show c.state = .inBody from hs'] at hs
    cases hs
  · rcases hc : checkRequest E.httpPath req with status | plan
    · obtain ⟨c'', hc'', -⟩ := parseHeader_of_error hp hc
      simp [hc''] at hr
    · rw [parseHeader_of_ok hp hc] at hr
      obtain ⟨rfl, rfl⟩ := Prod.mk.inj (Prod.mk.inj hr).2
      exact ⟨p, req, plan, rfl, hc, hn⟩
  · simp [parseHeader_of_bad hp] at hr

theorem Accepts.le (ha : Accepts E c head n) : n ≤ httpMaxContentLength := by
  obtain ⟨p, req, plan, -, hc, rfl⟩ := ha.exists_plan
  exact (checkRequest_eq_ok.1 hc).2.2.1

/-- A head is not empty. -/
theorem Accepts.ne_nil (ha : Accepts E c head n) : head ≠ [] := by
  rintro rfl
  obtain ⟨p, req, plan, hp, -⟩ := ha.exists_plan
  simp [HttpRequestParser.parse] at hp

/-- A connection in the body of a request of which `n` bytes are to come. -/
structure InBody (c : HttpConnection Ctx Reply) (n : ℕ) : Prop where
  state : c.state = .inBody
  parser : ∃ ctx, c.contentParser = some ctx
  remaining : c.contentRemaining = n

/-- The whole head in one read, with the beginning of the body. -/
theorem deliver_cons_head (ha : Accepts E c head n) (tail : List UInt8)
    (reads : List (List UInt8)) :
    ∃ c', InBody c' n ∧
      deliver E c h ((head ++ tail) :: reads) = deliver E c' h (tail :: reads) := by
  obtain ⟨p, req, plan, hp, hc, rfl⟩ := ha.exists_plan
  have hp' : c.headerParser.parse c.request (head ++ tail) = ((p, req), some .good, tail) :=
    Consumer.run_append_of_some tail hp
  have hne : head ++ tail ≠ [] := List.append_ne_nil_of_left_ne_nil ha.ne_nil tail
  obtain ⟨c', hc', hin⟩ : ∃ c', parseHeader E c (head ++ tail) = (.continue, c', tail) ∧
      InBody c' plan.length := ⟨_, parseHeader_of_ok hp' hc, rfl, ⟨_, rfl⟩, rfl⟩
  have hr := parseIncomingTraced_inHeader (h := h) ha.1 hne hc' hin.state
  exact ⟨c', hin, by simp only [deliver, hr]⟩

/-- The beginning of a head. -/
theorem Accepts.of_append {head' : List UInt8} (ha : Accepts E c (head ++ head') n)
    (hne : head ≠ []) (hne' : head' ≠ []) :
    ∃ c', Accepts E c' head' n ∧
      parseIncomingTraced E c h head = (⟨.continue, c', h, none, []⟩, []) := by
  obtain ⟨p, req, plan, hp, hc, rfl⟩ := ha.exists_plan
  rcases hr : c.headerParser.parse c.request head with ⟨⟨p', req'⟩, _ | o, rest⟩
  · have hp' : p'.parse req' head' = ((p, req), some .good, []) :=
      (Consumer.run_append_of_none head' hr).symm.trans hp
    exact ⟨{ c with headerParser := p', request := req' },
      ⟨ha.1, _, parseHeader_of_ok hp' hc, rfl, rfl⟩, parseIncomingTraced_of_none ha.1 hne hr⟩
  · -- the parser would have stopped before the end of the head
    have := (Consumer.run_append_of_some head' hr).symm.trans hp
    simp [hne'] at this

/-- **However a head is cut**, the reads go on with the body. -/
theorem deliver_head (ha : Accepts E c head n) (hreads : reads.flatten = head ++ bytes) :
    ∃ c' reads', InBody c' n ∧ reads'.flatten = bytes ∧
      deliver E c h reads = deliver E c' h reads' := by
  induction reads generalizing c head with
  | nil => exact absurd (List.append_eq_nil_iff.1 hreads.symm).1 ha.ne_nil
  | cons read reads ih =>
    rw [List.flatten_cons] at hreads
    rcases List.append_eq_append_iff.1 hreads with ⟨head', rfl, hrest⟩ | ⟨tail, rfl, rfl⟩
    · by_cases hread : read = []
      · subst hread
        rw [deliver_nil_cons]
        exact ih ha hrest
      by_cases hhead : head' = []
      · -- the read ends where the head does
        subst hhead
        rw [List.append_nil] at ha
        obtain ⟨c', hc', hd⟩ := deliver_cons_head (h := h) ha [] reads
        rw [List.append_nil, deliver_nil_cons] at hd
        exact ⟨c', reads, hc', hrest, hd⟩
      · obtain ⟨c', ha', hr⟩ := ha.of_append (h := h) hread hhead
        rw [deliver_cons_of_continue hr, List.nil_append]
        exact ih ha' hrest
    · obtain ⟨c', hc', hd⟩ := deliver_cons_head (h := h) ha tail reads
      exact ⟨c', tail :: reads, hc', rfl, hd⟩

/-! ### The body -/

/-- What has come of a body of `n` bytes after some reads. -/
inductive BodyCalls (n : ℕ) (bytes : List UInt8) : Parsed Ctx Doc Reply σ × List (Call Doc) → Prop
  | waiting {r : Parsed Ctx Doc Reply σ} (chunks : List (List UInt8)) (hr : r.result = .continue)
      (hflat : chunks.flatten = bytes) (hrem : r.conn.contentRemaining + bytes.length = n)
      (hlt : bytes.length < n) : BodyCalls n bytes (r, chunks.map (.parseChunk · false false))
  | raised {r : Parsed Ctx Doc Reply σ} {calls : List (Call Doc)} {chunk : List UInt8}
      {terminate : Bool} (hr : r.result ≠ .continue)
      (hmem : .parseChunk chunk terminate true ∈ calls) : BodyCalls n bytes (r, calls)
  | complete {r : Parsed Ctx Doc Reply σ} (chunks : List (List UInt8)) (last : List UInt8)
      {post : List (Call Doc)} (hr : r.result ≠ .continue)
      (hflat : chunks.flatten ++ last = bytes.take n) (hle : n ≤ bytes.length) (hlast : last ≠ [])
      (hpost : post = [] ∨ ∃ doc, post = [.handleHttpRequest doc])
      (hrem : r.conn.contentRemaining = 0) :
      BodyCalls n bytes (r, chunks.map (.parseChunk · false false) ++
        .parseChunk last true false :: post)

theorem finishBody_contentRemaining {ctx : Ctx} {rest : List UInt8} :
    (finishBody E c h ctx rest).conn.contentRemaining = c.contentRemaining := by
  cases hw : E.xml.wellFormed ctx with
  | false =>
    rw [finishBody_of_illFormed hw]
    rfl
  | true =>
    rcases hh : E.handleHttpRequest h (E.xml.extractDoc ctx) with ⟨_ | reply, h'⟩
    · rw [finishBody_of_none hw hh]
      rfl
    · rw [finishBody_of_some hw hh]

/-- A chunk before the others. -/
theorem BodyCalls.cons {r : Parsed Ctx Doc Reply σ × List (Call Doc)} {chunk : List UInt8}
    (hlt : chunk.length < n) (hr : BodyCalls (n - chunk.length) bytes r) :
    BodyCalls n (chunk ++ bytes) (r.1, .parseChunk chunk false false :: r.2) := by
  cases hr with
  | waiting chunks hr hflat hrem hlt' =>
    refine .waiting (chunk :: chunks) hr ?_ ?_ ?_
    · rw [List.flatten_cons, hflat]
    · dsimp only
      rw [List.length_append]
      omega
    · rw [List.length_append]
      omega
  | raised hr hmem => exact .raised hr (List.mem_cons_of_mem _ hmem)
  | complete chunks last hr hflat hle hlast hpost hrem =>
    refine .complete (chunk :: chunks) last hr ?_ ?_ hlast hpost hrem
    · rw [List.flatten_cons, List.append_assoc, hflat, List.take_append,
        List.take_of_length_le (Nat.le_of_lt hlt)]
    · rw [List.length_append]
      omega

/-- **The calls for a body**, by induction on the reads. -/
theorem bodyCalls_deliver (hc : InBody c n) (hpos : 0 < n) :
    BodyCalls n reads.flatten (deliver E c h reads) := by
  induction reads generalizing c h n with
  | nil =>
    refine .waiting [] rfl rfl ?_ hpos
    show c.contentRemaining + 0 = n
    exact hc.remaining
  | cons read reads ih =>
    obtain ⟨hs, ⟨ctx, hctx⟩, rfl⟩ := hc
    by_cases hread : read = []
    · subst hread
      rw [deliver_nil_cons, List.flatten_cons, List.nil_append]
      exact ih ⟨hs, ⟨ctx, hctx⟩, rfl⟩ hpos
    have hr := parseIncomingTraced_inBody (E := E) (h := h) hs hread
    rw [List.flatten_cons]
    rcases Nat.lt_or_ge read.length c.contentRemaining with hlt | hle
    · rw [parseBodyTraced_of_lt hctx hlt] at hr
      rcases hx : E.xml.parseChunk ctx read false with _ | ctx' <;>
        rw [hx] at hr <;> dsimp only at hr
      · rw [deliver_cons_of_ne (by rw [hr]; simp [refuseBody]), hr]
        exact .raised (by simp [refuseBody]) List.mem_cons_self
      · rw [deliver_cons_of_continue hr]
        exact .cons hlt (ih ⟨hs, ⟨ctx', rfl⟩, rfl⟩ (by omega))
    · -- the body ends in the read
      rw [parseBodyTraced_of_le hctx hle] at hr
      rcases hx : E.xml.parseChunk ctx (read.take c.contentRemaining) true with _ | ctx' <;>
        rw [hx] at hr <;> dsimp only at hr
      · rw [deliver_cons_of_ne (by rw [hr]; simp [refuseBody]), hr]
        exact .raised (by simp [refuseBody]) List.mem_cons_self
      · rw [deliver_cons_of_ne (by rw [hr]; exact finishBody_result), hr]
        refine .complete [] _ finishBody_result ?_ ?_ ?_ ?_ finishBody_contentRemaining
        · rw [List.flatten_nil, List.nil_append, List.take_append_of_le_length hle]
        · rw [List.length_append]
          omega
        · rw [Ne, List.take_eq_nil_iff]
          rintro (h0 | h0)
          · omega
          · exact hread h0
        · split_ifs
          · exact .inr ⟨_, rfl⟩
          · exact .inl rfl

/-! ### A complete request is answered -/

theorem deliver_of_flatten_nil (hreads : reads.flatten = []) :
    deliver E c h reads = (⟨.continue, c, h, none, []⟩, []) := by
  induction reads with
  | nil => rfl
  | cons read reads ih =>
    obtain ⟨rfl, hrest⟩ := List.append_eq_nil_iff.1 hreads
    rw [deliver_nil_cons, ih hrest]

/-- **A complete request is answered** exactly if its body is not empty. -/
theorem answered_iff (ha : Accepts E c head n) (hn : bytes.length = n)
    (hreads : reads.flatten = head ++ bytes) :
    ((deliver E c h reads).1.result ≠ .continue ∧ ∃ response, .response response ∈
      (reads.foldl (Session.read E) { conn := some c, handler := h }).outcomes) ↔ n ≠ 0 := by
  rw [response_iff_deliver, and_self]
  obtain ⟨c', reads', hc', hflat, hd⟩ := deliver_head (h := h) ha hreads
  rw [hd]
  constructor
  · rintro hr rfl
    rw [List.length_eq_zero_iff.1 hn] at hflat
    rw [deliver_of_flatten_nil hflat] at hr
    exact hr rfl
  · intro hpos
    have hb : BodyCalls n reads'.flatten (deliver E c' h reads') :=
      bodyCalls_deliver hc' (Nat.pos_of_ne_zero hpos)
    generalize deliver E c' h reads' = r at hb
    cases hb with
    | waiting chunks hr hflat' hrem hlt =>
      rw [hflat] at hlt
      omega
    | raised hr => exact hr
    | complete chunks last hr => exact hr

/-- A connection's surroundings, on the body `<a/>`: the XML parser collects the bytes, which are
well formed, and the owner has no reply. -/
def elementEnv : HttpEnv (List UInt8) (List UInt8) Unit Unit where
  httpPath := SysString.ofLiteral "uuid"
  xml :=
    { createPush := fun _ => []
      parseChunk := fun ctx bytes _ => some (ctx ++ bytes)
      wellFormed := fun ctx => ctx == SysString.ofLiteral "<a/>"
      extractDoc := fun ctx => ctx }
  handleHttpRequest := fun _ _ => (none, ())

/-- The head of a request with a body of four bytes. -/
def elementHead : List UInt8 :=
  SysString.ofLiteral "POST /uuid HTTP/1.1\r\nContent-Length: 4\r\n\r\n"

theorem accepts_elementHead : Accepts elementEnv {} elementHead 4 :=
  ⟨rfl, (parseHeader elementEnv {} elementHead).2.1,
    Prod.ext (by decide +kernel) (Prod.ext rfl (by decide +kernel)), by decide +kernel,
    by decide +kernel⟩

/-- A request with its body in a second read is answered. -/
theorem answered_element :
    (deliver elementEnv {} () [elementHead, SysString.ofLiteral "<a/>"]).1.result ≠ .continue := by
  have hn : (SysString.ofLiteral "<a/>").length = 4 := by decide +kernel
  have hreads : [elementHead, SysString.ofLiteral "<a/>"].flatten =
      elementHead ++ SysString.ofLiteral "<a/>" := by simp
  exact ((answered_iff accepts_elementHead hn hreads).2 (by decide)).1

/-- A request without a body. -/
def emptyRequest : List UInt8 :=
  SysString.ofLiteral "POST /uuid HTTP/1.1\r\nContent-Length: 0\r\n\r\n"

/-- The request without a body is accepted and never answered. -/
theorem emptyRequest_unanswered :
    Accepts elementEnv {} emptyRequest 0 ∧
      (deliver elementEnv {} () [emptyRequest]).1.result = .continue ∧
      ([emptyRequest].foldl (Session.read elementEnv) { handler := () }).outcomes = [] := by
  refine ⟨⟨rfl, (parseHeader elementEnv {} emptyRequest).2.1, ?_, ?_, ?_⟩, ?_, ?_⟩
  · exact Prod.ext (by decide +kernel) (Prod.ext rfl (by decide +kernel))
  all_goals decide +kernel

/-! ### The body is accounted for -/

section Calls

variable {calls calls' : List (Call Doc)} {chunk : List UInt8} {terminate raised : Bool}

theorem chunksOf_map (chunks : List (List UInt8)) :
    chunksOf (chunks.map (.parseChunk · terminate raised) : List (Call Doc)) = chunks := by
  simp [chunksOf, List.filterMap_map]

theorem passed_append : passed (calls ++ calls') = passed calls + passed calls' := by
  simp [passed, chunksOf, List.filterMap_append]

theorem passed_cons : passed (.parseChunk chunk terminate raised :: calls) =
    chunk.length + passed calls := by
  simp [passed, chunksOf]

theorem length_le_passed (hmem : .parseChunk chunk terminate raised ∈ calls) :
    chunk.length ≤ passed calls := by
  obtain ⟨pre, post, rfl⟩ := List.append_of_mem hmem
  rw [passed_append, passed_cons]
  omega

/-- Where an element of `as ++ b :: bs` stands. -/
theorem append_cons_cases {α : Type*} {pre post as bs : List α} {a b : α}
    (h : as ++ b :: bs = pre ++ a :: post) :
    (∃ as', as = pre ++ a :: as') ∨ (as = pre ∧ b = a ∧ bs = post) ∨
      ∃ pre', pre = as ++ b :: pre' ∧ bs = pre' ++ a :: post := by
  rcases List.append_eq_append_iff.1 h with ⟨d, rfl, hd⟩ | ⟨d, rfl, hd⟩
  · cases d with
    | nil =>
      obtain ⟨rfl, rfl⟩ := List.cons.inj hd
      exact .inr (.inl ⟨by simp, rfl, rfl⟩)
    | cons x d =>
      obtain ⟨rfl, rfl⟩ := List.cons.inj hd
      exact .inr (.inr ⟨d, rfl, rfl⟩)
  · cases d with
    | nil =>
      obtain ⟨rfl, rfl⟩ := List.cons.inj hd
      exact .inr (.inl ⟨by simp, rfl, rfl⟩)
    | cons x d =>
      obtain ⟨rfl, -⟩ := List.cons.inj hd
      exact .inl ⟨d, rfl⟩

variable {chunks : List (List UInt8)} {pre post : List (Call Doc)}

/-- A call among those before the last chunk. -/
theorem terminate_of_map_eq (h : chunks.map (.parseChunk · false false) =
      pre ++ .parseChunk chunk terminate raised :: post) :
    terminate = false ∧ passed pre + chunk.length ≤ chunks.flatten.length := by
  have hmem : Call.parseChunk chunk terminate raised ∈
      pre ++ .parseChunk chunk terminate raised :: post := by simp
  have hpassed := congrArg passed h
  rw [passed, chunksOf_map, passed_append, passed_cons] at hpassed
  rw [← h] at hmem
  simp only [List.mem_map, Call.parseChunk.injEq] at hmem
  obtain ⟨-, -, -, rfl, -⟩ := hmem
  exact ⟨rfl, by omega⟩

theorem map_ne_handled {doc : Doc} :
    chunks.map (.parseChunk · false false) ≠ pre ++ .handleHttpRequest doc :: post := by
  intro h
  have hmem : Call.handleHttpRequest doc ∈ pre ++ .handleHttpRequest doc :: post := by simp
  rw [← h] at hmem
  simp at hmem

variable {last : List UInt8} {post' : List (Call Doc)}

/-- A call of the XML parser among all those for a body: it is one of those before the last chunk,
or it is the last. -/
theorem terminate_of_complete_eq (hpost : post = [] ∨ ∃ doc, post = [.handleHttpRequest doc])
    (h : chunks.map (.parseChunk · false false) ++ .parseChunk last true false :: post =
      pre ++ .parseChunk chunk terminate raised :: post') :
    (terminate = false ∧ passed pre + chunk.length ≤ chunks.flatten.length) ∨
      (terminate = true ∧ passed pre = chunks.flatten.length ∧ chunk = last) := by
  rcases append_cons_cases h with ⟨as', h'⟩ | ⟨rfl, hcall, -⟩ | ⟨pre', -, hpost'⟩
  · exact .inl (terminate_of_map_eq h')
  · obtain ⟨rfl, rfl, -⟩ := Call.parseChunk.inj hcall
    exact .inr ⟨rfl, by rw [passed, chunksOf_map], rfl⟩
  · -- after the last chunk the XML parser is not called
    rcases hpost with rfl | ⟨doc, rfl⟩ <;> rcases pre' with _ | ⟨x, pre'⟩ <;> simp at hpost'

theorem handled_of_complete_eq {doc : Doc}
    (hpost : post = [] ∨ ∃ doc, post = [.handleHttpRequest doc])
    (h : chunks.map (.parseChunk · false false) ++ .parseChunk last true false :: post =
      pre ++ .handleHttpRequest doc :: post') :
    post' = [] ∧ pre = chunks.map (.parseChunk · false false) ++ [.parseChunk last true false] := by
  rcases append_cons_cases h with ⟨as', h'⟩ | ⟨-, hcall, -⟩ | ⟨pre', rfl, hpost'⟩
  · exact absurd h' map_ne_handled
  · cases hcall
  · rcases hpost with rfl | ⟨doc', rfl⟩
    · simp at hpost'
    · rcases pre' with _ | ⟨x, pre'⟩
      · exact ⟨(List.cons.inj hpost').2.symm, rfl⟩
      · simp at hpost'

theorem chunksOf_complete (hpost : post = [] ∨ ∃ doc, post = [.handleHttpRequest doc]) :
    chunksOf (chunks.map (.parseChunk · false false) ++ .parseChunk last true false :: post) =
      chunks ++ [last] := by
  rcases hpost with rfl | ⟨doc, rfl⟩ <;>
    simp [chunksOf, List.filterMap_append, List.filterMap_map]

end Calls

/-- Reads that did not make the XML parser raise are accounted for. -/
theorem BodyCalls.accounted {r : Parsed Ctx Doc Reply σ × List (Call Doc)}
    (hb : BodyCalls n bytes r) (hmax : n ≤ httpMaxContentLength)
    (hno : ∀ call ∈ r.2, call.raised = false) : Accounted n bytes r := by
  have hint : httpMaxContentLength < 2 ^ 31 := by decide
  cases hb with
  | waiting chunks hr hflat hrem hlt =>
    refine ⟨?_, ?_, ?_, ?_, ?_⟩
    · rw [chunksOf_map, hflat, List.take_of_length_le (Nat.le_of_lt hlt)]
    · intro pre chunk terminate raised post he
      obtain ⟨rfl, hle⟩ := terminate_of_map_eq he
      rw [hflat] at hle
      refine iff_of_false (by simp) ?_
      omega
    · rw [passed, chunksOf_map, hflat]
      exact hrem
    · intro chunk terminate raised hmem
      have := length_le_passed hmem
      rw [passed, chunksOf_map, hflat] at this
      omega
    · intro pre doc post he
      exact absurd he map_ne_handled
  | raised hr hmem => exact absurd (hno _ hmem) (by simp [Call.raised])
  | @complete r chunks last post hr hflat hle hlast hpost hrem =>
    have hlen : chunks.flatten.length + last.length = n := by
      rw [← List.length_append, hflat, List.length_take, Nat.min_eq_left hle]
    have hpos : 0 < last.length := List.length_pos_iff.2 hlast
    have hpassed : passed (chunks.map (.parseChunk · false false) ++
        .parseChunk last true false :: post) = n := by
      rw [passed, chunksOf_complete hpost, List.flatten_append, List.length_append,
        List.flatten_singleton, hlen]
    refine ⟨?_, ?_, ?_, ?_, ?_⟩
    · rw [chunksOf_complete hpost, List.flatten_append, List.flatten_singleton, hflat]
    · intro pre chunk terminate raised post' he
      rcases terminate_of_complete_eq hpost he with ⟨rfl, hle'⟩ | ⟨rfl, hpre, rfl⟩
      · refine iff_of_false (by simp) ?_
        omega
      · refine iff_of_true rfl ?_
        omega
    · show r.conn.contentRemaining + passed _ = n
      rw [hpassed, hrem, Nat.zero_add]
    · intro chunk terminate raised hmem
      have := length_le_passed hmem
      rw [hpassed] at this
      omega
    · intro pre doc post' he
      obtain ⟨hnil, hpre⟩ := handled_of_complete_eq hpost he
      exact ⟨hnil, _, last, hpre⟩

/-- **The body is accounted for.**  As long as the XML parser has not raised, it was given the first
`n` bytes after the head, and the owner was called after the last of them, at most once. -/
theorem body_accounted (ha : Accepts E c head n) (hpos : 1 ≤ n)
    (hreads : reads.flatten = head ++ bytes)
    (hno : ∀ call ∈ (deliver E c h reads).2, call.raised = false) :
    Accounted n bytes (deliver E c h reads) := by
  obtain ⟨c', reads', hc', rfl, hd⟩ := deliver_head (h := h) ha hreads
  rw [hd] at hno ⊢
  exact (bodyCalls_deliver hc' hpos).accounted ha.le hno

/-- A body in two reads, the first with the head and the second with a byte too many. -/
theorem accounted_element :
    (chunksOf (deliver elementEnv {} () [elementHead ++ SysString.ofLiteral "<a",
      SysString.ofLiteral "/>P"]).2).flatten = (SysString.ofLiteral "<a/>P").take 4 :=
  (body_accounted accepts_elementHead (by decide) (by decide +kernel) (by decide +kernel)).chunks

end HttpConnection

end Wsddn
