import Wsddn.Http.Version

/-!
# Folded header lines (`http_request_parser.cpp`)

A header value can go on in the next line, if that line begins with a blank.  The parser has a
state for this, `header_lws`, and goes there from `header_line_start` when the builder of the value
is not empty.  But the state that ends the line before, `expecting_newline_2`, has stored the header,
and `build` has left the builder empty.

* `FoldedHead` : request heads with continuation lines, and the request that such a head is meant to
  stand for.
* `folded_refused` : **no folded head is accepted**, and `header_lws` is never reached.
-/

namespace Wsddn

namespace HttpRequestParser

/-- A space or a tab, which a continuation line begins with. -/
def isBlank (b : UInt8) : Bool := b = 32 || b = 9

/-- A continuation line: some blanks and a text. -/
structure Continuation where
  blanks : List UInt8
  text : List UInt8
  blanks_ne : blanks ≠ []
  blanks_blank : ∀ b ∈ blanks, isBlank b = true
  text_ne : text ≠ []
  text_start : ∀ b ∈ text.head?, isBlank b = false
  text_text : ∀ b ∈ text, isCtl b = false

/-- The bytes of a continuation line. -/
def Continuation.encode (c : Continuation) : List UInt8 := c.blanks ++ c.text ++ [13, 10]

/-- A header line with its continuation lines, which are only there if the value is not empty. -/
structure FoldedHeader extends Header where
  continuations : List Continuation
  value_ne : continuations ≠ [] → value ≠ []

namespace FoldedHeader

/-- The bytes of the header line and of those that continue it. -/
def encode (h : FoldedHeader) : List UInt8 :=
  h.toHeader.encode ++ h.continuations.flatMap Continuation.encode

/-- The bytes that count for the limit on all headers. -/
def size (h : FoldedHeader) : ℕ :=
  h.toHeader.size + (h.continuations.map fun c => c.text.length).sum

/-- What is to become of the lines: the value and the texts are joined. -/
def entry (h : FoldedHeader) : SysString × SysString :=
  (h.name, stored (h.value ++ h.continuations.flatMap Continuation.text))

end FoldedHeader

/-- A request head with at least one continuation line. -/
structure FoldedHead where
  target : Target
  version : Version
  headers : List FoldedHeader
  size_le : (headers.map FoldedHeader.size).sum ≤ maxHeadersSize
  folded : ∃ h ∈ headers, h.continuations ≠ []

namespace FoldedHead

/-- The text of a folded head. -/
def encode (d : FoldedHead) : List UInt8 :=
  d.target.encode ++ protocol ++ d.version.text ++
    13 :: 10 :: (d.headers.flatMap FoldedHeader.encode ++ [13, 10])

/-- The head is accepted at its end, and each header is stored with its lines joined. -/
def Joins (p : HttpRequestParser) (req : HttpRequest) (d : FoldedHead) : Prop :=
  ∃ w, parse p.reset req d.encode = (w, some .good, []) ∧
    w.2.headers = req.headers ++ d.headers.map FoldedHeader.entry

end FoldedHead

variable {r r' : List UInt8}

theorem Header.encode_ne_blank (h : Header) {b : UInt8} (hb : isBlank b = true) :
    h.encode ++ r ≠ b :: r' := by
  obtain ⟨c, n, hn⟩ := List.exists_cons_of_ne_nil h.name_ne
  intro he
  rw [Header.encode, hn] at he
  obtain rfl : c = b := (List.cons.inj he).1
  have htoken := h.name_token c (by rw [hn]; exact List.mem_cons_self)
  obtain rfl | rfl : c = 32 ∨ c = 9 := by simpa [isBlank] using hb
  all_goals exact absurd htoken (by decide)

/-- Header lines with a continuation line among them are not the header lines of a head. -/
theorem flatMap_encode_ne {hs : List FoldedHeader} (hf : ∃ h ∈ hs, h.continuations ≠ [])
    (es : List Header) :
    hs.flatMap FoldedHeader.encode ++ r ≠ es.flatMap Header.encode ++ 13 :: r' := by
  induction hs generalizing es with
  | nil =>
    obtain ⟨_, hmem, -⟩ := hf
    exact absurd hmem List.not_mem_nil
  | cons h hs ih =>
    intro he
    simp only [List.flatMap_cons, FoldedHeader.encode, List.append_assoc] at he
    cases es with
    | nil => exact h.toHeader.encode_ne he
    | cons e es =>
      rw [List.flatMap_cons, List.append_assoc] at he
      have he' := (Header.encode_prefix he).2
      cases hc : h.continuations with
      | nil =>
        -- the line is not folded, so a later one is
        rw [hc, List.flatMap_nil, List.nil_append] at he'
        refine ih ?_ es he'
        obtain ⟨h', hmem, hne⟩ := hf
        obtain rfl | hmem := List.mem_cons.1 hmem
        · exact absurd hc hne
        · exact ⟨h', hmem, hne⟩
      | cons c cs =>
        obtain ⟨b, blanks, hblanks⟩ := List.exists_cons_of_ne_nil c.blanks_ne
        have hb : isBlank b = true := c.blanks_blank b (by rw [hblanks]; exact List.mem_cons_self)
        rw [hc, List.flatMap_cons, Continuation.encode, hblanks] at he'
        simp only [List.cons_append, List.append_assoc] at he'
        cases es with
        | nil =>
          obtain rfl : b = 13 := (List.cons.inj he').1
          exact absurd hb (by decide)
        | cons e' es =>
          rw [List.flatMap_cons, List.append_assoc] at he'
          exact e'.encode_ne_blank hb he'.symm

/-- The text of a folded head does not begin with the text of a head. -/
theorem FoldedHead.encode_ne (d : FoldedHead) (e : Head) : d.encode ≠ e.encode ++ r := by
  intro he
  simp only [FoldedHead.encode, Head.encode, Head.lines, Head.line, List.append_assoc,
    List.cons_append] at he
  obtain ⟨-, hl⟩ := Target.encode_prefix he
  obtain ⟨-, hh⟩ := append_cons_inj d.version.cr_notMem_text e.version.cr_notMem_text
    (List.append_cancel_left hl)
  exact flatMap_encode_ne d.folded e.headers (List.cons.inj hh).2

/-- The parser is never in the state for continuation lines. -/
theorem At.ne_headerLws {bytes : List UInt8} {w : Work} (ha : At bytes w) :
    w.1.state ≠ .headerLws := by
  cases ha with
  | letters t hk =>
    intro hst
    have hmem : ParserState.headerLws ∈ protocolStates := hst ▸ List.mem_of_getElem? hk
    exact absurd hmem (by decide)
  | _ => simp [inMethod, inUri, inVersion, inHeaders]

/-- **A folded head is never accepted**, so its lines are never joined: the state for continuation
lines is not reached in any run. -/
theorem folded_refused (p : HttpRequestParser) (req : HttpRequest) :
    (∀ d : FoldedHead, ¬ d.Joins p req) ∧
      ∀ bytes w, parse p.reset req bytes = (w, none, []) → w.1.state ≠ .headerLws := by
  refine ⟨fun d => ?_, fun bytes w hw => ?_⟩
  · rintro ⟨w, hw, -⟩
    obtain ⟨-, hr⟩ := agree_run p req d.encode
    replace hw : consumer.run (p.reset, req) d.encode = (w, some .good, []) := hw
    rw [hw] at hr
    have hrun : consumer.run ({}, {}) d.encode =
        ((consumer.run ({}, {}) d.encode).1, some .good, []) := Prod.ext rfl hr.symm
    obtain ⟨e, he, -⟩ := exists_head hrun
    exact d.encode_ne e he
  · obtain ⟨ha, hr⟩ := agree_run p req bytes
    replace hw : consumer.run (p.reset, req) bytes = (w, none, []) := hw
    rw [hw] at ha hr
    rw [ha.parser]
    have hrun : consumer.run ({}, {}) bytes = ((consumer.run ({}, {}) bytes).1, none, []) :=
      Prod.ext rfl hr.symm
    exact (at_of_run hrun).ne_headerLws

/-- A request whose header `A` has the value `b` and goes on with `c`. -/
def foldedRequest : FoldedHead where
  target := zeroOne.target
  version := ⟨0, 49, zeroOne.version.isDigit_digit, fun _ => by decide⟩
  headers := [{
    name := [65], value := [98], name_ne := List.cons_ne_nil _ _
    name_token := List.forall_mem_singleton.2 (by decide)
    value_text := List.forall_mem_singleton.2 (by decide)
    continuations := [{
      blanks := [32], text := [99], blanks_ne := List.cons_ne_nil _ _
      blanks_blank := List.forall_mem_singleton.2 (by decide), text_ne := List.cons_ne_nil _ _
      text_start := by rintro _ ⟨⟩; decide
      text_text := List.forall_mem_singleton.2 (by decide) }]
    value_ne := fun _ => List.cons_ne_nil _ _ }]
  size_le := by decide
  folded := ⟨_, List.mem_cons_self, List.cons_ne_nil _ _⟩

/-- The parser stops at the blank that the continuation line begins with. -/
theorem foldedRequest_refused : (parse (reset {}) {} foldedRequest.encode).2 =
    (some .bad, SysString.ofLiteral "c\r\n\r\n") ∧ ¬ foldedRequest.Joins {} {} := by
  have hrun : (parse (reset {}) {} foldedRequest.encode).2 =
      (some .bad, SysString.ofLiteral "c\r\n\r\n") := by decide +kernel
  refine ⟨hrun, ?_⟩
  rintro ⟨w, hw, -⟩
  rw [hw] at hrun
  simp at hrun

end HttpRequestParser

end Wsddn
