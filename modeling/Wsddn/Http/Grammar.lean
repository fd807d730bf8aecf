import Mathlib.Data.List.Induction
import Wsddn.Http.RequestParser
import Wsddn.Stream.Recognizer

/-!
# The language of request heads

What `HttpRequestParser` is for: the request heads, put together from their parts (`Head`), the
text of a head (`Head.encode`) and the request that a head stands for (`Head.request`).

* `Head.encode_injective` : a text is the text of at most one head.
* `run_encode` : on the text of a head whose URI is short enough and in ASCII the parser stops at
  its end, accepts it and has filled in the request.
-/

namespace Wsddn

namespace HttpRequestParser

open SysStringBuilder

/-! ### Stored text -/

/-- What a builder holds after some bytes were appended to it. -/
def stored (text : List UInt8) : SysStringBuilder := text.foldl append []

@[simp] theorem stored_nil : stored [] = [] := rfl

theorem stored_concat (text : List UInt8) (b : UInt8) :
    stored (text ++ [b]) = append (stored text) b := by
  rw [stored, List.foldl_append]
  rfl

theorem append_of_lt {b : SysStringBuilder} {c : UInt8} (h : c < 128) : append b c = b ++ [c] :=
  if_pos h

/-- ASCII is stored as it is. -/
theorem stored_of_ascii {text : List UInt8} (h : ∀ b ∈ text, b < 128) : stored text = text := by
  induction text using List.reverseRecOn with
  | nil => rfl
  | append_singleton text b ih =>
    rw [stored_concat, append_of_lt (h b (by simp)), ih fun c hc => h c (by simp [hc])]

theorem append_ne_nil (b : SysStringBuilder) (c : UInt8) : append b c ≠ [] := by
  unfold append
  split_ifs <;> simp

theorem stored_eq_nil_iff {text : List UInt8} : stored text = [] ↔ text = [] := by
  constructor
  · intro h
    induction text using List.reverseRecOn with
    | nil => rfl
    | append_singleton text b _ =>
      rw [stored_concat] at h
      exact absurd h (append_ne_nil _ b)
  · rintro rfl
    rfl

/-- No byte is lost. -/
theorem length_le_stored (text : List UInt8) : text.length ≤ (stored text).length := by
  induction text using List.reverseRecOn with
  | nil => exact Nat.le_refl _
  | append_singleton text b ih =>
    rw [stored_concat, append]
    split_ifs <;> simp <;> omega

/-! ### Heads -/

theorem lt_of_isToken {b : UInt8} (h : isToken b = true) : b < 128 := by
  have hc : isChar b = true := by
    simp only [isToken, Bool.and_eq_true] at h
    exact h.1.1
  simp only [isChar, decide_eq_true_iff] at hc
  exact UInt8.lt_of_le_of_lt hc (by decide)

/-- A version text: `1.`, some zeros and one more digit, which without a zero before it is `0` or
`1`. -/
structure Version where
  zeros : ℕ
  digit : UInt8
  isDigit_digit : isDigit digit = true
  digit_le : zeros = 0 → digit ≤ 49

/-- The digits after the point. -/
def Version.minor (v : Version) : List UInt8 := List.replicate v.zeros 48 ++ [v.digit]

/-- The version as it stands in the request line. -/
def Version.text (v : Version) : List UInt8 := 49 :: 46 :: v.minor

/-- A header line. -/
structure Header where
  name : List UInt8
  value : List UInt8
  name_ne : name ≠ []
  name_token : ∀ b ∈ name, isToken b = true
  value_text : ∀ b ∈ value, isCtl b = false

/-- The bytes of the line. -/
def Header.encode (h : Header) : List UInt8 := h.name ++ 58 :: 32 :: (h.value ++ [13, 10])

/-- The bytes that count for the limit on all headers. -/
def Header.size (h : Header) : ℕ := h.name.length + h.value.length

/-- What becomes of a header line. -/
def Header.entry (h : Header) : SysString × SysString := (h.name, stored h.value)

/-- What a request asks for. -/
structure Target where
  method : List UInt8
  uri : List UInt8
  method_ne : method ≠ []
  method_le : method.length ≤ maxMethodSize
  method_token : ∀ b ∈ method, isToken b = true
  uri_ne : uri ≠ []
  uri_text : ∀ b ∈ uri, isCtl b = false ∧ b ≠ 32

/-- The bytes of the request line up to the protocol. -/
def Target.encode (t : Target) : List UInt8 := t.method ++ 32 :: (t.uri ++ [32])

/-- `HTTP/`. -/
def protocol : List UInt8 := [72, 84, 84, 80, 47]

/-- A request head. -/
structure Head where
  target : Target
  version : Version
  headers : List Header
  size_le : (headers.map Header.size).sum ≤ maxHeadersSize

/-- The request line, without its end. -/
def Head.line (d : Head) : List UInt8 := d.target.encode ++ protocol ++ d.version.text

/-- The lines of a head. -/
def Head.lines (d : Head) : List UInt8 := d.line ++ 13 :: 10 :: d.headers.flatMap Header.encode

/-- The text of a head: its lines and an empty one. -/
def Head.encode (d : Head) : List UInt8 := d.lines ++ [13, 10]

/-- The bytes of header names and values. -/
def Head.size (d : Head) : ℕ := (d.headers.map Header.size).sum

/-- The minor version that the parser stores. -/
def Version.stored (v : Version) : UInt32 := v.digit.toUInt32 - 48

/-- The request that a head stands for. -/
def Head.request (d : Head) : HttpRequest where
  method := d.target.method
  uri := HttpRequestParser.stored d.target.uri
  versionMajor := 1
  versionMinor := d.version.stored
  headers := d.headers.map Header.entry

/-- The language of request heads. -/
def Language (bytes : List UInt8) : Prop :=
  ∃ d : Head, d.target.uri.length ≤ maxUriSize ∧ d.encode = bytes

/-! ### A text is the text of one head -/

/-- Text up to the first `c` is determined, and so is what follows. -/
theorem append_cons_inj {c : UInt8} {a a' r r' : List UInt8} (ha : c ∉ a) (ha' : c ∉ a')
    (h : a ++ c :: r = a' ++ c :: r') : a = a' ∧ r = r' := by
  induction a generalizing a' with
  | nil =>
    cases a' with
    | nil => exact ⟨rfl, (List.cons.inj h).2⟩
    | cons b a' => exact absurd ((List.cons.inj h).1 ▸ List.mem_cons_self) ha'
  | cons b a ih =>
    cases a' with
    | nil => exact absurd ((List.cons.inj h).1 ▸ List.mem_cons_self) ha
    | cons b' a' =>
      obtain ⟨rfl, hr⟩ := List.cons.inj h
      obtain ⟨rfl, rfl⟩ := ih (fun hc => ha (List.mem_cons_of_mem _ hc))
        (fun hc => ha' (List.mem_cons_of_mem _ hc)) hr
      exact ⟨rfl, rfl⟩

theorem notMem_of_isToken {n : List UInt8} {c : UInt8} (hn : ∀ b ∈ n, isToken b = true)
    (hc : isToken c = false) : c ∉ n := by
  intro hmem
  exact absurd ((hn c hmem).symm.trans hc) (by simp)

theorem notMem_of_isCtl {x : List UInt8} {c : UInt8} (hx : ∀ b ∈ x, isCtl b = false)
    (hc : isCtl c = true) : c ∉ x := by
  intro hmem
  exact absurd ((hx c hmem).symm.trans hc) (by simp)

variable {r r' : List UInt8}

theorem Target.encode_prefix {t t' : Target} (h : t.encode ++ r = t'.encode ++ r') :
    t = t' ∧ r = r' := by
  obtain ⟨m, u, _, _, hm, _, hu⟩ := t
  obtain ⟨m', u', _, _, hm', _, hu'⟩ := t'
  simp only [Target.encode, List.append_assoc, List.cons_append, List.nil_append] at h
  obtain ⟨rfl, hr⟩ := append_cons_inj (notMem_of_isToken hm (by decide))
    (notMem_of_isToken hm' (by decide)) h
  obtain ⟨rfl, rfl⟩ := append_cons_inj (fun hc => (hu 32 hc).2 rfl) (fun hc => (hu' 32 hc).2 rfl) hr
  exact ⟨rfl, rfl⟩

theorem Version.text_injective {v v' : Version} (h : v.text = v'.text) : v = v' := by
  obtain ⟨z, d, _, _⟩ := v
  obtain ⟨z', d', _, _⟩ := v'
  simp only [Version.text, Version.minor, List.cons.injEq, true_and] at h
  obtain ⟨hz, hd⟩ := List.append_inj' h rfl
  obtain rfl : z = z' := by simpa using congrArg List.length hz
  obtain rfl := List.singleton_inj.1 hd
  rfl

theorem Header.encode_prefix {h h' : Header} (he : h.encode ++ r = h'.encode ++ r') :
    h = h' ∧ r = r' := by
  obtain ⟨n, x, _, hn, hx⟩ := h
  obtain ⟨n', x', _, hn', hx'⟩ := h'
  simp only [Header.encode, List.append_assoc, List.cons_append, List.nil_append] at he
  obtain ⟨rfl, hv⟩ := append_cons_inj (notMem_of_isToken hn (by decide))
    (notMem_of_isToken hn' (by decide)) he
  obtain ⟨rfl, hr⟩ := append_cons_inj (notMem_of_isCtl hx (by decide))
    (notMem_of_isCtl hx' (by decide)) (List.cons.inj hv).2
  exact ⟨rfl, (List.cons.inj hr).2⟩

/-- A header line does not begin as the empty line does. -/
theorem Header.encode_ne (h : Header) : h.encode ++ r ≠ 13 :: r' := by
  obtain ⟨b, n, hn⟩ := List.exists_cons_of_ne_nil h.name_ne
  intro he
  rw [Header.encode, hn] at he
  have hb : b = 13 := (List.cons.inj he).1
  have := h.name_token b (by rw [hn]; exact List.mem_cons_self)
  rw [hb] at this
  exact absurd this (by decide)

theorem headers_injective {hs hs' : List Header}
    (h : hs.flatMap Header.encode ++ [13, 10] = hs'.flatMap Header.encode ++ [13, 10]) :
    hs = hs' := by
  induction hs generalizing hs' with
  | nil =>
    cases hs' with
    | nil => rfl
    | cons f hs' =>
      rw [List.flatMap_cons, List.append_assoc] at h
      exact absurd h.symm f.encode_ne
  | cons f hs ih =>
    rw [List.flatMap_cons, List.append_assoc] at h
    cases hs' with
    | nil => exact absurd h f.encode_ne
    | cons f' hs' =>
      rw [List.flatMap_cons, List.append_assoc] at h
      obtain ⟨rfl, hr⟩ := Header.encode_prefix h
      rw [ih hr]

/-- The end of the line is not within it. -/
theorem Version.cr_notMem_text (v : Version) : 13 ∉ v.text := by
  have hd : (13 : UInt8) ≠ v.digit := by
    intro he
    exact absurd (he ▸ v.isDigit_digit) (by decide)
  simp [Version.text, Version.minor, hd]

/-- **A text is the text of at most one head.** -/
theorem Head.encode_injective {d d' : Head} (h : d.encode = d'.encode) : d = d' := by
  obtain ⟨t, v, hs, _⟩ := d
  obtain ⟨t', v', hs', _⟩ := d'
  simp only [Head.encode, Head.lines, Head.line, List.append_assoc, List.cons_append] at h
  obtain ⟨rfl, hl⟩ := Target.encode_prefix h
  obtain ⟨hv, hh⟩ := append_cons_inj v.cr_notMem_text v'.cr_notMem_text
    (List.append_cancel_left hl)
  obtain rfl := Version.text_injective hv
  obtain rfl := headers_injective (List.cons.inj hh).2
  rfl

/-! ### The parser at work on a head -/

/-- Within the method. -/
def inMethod (method : List UInt8) : Work := ({ state := .method, methodBuilder := method }, {})

/-- Within the URI. -/
def inUri (method uri : List UInt8) : Work :=
  ({ state := .uri, uriBuilder := stored uri }, { method })

/-- Within the version. -/
def inVersion (t : Target) (state : ParserState) (major minor : UInt32) : Work :=
  ({ state, versionMajor := major, versionMinor := minor },
    { method := t.method, uri := stored t.uri })

/-- After the request line: `name` and `value` are those of the header line that is being read, and
`size` counts its bytes and those of the headers `hs` before it. -/
def inHeaders (t : Target) (v : Version) (hs : List Header) (state : ParserState)
    (name value : List UInt8) (size : ℕ) : Work :=
  ({ state, versionMajor := 1, versionMinor := v.stored, headerNameBuilder := name,
     headerValueBuilder := stored value, totalHeadersSize := size },
    { method := t.method, uri := stored t.uri, versionMajor := 1, versionMinor := v.stored,
      headers := hs.map Header.entry })

variable {rest : List UInt8}

theorem run_consume {w w' : Work} {b : UInt8} (h : consume w b = (w', none)) :
    consumer.run w (b :: rest) = consumer.run w' rest := Consumer.run_cons_of_none h

theorem ne_of_isToken {b c : UInt8} (h : isToken b = true) (hc : isToken c = false) : b ≠ c := by
  rintro rfl
  exact absurd (h.symm.trans hc) (by simp)

theorem ne_cr_of_isCtl {b : UInt8} (h : isCtl b = false) : b ≠ 13 := by
  rintro rfl
  exact absurd h (by decide)

theorem consume_method {m : List UInt8} {b : UInt8} (hb : isToken b = true)
    (hlt : m.length < maxMethodSize) : consume (inMethod m) b = (inMethod (m ++ [b]), none) := by
  have hne : ¬ storageSize m = maxMethodSize := Nat.ne_of_lt hlt
  simp [consume, inMethod, hb, ne_of_isToken hb (c := 32) (by decide), hne,
    append_of_lt (lt_of_isToken hb)]

theorem run_method {m m₀ : List UInt8} (hm : ∀ b ∈ m, isToken b = true)
    (hle : m₀.length + m.length ≤ maxMethodSize) :
    consumer.run (inMethod m₀) (m ++ 32 :: rest) = consumer.run (inUri (m₀ ++ m) []) rest := by
  induction m generalizing m₀ with
  | nil =>
    refine run_consume ?_
    simp [consume, inMethod, inUri]
  | cons b m ih =>
    rw [List.length_cons] at hle
    have hstep := consume_method (hm b List.mem_cons_self) (m := m₀) (by omega)
    rw [List.cons_append, run_consume hstep,
      ih (fun c hc => hm c (List.mem_cons_of_mem _ hc)) (by simp; omega)]
    simp

theorem consume_uri {m u : List UInt8} {b : UInt8} (hb : isCtl b = false ∧ b ≠ 32)
    (hne : (stored u).length ≠ maxUriSize) :
    consume (inUri m u) b = (inUri m (u ++ [b]), none) := by
  have hsize : ¬ storageSize (stored u) = maxUriSize := hne
  simp [consume, inUri, hb.1, hb.2, hsize, stored_concat]

theorem consume_uri_space {m u : List UInt8} (hu : u ≠ []) :
    consume (inUri m u) 32 =
      (({ state := .httpVersionH }, { method := m, uri := stored u }), none) := by
  simp [consume, inUri, stored_eq_nil_iff, hu]

theorem run_uri {m u u₀ : List UInt8} (hu : ∀ b ∈ u, isCtl b = false ∧ b ≠ 32)
    (hascii : ∀ b ∈ u₀ ++ u, b < 128) (hne : u₀ ++ u ≠ [])
    (hle : u₀.length + u.length ≤ maxUriSize) :
    consumer.run (inUri m u₀) (u ++ 32 :: rest) =
      consumer.run ({ state := .httpVersionH }, { method := m, uri := stored (u₀ ++ u) }) rest := by
  induction u generalizing u₀ with
  | nil =>
    rw [List.append_nil] at hne ⊢
    exact run_consume (consume_uri_space hne)
  | cons b u ih =>
    rw [List.length_cons] at hle
    have hu₀ : stored u₀ = u₀ := stored_of_ascii fun c hc => hascii c (by simp [hc])
    have hstep := consume_uri (m := m) (hu b List.mem_cons_self) (u := u₀) (by rw [hu₀]; omega)
    rw [List.cons_append, run_consume hstep,
      ih (fun c hc => hu c (List.mem_cons_of_mem _ hc)) (by simpa using hascii) (by simp)
        (by simp; omega)]
    simp

theorem isDigit_iff {d : UInt8} : isDigit d = true ↔ 48 ≤ d.toNat ∧ d.toNat ≤ 57 := by
  simp [isDigit, UInt8.le_iff_toNat_le]

theorem digit_toNat {d : UInt8} (h : isDigit d = true) :
    (d.toUInt32 - 48).toNat = d.toNat - 48 := by
  have hle : (48 : UInt32) ≤ d.toUInt32 := by
    rw [UInt32.le_iff_toNat_le, UInt8.toNat_toUInt32]
    exact (isDigit_iff.1 h).1
  rw [UInt32.toNat_sub_of_le _ _ hle, UInt8.toNat_toUInt32]
  rfl

/-- After zeros every digit is accepted: the difference to the maximum wraps. -/
theorem boundedAddDigit_zero (digit : UInt32) : boundedAddDigit 0 digit 1 = some digit := by
  simp [boundedAddDigit]

theorem boundedAddDigit_of_ne_zero {value : UInt32} (h : value ≠ 0) (digit : UInt32) :
    boundedAddDigit value digit 1 = none := by
  simp [boundedAddDigit, h]

theorem consume_major (t : Target) :
    consume (inVersion t .httpVersionMajorStart 0 0) 49 =
      (inVersion t .httpVersionMajor 1 0, none) := rfl

theorem consume_point (t : Target) :
    consume (inVersion t .httpVersionMajor 1 0) 46 =
      (inVersion t .httpVersionMinorStart 1 0, none) := rfl

theorem ne_of_isDigit {b c : UInt8} (h : isDigit b = true) (hc : isDigit c = false) : b ≠ c := by
  rintro rfl
  exact absurd (h.symm.trans hc) (by simp)

/-- The first digit of the minor version. -/
theorem consume_minorStart (t : Target) {d : UInt8} (hd : isDigit d = true) (hle : d ≤ 49) :
    consume (inVersion t .httpVersionMinorStart 1 0) d =
      (inVersion t .httpVersionMinor 1 (d.toUInt32 - 48), none) := by
  have hno : ¬ (1 : UInt32) < d.toUInt32 - 48 := by
    rw [UInt32.lt_iff_toNat_lt, digit_toNat hd]
    have := UInt8.le_iff_toNat_le.1 hle
    show ¬ 1 < _
    have h49 : (49 : UInt8).toNat = 49 := rfl
    omega
  simp [consume, inVersion, hd, maxVersion, hno]

/-- A digit after zeros. -/
theorem consume_minor (t : Target) {d : UInt8} (hd : isDigit d = true) :
    consume (inVersion t .httpVersionMinor 1 0) d =
      (inVersion t .httpVersionMinor 1 (d.toUInt32 - 48), none) := by
  have hne : d ≠ 13 := ne_of_isDigit hd (by decide)
  simp [consume, inVersion, hne, hd, maxVersion, boundedAddDigit_zero]

/-- The version. -/
theorem run_version (t : Target) (v : Version) :
    consumer.run (inVersion t .httpVersionMajorStart 0 0) (v.text ++ rest) =
      consumer.run (inVersion t .httpVersionMinor 1 v.stored) rest := by
  have hzeros : ∀ k, consumer.run (inVersion t .httpVersionMinor 1 0)
      (List.replicate k 48 ++ v.digit :: rest) =
      consumer.run (inVersion t .httpVersionMinor 1 v.stored) rest := by
    intro k
    induction k with
    | zero => exact run_consume (consume_minor t v.isDigit_digit)
    | succ k ih => exact (run_consume (consume_minor t (by decide))).trans ih
  unfold Version.text Version.minor
  rw [List.cons_append, List.cons_append, run_consume (consume_major t),
    run_consume (consume_point t), List.append_assoc]
  cases hk : v.zeros with
  | zero => exact run_consume (consume_minorStart t v.isDigit_digit (v.digit_le hk))
  | succ k => exact (run_consume (consume_minorStart t (by decide) (by decide))).trans (hzeros k)

section Headers

variable (t : Target) (v : Version) (hs : List Header)

theorem consume_name {state : ParserState} {b : UInt8} (n : List UInt8) {size : ℕ}
    (hst : state = .headerLineStart ∨ state = .headerName) (hb : isToken b = true)
    (hlt : size < maxHeadersSize) :
    consume (inHeaders t v hs state n [] size) b =
      (inHeaders t v hs .headerName (n ++ [b]) [] (size + 1), none) := by
  have hne : ¬ size = maxHeadersSize := Nat.ne_of_lt hlt
  obtain rfl | rfl := hst
  · simp [consume, inHeaders, addToName, hb, hne, ne_of_isToken hb (c := 13) (by decide),
      append_of_lt (lt_of_isToken hb)]
  · simp [consume, inHeaders, addToName, hb, hne, ne_of_isToken hb (c := 58) (by decide),
      append_of_lt (lt_of_isToken hb)]

theorem consume_colon (n : List UInt8) (size : ℕ) :
    consume (inHeaders t v hs .headerName n [] size) 58 =
      (inHeaders t v hs .spaceBeforeHeaderValue n [] size, none) := rfl

theorem consume_space (n : List UInt8) (size : ℕ) :
    consume (inHeaders t v hs .spaceBeforeHeaderValue n [] size) 32 =
      (inHeaders t v hs .headerValue n [] size, none) := rfl

theorem consume_value {b : UInt8} (n x : List UInt8) {size : ℕ} (hb : isCtl b = false)
    (hlt : size < maxHeadersSize) :
    consume (inHeaders t v hs .headerValue n x size) b =
      (inHeaders t v hs .headerValue n (x ++ [b]) (size + 1), none) := by
  have hne : ¬ size = maxHeadersSize := Nat.ne_of_lt hlt
  simp [consume, inHeaders, addToValue, hb, hne, ne_cr_of_isCtl hb, stored_concat]

theorem consume_cr (n x : List UInt8) (size : ℕ) :
    consume (inHeaders t v hs .headerValue n x size) 13 =
      (inHeaders t v hs .expectingNewline2 n x size, none) := rfl

/-- A header line ends. -/
theorem consume_lf (h : Header) (size : ℕ) :
    consume (inHeaders t v hs .expectingNewline2 h.name h.value size) 10 =
      (inHeaders t v (hs ++ [h]) .headerLineStart [] [] size, none) := by
  simp [consume, inHeaders, Header.entry]

variable {t v hs}

theorem run_name {n n₀ : List UInt8} {size : ℕ} (hn : ∀ b ∈ n, isToken b = true)
    (hle : size + n.length ≤ maxHeadersSize) :
    consumer.run (inHeaders t v hs .headerName n₀ [] size) (n ++ 58 :: 32 :: rest) =
      consumer.run (inHeaders t v hs .headerValue (n₀ ++ n) [] (size + n.length)) rest := by
  induction n generalizing n₀ size with
  | nil =>
    rw [List.nil_append, List.append_nil]
    exact (run_consume (consume_colon t v hs n₀ size)).trans
      (run_consume (consume_space t v hs n₀ size))
  | cons b n ih =>
    rw [List.length_cons] at hle ⊢
    have hstep := consume_name t v hs n₀ (.inr rfl) (hn b List.mem_cons_self)
      (show size < maxHeadersSize by omega)
    rw [List.cons_append, run_consume hstep,
      ih (fun c hc => hn c (List.mem_cons_of_mem _ hc)) (by omega), List.append_assoc,
      List.singleton_append, Nat.add_right_comm, Nat.add_assoc]

theorem run_value {n x x₀ : List UInt8} {size : ℕ} (hx : ∀ b ∈ x, isCtl b = false)
    (hle : size + x.length ≤ maxHeadersSize) :
    consumer.run (inHeaders t v hs .headerValue n x₀ size) (x ++ 13 :: rest) =
      consumer.run (inHeaders t v hs .expectingNewline2 n (x₀ ++ x) (size + x.length)) rest := by
  induction x generalizing x₀ size with
  | nil =>
    rw [List.nil_append, List.append_nil]
    exact run_consume (consume_cr t v hs n x₀ size)
  | cons b x ih =>
    rw [List.length_cons] at hle ⊢
    have hstep := consume_value t v hs n x₀ (hx b List.mem_cons_self)
      (show size < maxHeadersSize by omega)
    rw [List.cons_append, run_consume hstep,
      ih (fun c hc => hx c (List.mem_cons_of_mem _ hc)) (by omega), List.append_assoc,
      List.singleton_append, Nat.add_right_comm, Nat.add_assoc]

theorem run_header (h : Header) {size : ℕ} (hle : size + h.size ≤ maxHeadersSize) :
    consumer.run (inHeaders t v hs .headerLineStart [] [] size) (h.encode ++ rest) =
      consumer.run (inHeaders t v (hs ++ [h]) .headerLineStart [] [] (size + h.size)) rest := by
  obtain ⟨b, n, hn⟩ := List.exists_cons_of_ne_nil h.name_ne
  have htok := h.name_token
  have hsize : h.size = n.length + 1 + h.value.length := by
    rw [Header.size, hn, List.length_cons]
  have hname : size + 1 + n.length ≤ maxHeadersSize := by omega
  have hvalue : size + 1 + n.length + h.value.length ≤ maxHeadersSize := by omega
  have hstep := consume_name t v hs [] (.inl rfl) (htok b (by rw [hn]; exact List.mem_cons_self))
    (show size < maxHeadersSize by omega)
  have hlf := consume_lf t v hs h (size + h.size)
  rw [hn] at htok
  rw [hn] at hlf
  rw [Header.encode, hn]
  simp only [List.cons_append, List.append_assoc, List.nil_append]
  rw [run_consume hstep, List.nil_append,
    run_name (fun c hc => htok c (List.mem_cons_of_mem _ hc)) hname,
    run_value h.value_text hvalue, List.singleton_append, List.nil_append]
  rw [hsize] at hlf ⊢
  rw [← Nat.add_assoc, ← Nat.add_assoc, Nat.add_right_comm size n.length 1] at hlf ⊢
  exact run_consume hlf

theorem run_headers (hs' : List Header) {size : ℕ}
    (hle : size + (hs'.map Header.size).sum ≤ maxHeadersSize) :
    consumer.run (inHeaders t v hs .headerLineStart [] [] size)
      (hs'.flatMap Header.encode ++ rest) =
      consumer.run (inHeaders t v (hs ++ hs') .headerLineStart [] []
        (size + (hs'.map Header.size).sum)) rest := by
  induction hs' generalizing hs size with
  | nil => simp
  | cons h hs' ih =>
    rw [List.map_cons, List.sum_cons, ← Nat.add_assoc] at hle ⊢
    rw [List.flatMap_cons, List.append_assoc, run_header h (by omega), ih hle, List.append_assoc,
      List.singleton_append]

end Headers

/-- `HTTP/`. -/
theorem run_protocol (t : Target) :
    consumer.run (inVersion t .httpVersionH 0 0) (protocol ++ rest) =
      consumer.run (inVersion t .httpVersionMajorStart 0 0) rest := rfl

/-- The method. -/
theorem run_methodStart (t : Target) :
    consumer.run ({}, {}) (t.method ++ 32 :: rest) = consumer.run (inUri t.method []) rest := by
  obtain ⟨b, m, hm⟩ := List.exists_cons_of_ne_nil t.method_ne
  have htok := t.method_token
  have hlen := t.method_le
  rw [hm] at htok hlen
  have hb : isToken b = true := htok b List.mem_cons_self
  have hstep : consume ({}, {}) b = (inMethod [b], none) := by
    simp [consume, inMethod, hb, append_of_lt (lt_of_isToken hb)]
  have hmethod : [b].length + m.length ≤ maxMethodSize := by
    rw [List.length_cons] at hlen
    rw [List.length_singleton]
    omega
  rw [hm, List.cons_append, run_consume hstep,
    run_method (fun c hc => htok c (List.mem_cons_of_mem _ hc)) hmethod, List.singleton_append]

theorem run_target (t : Target) (hascii : ∀ b ∈ t.uri, b < 128)
    (hle : t.uri.length ≤ maxUriSize) :
    consumer.run ({}, {}) (t.encode ++ rest) =
      consumer.run (inVersion t .httpVersionH 0 0) rest := by
  rw [Target.encode]
  simp only [List.cons_append, List.append_assoc, List.nil_append]
  rw [run_methodStart,
    run_uri t.uri_text (by simpa using hascii) (by simpa using t.uri_ne) (by simpa using hle)]
  simp only [List.nil_append, inVersion]

/-- **A head is accepted** at its end, and the request is the one it stands for. -/
theorem run_encode (d : Head) (hascii : ∀ b ∈ d.target.uri, b < 128)
    (hle : d.target.uri.length ≤ maxUriSize) :
    consumer.run ({}, {}) (d.encode ++ rest) =
      (inHeaders d.target d.version d.headers .expectingNewline3 [] [] d.size, some .good,
        rest) := by
  have hsize : 0 + (d.headers.map Header.size).sum ≤ maxHeadersSize := by
    rw [Nat.zero_add]
    exact d.size_le
  have hcr : consume (inVersion d.target .httpVersionMinor 1 d.version.stored) 13 =
      (inHeaders d.target d.version [] .expectingNewline1 [] [] 0, none) := by
    simp [consume, inVersion, inHeaders, minVersion]
  have hlf : consume (inHeaders d.target d.version [] .expectingNewline1 [] [] 0) 10 =
      (inHeaders d.target d.version [] .headerLineStart [] [] 0, none) := rfl
  rw [Head.encode, Head.lines, Head.line]
  simp only [List.cons_append, List.append_assoc, List.nil_append]
  rw [run_target _ hascii hle, run_protocol, run_version, run_consume hcr, run_consume hlf,
    run_headers _ hsize, Nat.zero_add]
  rfl

end HttpRequestParser

end Wsddn
