import Wsddn.Http.Request
import Wsddn.Stream.Consumer

/-!
# The request parser (`http_request_parser.h`, `http_request_parser.cpp`)

`HttpRequestParser` reads a request head one byte at a time.  `consume` is the body of the
source's `switch`, state by state and test by test; `parse` is the loop around it, a
`Consumer`, so the library's `Consumer.run_append_of_none` and `Consumer.run_append_of_some` say
how the parser behaves on a head that arrives in pieces.

A `sys_string_builder` is the list of its storage bytes: `append` goes through the `char32_t`
overload, so a byte from 128 on is stored as the two bytes of its UTF-8 encoding, and `build`
returns the content and leaves the builder empty.

What a request holds when a new head begins never influences the parser, which only overwrites
its fields and appends to its header table (`Agree`): `consume_agree` for one byte, `parse_agree`
for a piece of input.
-/

namespace Wsddn

/-- A `sys_string_builder`: the bytes stored so far. -/
abbrev SysStringBuilder := List UInt8

namespace SysStringBuilder

/-- `append(char32_t)` for a code point below 256. -/
def append (b : SysStringBuilder) (c : UInt8) : SysStringBuilder :=
  if c < 128 then b ++ [c] else b ++ [(192 : UInt8) ||| (c >>> 6), (128 : UInt8) ||| (c &&& 63)]

/-- `storage_size()`. -/
def storageSize (b : SysStringBuilder) : ℕ := b.length

end SysStringBuilder

open SysStringBuilder

/-- `boundedAddDigit`, on 32-bit unsigned numbers; `none` if it returns `false`. -/
def boundedAddDigit (value digit maxVal : UInt32) : Option UInt32 :=
  if maxVal / 10 < value then none
  else
    let val := value * 10
    if maxVal - digit < val then none else some (val + digit)

/-- The states of the parser. -/
inductive ParserState where
  | methodStart
  | method
  | uri
  | httpVersionH
  | httpVersionT1
  | httpVersionT2
  | httpVersionP
  | httpVersionSlash
  | httpVersionMajorStart
  | httpVersionMajor
  | httpVersionMinorStart
  | httpVersionMinor
  | expectingNewline1
  | headerLineStart
  | headerLws
  | headerName
  | spaceBeforeHeaderValue
  | headerValue
  | expectingNewline2
  | expectingNewline3
  deriving DecidableEq, Repr

/-- How the parser stops.  `Indeterminate` is the parser not having stopped. -/
inductive ResultType where
  | good
  | bad
  deriving DecidableEq, Repr

/-- The parser. -/
structure HttpRequestParser where
  state : ParserState := .methodStart
  methodBuilder : SysStringBuilder := []
  uriBuilder : SysStringBuilder := []
  versionMajor : UInt32 := 0
  versionMinor : UInt32 := 0
  headerNameBuilder : SysStringBuilder := []
  headerValueBuilder : SysStringBuilder := []
  totalHeadersSize : ℕ := 0
  deriving DecidableEq, Repr

namespace HttpRequestParser

/-- `s_minVersion`. -/
def minVersion : UInt32 × UInt32 := (1, 0)

/-- `s_maxVersion`. -/
def maxVersion : UInt32 × UInt32 := (1, 1)

/-- `s_maxMethodSize`. -/
def maxMethodSize : ℕ := 10

/-- `s_maxUriSize`. -/
def maxUriSize : ℕ := 2048

/-- `s_maxHeadersSize`. -/
def maxHeadersSize : ℕ := 8192

/-- A character of 7 bits. -/
def isChar (c : UInt8) : Bool := c ≤ 127

/-- A control character. -/
def isCtl (c : UInt8) : Bool := c ≤ 31 || c == 127

-- ( ) < > @ , ; : \ " / [ ] ? = { } space and tab
/-- One of the separators above. -/
def isTSpecial (c : UInt8) : Bool :=
  match c.toNat with
  | 40 | 41 | 60 | 62 | 64 | 44 | 59 | 58 | 92 | 34 | 47 | 91 | 93 | 63 | 61 | 123 | 125 | 32 | 9 =>
    true
  | _ => false

/-- A decimal digit. -/
def isDigit (c : UInt8) : Bool := 48 ≤ c && c ≤ 57

/-- The bytes a method or a header name is made of. -/
def isToken (c : UInt8) : Bool := isChar c && !isCtl c && !isTSpecial c

/-- Back to the initial state. -/
def reset (_ : HttpRequestParser) : HttpRequestParser where
  state := .methodStart
  methodBuilder := []
  uriBuilder := []
  versionMajor := 0
  versionMinor := 0
  headerNameBuilder := []
  headerValueBuilder := []
  totalHeadersSize := 0

/-- The parser at work: the parser and the request it fills in. -/
abbrev Work := HttpRequestParser × HttpRequest

/-- Expect the byte `c` and go to state `next`. -/
def expect (w : Work) (input c : UInt8) (next : ParserState) : Work × Option ResultType :=
  if input = c then (({ w.1 with state := next }, w.2), none) else (w, some .bad)

/-- Append a byte to the header name being read, within the limit on all headers. -/
def addToName (w : Work) (input : UInt8) (next : ParserState) : Work × Option ResultType :=
  if w.1.totalHeadersSize = maxHeadersSize then (w, some .bad)
  else (({ w.1 with headerNameBuilder := append w.1.headerNameBuilder input,
                    totalHeadersSize := w.1.totalHeadersSize + 1, state := next }, w.2), none)

/-- Append a byte to the header value being read, within the limit on all headers. -/
def addToValue (w : Work) (input : UInt8) : Work × Option ResultType :=
  if w.1.totalHeadersSize = maxHeadersSize then (({ w.1 with state := .headerValue }, w.2), some .bad)
  else (({ w.1 with headerValueBuilder := append w.1.headerValueBuilder input,
                    totalHeadersSize := w.1.totalHeadersSize + 1, state := .headerValue }, w.2), none)

/-- One byte of input. -/
def consume (w : Work) (input : UInt8) : Work × Option ResultType :=
  let p := w.1
  let req := w.2
  match p.state with
  | .methodStart =>
    if !isToken input then (w, some .bad)
    else (({ p with methodBuilder := append p.methodBuilder input, state := .method }, req), none)
  | .method =>
    if input = 32 then
      (({ p with methodBuilder := [], state := .uri }, { req with method := p.methodBuilder }), none)
    else if !isToken input then (w, some .bad)
    else if storageSize p.methodBuilder = maxMethodSize then (w, some .bad)
    else (({ p with methodBuilder := append p.methodBuilder input }, req), none)
  | .uri =>
    if input = 32 then
      if p.uriBuilder = [] then (w, some .bad)
      else
        (({ p with uriBuilder := [], state := .httpVersionH }, { req with uri := p.uriBuilder }), none)
    else if isCtl input then (w, some .bad)
    else if storageSize p.uriBuilder = maxUriSize then (w, some .bad)
    else (({ p with uriBuilder := append p.uriBuilder input }, req), none)
  | .httpVersionH => expect w input 72 .httpVersionT1
  | .httpVersionT1 => expect w input 84 .httpVersionT2
  | .httpVersionT2 => expect w input 84 .httpVersionP
  | .httpVersionP => expect w input 80 .httpVersionSlash
  | .httpVersionSlash => expect w input 47 .httpVersionMajorStart
  | .httpVersionMajorStart =>
    if isDigit input then
      let digit := input.toUInt32 - 48
      if digit = 0 ∨ maxVersion.1 < digit then (w, some .bad)
      else (({ p with versionMajor := digit, state := .httpVersionMajor }, req), none)
    else (w, some .bad)
  | .httpVersionMajor =>
    if input = 46 then
      if p.versionMajor < minVersion.1 then (w, some .bad)
      else (({ p with state := .httpVersionMinorStart }, req), none)
    else if isDigit input then
      match boundedAddDigit p.versionMajor (input.toUInt32 - 48) maxVersion.1 with
      | none => (w, some .bad)
      | some v => (({ p with versionMajor := v }, req), none)
    else (w, some .bad)
  | .httpVersionMinorStart =>
    if isDigit input then
      let digit := input.toUInt32 - 48
      if p.versionMajor = maxVersion.1 ∧ maxVersion.2 < digit then (w, some .bad)
      else (({ p with versionMinor := digit, state := .httpVersionMinor }, req), none)
    else (w, some .bad)
  | .httpVersionMinor =>
    if input = 13 then
      if p.versionMajor = minVersion.1 ∧ p.versionMinor < minVersion.2 then (w, some .bad)
      else
        (({ p with state := .expectingNewline1 },
          { req with versionMajor := p.versionMajor, versionMinor := p.versionMinor }), none)
    else if isDigit input then
      let maxMinor := if p.versionMajor = maxVersion.1 then maxVersion.2 else 4294967295
      match boundedAddDigit p.versionMinor (input.toUInt32 - 48) maxMinor with
      | none => (w, some .bad)
      | some v => (({ p with versionMinor := v }, req), none)
    else (w, some .bad)
  | .expectingNewline1 => expect w input 10 .headerLineStart
  | .headerLineStart =>
    if input = 13 then (({ p with state := .expectingNewline3 }, req), none)
    else if p.headerValueBuilder ≠ [] ∧ (input = 32 ∨ input = 9) then
      (({ p with state := .headerLws }, req), none)
    else if !isToken input then (w, some .bad)
    else addToName w input .headerName
  | .headerLws =>
    if input = 13 then (({ p with state := .expectingNewline2 }, req), none)
    else if input = 32 ∨ input = 9 then (w, none)
    else if isCtl input then (w, some .bad)
    else addToValue w input
  | .headerName =>
    if input = 58 then (({ p with state := .spaceBeforeHeaderValue }, req), none)
    else if !isToken input then (w, some .bad)
    else addToName w input .headerName
  | .spaceBeforeHeaderValue => expect w input 32 .headerValue
  | .headerValue =>
    if input = 13 then (({ p with state := .expectingNewline2 }, req), none)
    else if isCtl input then (w, some .bad)
    else addToValue w input
  | .expectingNewline2 =>
    if input = 10 then
      (({ p with headerNameBuilder := [], headerValueBuilder := [], state := .headerLineStart },
        { req with headers := req.headers ++ [(p.headerNameBuilder, p.headerValueBuilder)] }), none)
    else (w, some .bad)
  | .expectingNewline3 => (w, if input = 10 then some .good else some .bad)

/-- The parser as a consumer of bytes. -/
def consumer : Consumer Work UInt8 ResultType := ⟨consume⟩

/-- Parse some data: the parser and the request afterwards, the result (`none` is
`Indeterminate`) and the bytes that were not read. -/
def parse (p : HttpRequestParser) (req : HttpRequest) (bytes : List UInt8) :
    Work × Option ResultType × List UInt8 :=
  consumer.run (p, req) bytes

/-! ### What the request held before -/

/-- The states after the method was stored in the request. -/
def pastMethod : ParserState → Bool
  | .methodStart | .method => false
  | _ => true

/-- The states after the URI was stored in the request. -/
def pastUri : ParserState → Bool
  | .methodStart | .method | .uri => false
  | _ => true

/-- The states after the version was stored in the request. -/
def pastVersion : ParserState → Bool
  | .expectingNewline1 | .headerLineStart | .headerLws | .headerName | .spaceBeforeHeaderValue
  | .headerValue | .expectingNewline2 | .expectingNewline3 => true
  | _ => false

/-- The same parser at work on two requests: `hs` are the headers that were in the first one
when the head began, and what the head has already stored is the same in both. -/
structure Agree (hs : List (SysString × SysString)) (w w' : Work) : Prop where
  parser : w.1 = w'.1
  headers : w.2.headers = hs ++ w'.2.headers
  method : pastMethod w.1.state = true → w.2.method = w'.2.method
  uri : pastUri w.1.state = true → w.2.uri = w'.2.uri
  version : pastVersion w.1.state = true →
    w.2.versionMajor = w'.2.versionMajor ∧ w.2.versionMinor = w'.2.versionMinor

variable {hs : List (SysString × SysString)} {w w' : Work}

/-- **One byte does the same** whatever the request held before. -/
theorem consume_agree (h : Agree hs w w') (b : UInt8) :
    Agree hs (consume w b).1 (consume w' b).1 ∧ (consume w b).2 = (consume w' b).2 := by
  obtain ⟨p, r⟩ := w
  obtain ⟨p', r'⟩ := w'
  obtain ⟨hp, hh, hm, hu, hv⟩ := h
  simp only at hp hh hm hu hv
  subst hp
  have stay : ∀ q : HttpRequestParser, pastMethod q.state = pastMethod p.state →
      pastUri q.state = pastUri p.state → pastVersion q.state = pastVersion p.state →
      Agree hs (q, r) (q, r') :=
    fun q hqm hqu hqv =>
      ⟨rfl, hh, fun h => hm (hqm ▸ h), fun h => hu (hqu ▸ h), fun h => hv (hqv ▸ h)⟩
  cases hst : p.state <;> rw [hst] at stay <;>
    simp only [consume, hst, expect, addToName, addToValue]
  case method =>
    split_ifs
    · exact ⟨⟨rfl, hh, fun _ => rfl, by simp [pastUri], by simp [pastVersion]⟩, rfl⟩
    all_goals exact ⟨stay _ (by simp [hst]) (by simp [hst]) (by simp [hst]), rfl⟩
  case uri =>
    split_ifs
    · exact ⟨stay _ (by simp [hst]) (by simp [hst]) (by simp [hst]), rfl⟩
    · exact ⟨⟨rfl, hh, fun _ => hm (by simp [hst, pastMethod]), fun _ => rfl,
        by simp [pastVersion]⟩, rfl⟩
    all_goals exact ⟨stay _ (by simp [hst]) (by simp [hst]) (by simp [hst]), rfl⟩
  case httpVersionMajor =>
    cases boundedAddDigit p.versionMajor (b.toUInt32 - 48) maxVersion.1 <;> split_ifs <;>
      exact ⟨stay _ (by simp [hst, pastMethod]) (by simp [hst, pastUri])
        (by simp [hst, pastVersion]), rfl⟩
  case httpVersionMinor =>
    have hm' : r.method = r'.method := hm (by simp [hst, pastMethod])
    have hu' : r.uri = r'.uri := hu (by simp [hst, pastUri])
    cases boundedAddDigit p.versionMinor (b.toUInt32 - 48)
      (if p.versionMajor = maxVersion.1 then maxVersion.2 else 4294967295) <;> split_ifs <;> first
      | exact ⟨⟨rfl, hh, fun _ => hm', fun _ => hu', fun _ => ⟨rfl, rfl⟩⟩, rfl⟩
      | exact ⟨stay _ (by simp [hst]) (by simp [hst]) (by simp [hst]), rfl⟩
  case expectingNewline2 =>
    split_ifs
    · refine ⟨⟨rfl, ?_, fun _ => hm (by simp [hst, pastMethod]),
        fun _ => hu (by simp [hst, pastUri]), fun _ => hv (by simp [hst, pastVersion])⟩, rfl⟩
      simp [hh]
    · exact ⟨stay _ (by simp [hst]) (by simp [hst]) (by simp [hst]), rfl⟩
  case expectingNewline3 =>
    exact ⟨stay _ (by simp [hst]) (by simp [hst]) (by simp [hst]), trivial⟩
  all_goals
    split_ifs <;> exact ⟨stay _ (by simp [hst, pastMethod]) (by simp [hst, pastUri])
      (by simp [hst, pastVersion]), rfl⟩

/-- **A piece of input does the same** whatever the request held before. -/
theorem parse_agree {bytes : List UInt8} : ∀ {w w' : Work}, Agree hs w w' →
    Agree hs (consumer.run w bytes).1 (consumer.run w' bytes).1 ∧
      (consumer.run w bytes).2 = (consumer.run w' bytes).2 := by
  induction bytes with
  | nil => exact fun h => ⟨h, rfl⟩
  | cons b bytes ih =>
    intro w w' h
    obtain ⟨hw, hr⟩ := consume_agree h b
    rcases hc : consume w b with ⟨v, o⟩
    rcases hc' : consume w' b with ⟨v', o'⟩
    rw [hc, hc'] at hw hr
    simp only at hw hr
    subst hr
    cases o with
    | some r =>
      rw [Consumer.run_cons_of_some (C := consumer) hc,
        Consumer.run_cons_of_some (C := consumer) hc']
      exact ⟨hw, rfl⟩
    | none =>
      rw [Consumer.run_cons_of_none (C := consumer) hc,
        Consumer.run_cons_of_none (C := consumer) hc']
      exact ih hw

/-- **A head that arrives in pieces is read the same** whatever the request held before. -/
theorem runReads_agree {reads : List (List UInt8)} : ∀ {w w' : Work}, Agree hs w w' →
    Agree hs (consumer.runReads w reads).1 (consumer.runReads w' reads).1 ∧
      (consumer.runReads w reads).2 = (consumer.runReads w' reads).2 := by
  induction reads with
  | nil => exact fun h => ⟨h, rfl⟩
  | cons bytes reads ih =>
    intro w w' h
    obtain ⟨hw, hr⟩ := @parse_agree _ bytes _ _ h
    rcases hc : consumer.run w bytes with ⟨v, o, rest⟩
    rcases hc' : consumer.run w' bytes with ⟨v', o', rest'⟩
    rw [hc, hc'] at hw hr
    obtain ⟨rfl, rfl⟩ := Prod.mk.inj hr
    cases o with
    | some r =>
      rw [Consumer.runReads_cons_of_some hc, Consumer.runReads_cons_of_some hc']
      exact ⟨hw, rfl⟩
    | none =>
      rw [Consumer.runReads_cons_of_none hc, Consumer.runReads_cons_of_none hc']
      exact ih hw

theorem consume_good {w : Work} {b : UInt8} (hg : (consume w b).2 = some .good) :
    (consume w b).1.1.state = .expectingNewline3 := by
  obtain ⟨p, r⟩ := w
  cases hst : p.state <;> simp only [consume, hst, expect, addToName, addToValue] at hg ⊢
  case httpVersionMajor =>
    cases hd : boundedAddDigit p.versionMajor (b.toUInt32 - 48) maxVersion.1 <;>
      simp only [hd] at hg <;> split_ifs at hg <;> simp at hg
  case httpVersionMinor =>
    cases hd : boundedAddDigit p.versionMinor (b.toUInt32 - 48)
      (if p.versionMajor = maxVersion.1 then maxVersion.2 else 4294967295) <;>
      simp only [hd] at hg <;> split_ifs at hg <;> simp at hg
  all_goals (try split_ifs at hg) <;> simp_all

theorem runReads_good {reads : List (List UInt8)} : ∀ {w v : Work} {rest : List (List UInt8)},
    consumer.runReads w reads = (v, some .good, rest) → v.1.state = .expectingNewline3 := by
  have hrun : ∀ {bytes rest : List UInt8} {w v : Work},
      consumer.run w bytes = (v, some .good, rest) → v.1.state = .expectingNewline3 := by
    intro bytes
    induction bytes with
    | nil => intro rest w v hr; simp at hr
    | cons b bytes ih =>
      intro rest w v hr
      rcases hc : consume w b with ⟨u, _ | o⟩
      · exact ih (Consumer.run_cons_of_none (C := consumer) hc ▸ hr)
      · rw [Consumer.run_cons_of_some (C := consumer) hc] at hr
        obtain ⟨rfl, ho, -⟩ := by simpa using hr
        have := consume_good (w := w) (b := b) (by rw [hc, ho])
        rwa [hc] at this
  induction reads with
  | nil => intro w v rest hr; simp [Consumer.runReads] at hr
  | cons bytes reads ih =>
    intro w v rest hr
    rcases hc : consumer.run w bytes with ⟨u, _ | o, rest'⟩
    · exact ih (Consumer.runReads_cons_of_none hc ▸ hr)
    · rw [Consumer.runReads_cons_of_some hc] at hr
      obtain ⟨rfl, rfl, -⟩ := by simpa using hr
      exact hrun hc

end HttpRequestParser

end Wsddn
