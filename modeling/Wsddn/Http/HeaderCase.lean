import Mathlib.Data.List.Forall2
import Wsddn.Http.Connection
import Wsddn.Http.Grammar

/-!
# The case of header field names (`http_request.cpp`, `HttpConnection::parseHeader`)

The fields of a request are found by their names, which are compared byte by byte.  The case of a
name therefore matters exactly where it makes the name one that is looked up, or makes it another.

* `caseVariant` : two requests differ in the case of field names only.
* `run_similar` : the parser reads them alike.
* `parseHeader_of_spelling` : **the same decision** if in addition the same fields are spelled
  `Content-Length`, `Content-Type` and `Connection`; and two fields spelled `Content-Length` are
  refused.
* `case_matters` : without this a length is missed, or only one of two is seen.
-/

namespace Wsddn

open SysString

/-- A letter in lower case. -/
def lower (b : UInt8) : UInt8 := if 65 ≤ b && b ≤ 90 then b + 32 else b

/-- The same name, but for the case of its letters. -/
def SameName (n n' : SysString) : Prop := n.map lower = n'.map lower

/-- The same fields, but for the case of their names. -/
def SameFields : List (SysString × SysString) → List (SysString × SysString) → Prop :=
  List.Forall₂ fun h h' => SameName h.1 h'.1 ∧ h.2 = h'.2

/-- The names that are looked up. -/
def lookedUp : List SysString :=
  [ofLiteral "Content-Length", ofLiteral "Content-Type", ofLiteral "Connection"]

/-- The same fields have a name that is looked up. -/
def SameSpelling : List (SysString × SysString) → List (SysString × SysString) → Prop :=
  List.Forall₂ fun h h' => ∀ n ∈ lookedUp, h.1 = n ↔ h'.1 = n

instance (hs hs' : List (SysString × SysString)) : Decidable (SameSpelling hs hs') :=
  inferInstanceAs (Decidable (List.Forall₂ _ hs hs'))

namespace HttpRequest

variable {req req' : HttpRequest} {n : SysString}

theorem equalRange_of_spelling (hf : SameFields req.headers req'.headers)
    (hs : SameSpelling req.headers req'.headers) (hn : n ∈ lookedUp) :
    req.equalRange n = req'.equalRange n := by
  unfold equalRange
  generalize req.headers = hs₁, req'.headers = hs₂ at hf hs
  induction hf with
  | nil => rfl
  | @cons h h' hs₁ hs₂ hh _ ih =>
    obtain ⟨hspell, hs⟩ := List.forall₂_cons.1 hs
    by_cases hname : h.1 = n
    · have hname' : h'.1 = n := (hspell n hn).1 hname
      simp [hname, hname', hh.2, ih hs]
    · have hname' : ¬ h'.1 = n := fun he => hname ((hspell n hn).2 he)
      simp [hname, hname', ih hs]

theorem answers_of_spelling (hf : SameFields req.headers req'.headers)
    (hs : SameSpelling req.headers req'.headers) :
    req.getContentLength = req'.getContentLength ∧
      req.getContentType = req'.getContentType ∧ req.getKeepAlive = req'.getKeepAlive := by
  have heq : ∀ n ∈ lookedUp, req.equalRange n = req'.equalRange n :=
    fun n hn => equalRange_of_spelling hf hs hn
  simp only [lookedUp, List.forall_mem_cons] at heq
  obtain ⟨hl, ht, hc, -⟩ := heq
  simp only [getContentLength, getContentType, getKeepAlive, getUniqueHeader, getHeaderList,
    hl, ht, hc, and_self]

end HttpRequest

namespace HttpRequestParser

open SysStringBuilder

/-- The states in which a byte can belong to a field name. -/
def inName : ParserState → Bool
  | .headerLineStart | .headerName => true
  | _ => false

/-- The bytes differ in the case of field names only, from where the parser `w` is. -/
def caseVariant : Work → List UInt8 → List UInt8 → Bool
  | _, [], [] => true
  | w, b :: bs, b' :: bs' =>
    (b = b' || inName w.1.state && lower b = lower b') &&
      match consume w b with
      | (w, none) => caseVariant w bs bs'
      | (_, some _) => bs = bs'
  | _, _, _ => false

/-- The same parser, but for the case of the names that it has read. -/
structure Similar (w w' : Work) : Prop where
  parser : w'.1 = { w.1 with headerNameBuilder := w'.1.headerNameBuilder }
  name : SameName w.1.headerNameBuilder w'.1.headerNameBuilder
  request : w'.2 = { w.2 with headers := w'.2.headers }
  headers : SameFields w.2.headers w'.2.headers

theorem Similar.refl (w : Work) : Similar w w :=
  ⟨rfl, rfl, rfl, List.forall₂_same.2 fun _ _ => ⟨rfl, rfl⟩⟩

variable {w w' : Work} {b b' : UInt8}

theorem sameName_append {n n' : SysStringBuilder} (hn : SameName n n') (hb : lower b = lower b')
    (hlt : b < 128) (hlt' : b' < 128) : SameName (append n b) (append n' b') := by
  have hn : n.map lower = n'.map lower := hn
  simp [SameName, append, hlt, hlt', hn, hb]

theorem isToken_of_lower (h : lower b = lower b') (hne : b ≠ b') :
    isToken b = true ∧ isToken b' = true := by
  have hletters : ∀ n < 256, 65 ≤ UInt8.ofNat n && UInt8.ofNat n ≤ 90 →
      isToken (UInt8.ofNat n) = true ∧ isToken (UInt8.ofNat n + 32) = true := by
    decide +kernel
  have hletter : ∀ c : UInt8, 65 ≤ c && c ≤ 90 → isToken c = true ∧ isToken (c + 32) = true := by
    intro c hc
    have := hletters c.toNat c.toNat_lt
    rw [UInt8.ofNat_toNat] at this
    exact this hc
  unfold lower at h
  split_ifs at h with hb hb' hb'
  · exact absurd ((UInt8.add_left_inj 32).1 h) hne
  · exact h ▸ hletter b hb
  · exact (h ▸ hletter b' hb').symm
  · exact absurd h hne

/-- **One byte** does the same. -/
theorem consume_similar (h : Similar w w') (b : UInt8) :
    Similar (consume w b).1 (consume w' b).1 ∧ (consume w b).2 = (consume w' b).2 := by
  obtain ⟨⟨state, method, uri, major, minor, name, value, size⟩, r⟩ := w
  obtain ⟨p', r'⟩ := w'
  obtain ⟨hp, hn, hr, hh⟩ := h
  simp only at hp hn hr hh
  generalize p'.headerNameBuilder = name' at hp hn
  generalize r'.headers = headers at hr hh
  subst hp hr
  cases state <;> simp only [consume, expect, addToName, addToValue]
  case headerLineStart =>
    split_ifs with h13 hblank htoken
    · exact ⟨⟨rfl, hn, rfl, hh⟩, rfl⟩
    · exact ⟨⟨rfl, hn, rfl, hh⟩, rfl⟩
    · exact ⟨⟨rfl, hn, rfl, hh⟩, rfl⟩
    · exact ⟨⟨rfl, hn, rfl, hh⟩, rfl⟩
    · have hlt := lt_of_isToken (b := b) (by simpa using htoken)
      exact ⟨⟨rfl, sameName_append hn rfl hlt hlt, rfl, hh⟩, rfl⟩
  case headerName =>
    split_ifs with h58 htoken
    · exact ⟨⟨rfl, hn, rfl, hh⟩, rfl⟩
    · exact ⟨⟨rfl, hn, rfl, hh⟩, rfl⟩
    · exact ⟨⟨rfl, hn, rfl, hh⟩, rfl⟩
    · have hlt := lt_of_isToken (b := b) (by simpa using htoken)
      exact ⟨⟨rfl, sameName_append hn rfl hlt hlt, rfl, hh⟩, rfl⟩
  case httpVersionMajor =>
    cases boundedAddDigit major (b.toUInt32 - 48) maxVersion.1 <;> split_ifs <;>
      exact ⟨⟨rfl, hn, rfl, hh⟩, rfl⟩
  case httpVersionMinor =>
    cases boundedAddDigit minor (b.toUInt32 - 48)
      (if major = maxVersion.1 then maxVersion.2 else 4294967295) <;> split_ifs <;>
      exact ⟨⟨rfl, hn, rfl, hh⟩, rfl⟩
  case expectingNewline2 =>
    split_ifs
    · -- the field is stored with its name
      refine ⟨⟨rfl, rfl, rfl, ?_⟩, rfl⟩
      exact List.rel_append hh (.cons ⟨hn, rfl⟩ .nil)
    · exact ⟨⟨rfl, hn, rfl, hh⟩, rfl⟩
  case expectingNewline3 => exact ⟨⟨rfl, hn, rfl, hh⟩, trivial⟩
  all_goals
    split_ifs <;> exact ⟨⟨rfl, hn, rfl, hh⟩, rfl⟩

theorem consume_letter (h : Similar w w') (hin : inName w.1.state = true)
    (hb : lower b = lower b') (hne : b ≠ b') :
    Similar (consume w b).1 (consume w' b').1 ∧ (consume w b).2 = (consume w' b').2 := by
  obtain ⟨ht, ht'⟩ := isToken_of_lower hb hne
  have hlt := lt_of_isToken ht
  have hlt' := lt_of_isToken ht'
  obtain ⟨⟨state, method, uri, major, minor, name, value, size⟩, r⟩ := w
  obtain ⟨p', r'⟩ := w'
  obtain ⟨hp, hn, hr, hh⟩ := h
  simp only at hp hn hr hh hin
  generalize p'.headerNameBuilder = name' at hp hn
  generalize r'.headers = headers at hr hh
  subst hp hr
  have hstart : ∀ {c : UInt8}, isToken c = true → c ≠ 13 ∧ c ≠ 32 ∧ c ≠ 9 ∧ c ≠ 58 :=
    fun hc => ⟨ne_of_isToken hc (by decide), ne_of_isToken hc (by decide),
      ne_of_isToken hc (by decide), ne_of_isToken hc (by decide)⟩
  cases state <;> simp only [inName, Bool.false_eq_true] at hin <;>
    simp only [consume, addToName, hstart ht, hstart ht', ht, ht', or_self, and_false,
      Bool.not_true, Bool.false_eq_true, if_false] <;> split_ifs
  · exact ⟨⟨rfl, hn, rfl, hh⟩, rfl⟩
  · exact ⟨⟨rfl, sameName_append hn hb hlt hlt', rfl, hh⟩, rfl⟩
  · exact ⟨⟨rfl, hn, rfl, hh⟩, rfl⟩
  · exact ⟨⟨rfl, sameName_append hn hb hlt hlt', rfl, hh⟩, rfl⟩

/-- **Requests that differ in the case of field names are read alike**: the parser stops at the same
place with the same result. -/
theorem run_similar : ∀ {bytes bytes' : List UInt8} {w w' : Work}, Similar w w' →
    caseVariant w bytes bytes' = true →
      Similar (consumer.run w bytes).1 (consumer.run w' bytes').1 ∧
        (consumer.run w bytes).2 = (consumer.run w' bytes').2 := by
  intro bytes
  induction bytes with
  | nil =>
    intro bytes' w w' h hv
    cases bytes' with
    | nil => exact ⟨h, rfl⟩
    | cons => cases hv
  | cons b bytes ih =>
    intro bytes' w w' h hv
    cases bytes' with
    | nil => cases hv
    | cons b' bytes' =>
      simp only [caseVariant, Bool.and_eq_true, Bool.or_eq_true, decide_eq_true_eq] at hv
      obtain ⟨hb, hrest⟩ := hv
      obtain ⟨hw, hr⟩ : Similar (consume w b).1 (consume w' b').1 ∧
          (consume w b).2 = (consume w' b').2 := by
        by_cases heq : b = b'
        · exact heq ▸ consume_similar h b
        · obtain ⟨hin, hb⟩ := hb.resolve_left heq
          exact consume_letter h hin hb heq
      rcases hc : consume w b with ⟨v, o⟩
      rcases hc' : consume w' b' with ⟨v', o'⟩
      rw [hc, hc'] at hw hr
      simp only at hw hr
      subst hr
      rw [hc] at hrest
      cases o with
      | none =>
        rw [Consumer.run_cons_of_none (C := consumer) hc,
          Consumer.run_cons_of_none (C := consumer) hc']
        exact ih hw hrest
      | some r =>
        simp only [decide_eq_true_eq] at hrest
        subst hrest
        rw [Consumer.run_cons_of_some (C := consumer) hc,
          Consumer.run_cons_of_some (C := consumer) hc']
        exact ⟨hw, rfl⟩

end HttpRequestParser

namespace HttpConnection

open HttpRequestParser HttpResponse

variable {Ctx Doc Reply σ : Type*} (E : HttpEnv Ctx Doc Reply σ)

/-- The same connection, but for the case of the field names that it has read. -/
structure Alike (c c' : HttpConnection Ctx Reply) : Prop where
  read : Similar (c.headerParser, c.request) (c'.headerParser, c'.request)
  conn : c' = { c with headerParser := c'.headerParser, request := c'.request }

theorem Alike.refl (c : HttpConnection Ctx Reply) : Alike c c := ⟨.refl _, rfl⟩

/-- The request after a piece of its head. -/
def requestAfter (c : HttpConnection Ctx Reply) (bytes : List UInt8) : HttpRequest :=
  (c.headerParser.parse c.request bytes).1.2

/-- **The same decision** on two requests that differ in the case of field names, if the same fields
are spelled as the names that are looked up; a request with two fields spelled `Content-Length` is
refused. -/
theorem parseHeader_of_spelling :
    (∀ (c c' : HttpConnection Ctx Reply) (bytes bytes' : List UInt8), Alike c c' →
      caseVariant (c.headerParser, c.request) bytes bytes' = true →
      SameSpelling (requestAfter c bytes).headers (requestAfter c' bytes').headers →
      Alike (parseHeader E c bytes).2.1 (parseHeader E c' bytes').2.1 ∧
        (parseHeader E c bytes).1 = (parseHeader E c' bytes').1 ∧
        (parseHeader E c bytes).2.2 = (parseHeader E c' bytes').2.2) ∧
    (∀ (c : HttpConnection Ctx Reply) (bytes : List UInt8),
      (c.headerParser.parse c.request bytes).2.1 = some .good →
      2 ≤ ((requestAfter c bytes).equalRange (ofLiteral "Content-Length")).length →
      (parseHeader E c bytes).1 = .error ∧
        (Addressed E.httpPath (requestAfter c bytes) →
          (parseHeader E c bytes).2.1.response = makeStockResponse .badRequest)) := by
  refine ⟨fun c c' bytes bytes' hc hv hs => ?_, fun c bytes hgood htwo => ?_⟩
  · obtain ⟨hw, hr⟩ := run_similar hc.read hv
    have hconn := hc.conn
    unfold requestAfter at hs
    rcases hp : c.headerParser.parse c.request bytes with ⟨⟨p, req⟩, o, rest⟩
    rcases hp' : c'.headerParser.parse c'.request bytes' with ⟨⟨p', req'⟩, o', rest'⟩
    rw [hp, hp'] at hs
    replace hw : Similar (c.headerParser.parse c.request bytes).1
        (c'.headerParser.parse c'.request bytes').1 := hw
    replace hr : (c.headerParser.parse c.request bytes).2 =
        (c'.headerParser.parse c'.request bytes').2 := hr
    rw [hp, hp'] at hw hr
    obtain ⟨rfl, rfl⟩ := Prod.mk.inj hr
    generalize c'.headerParser = q, c'.request = r at hconn
    subst hconn
    cases o with
    | none =>
      rw [parseHeader_of_none hp, parseHeader_of_none hp']
      exact ⟨⟨hw, rfl⟩, rfl, rfl⟩
    | some o =>
      cases o with
      | bad =>
        rw [parseHeader_of_bad hp, parseHeader_of_bad hp']
        exact ⟨⟨hw, rfl⟩, rfl, rfl⟩
      | good =>
        obtain ⟨hlength, htype, hkeep⟩ := HttpRequest.answers_of_spelling hw.headers hs
        have haddr : Addressed E.httpPath req' ↔ Addressed E.httpPath req := by
          have hreq : req' = { req with headers := req'.headers } := hw.request
          rw [hreq]
          exact Iff.rfl
        have hcharset : contentCharset req' = contentCharset req := by
          simp only [contentCharset, htype]
        have hreset : Similar (p.reset, req) (p'.reset, req') :=
          ⟨rfl, rfl, hw.request, hw.headers⟩
        simp only [parseHeader, hp, hp', haddr, hcharset, ← hlength, ← hkeep]
        rcases req.getContentLength with _ | _ | n <;> cases contentCharset req <;>
          dsimp only <;> split_ifs <;>
            first | exact ⟨⟨hw, rfl⟩, rfl, rfl⟩ | exact ⟨⟨hreset, rfl⟩, rfl, rfl⟩
  · unfold requestAfter at htwo ⊢
    rcases hp : c.headerParser.parse c.request bytes with ⟨⟨p, req⟩, o, rest⟩
    simp only [hp] at hgood htwo ⊢
    subst hgood
    obtain ⟨status, hstatus⟩ : ∃ status, checkRequest E.httpPath req = .error status := by
      rcases hc : checkRequest E.httpPath req with status | plan
      · exact ⟨status, rfl⟩
      · have := HttpRequest.length_eq_one_of_getContentLength (checkRequest_eq_ok.1 hc).2.1
        omega
    obtain ⟨c', hc', hresp⟩ := parseHeader_of_error hp hstatus
    rw [hc']
    refine ⟨rfl, fun ha => ?_⟩
    rw [hresp, checkRequest_error hstatus ha]

/-- A daemon at the path `u`, whose requests have no body. -/
def bareEnv : HttpEnv Unit Unit Unit Unit where
  httpPath := ofLiteral "u"
  xml := ⟨fun _ => (), fun _ _ _ => some (), fun _ => true, fun _ => ()⟩
  handleHttpRequest := fun _ _ => (some (), ())

theorem parseHeader_of_xA :
    ((parseHeader bareEnv {} (ofLiteral "POST /u HTTP/1.1\r\nX-A: 1\r\n\r\n")).1 =
        (parseHeader bareEnv {} (ofLiteral "POST /u HTTP/1.1\r\nx-a: 1\r\n\r\n")).1) ∧
      (parseHeader bareEnv {} (ofLiteral
        "POST /u HTTP/1.1\r\nContent-Length: 0\r\nContent-Length: 0\r\n\r\n")).1 = .error :=
  ⟨((parseHeader_of_spelling bareEnv).1 {} {} _ _ (.refl _) (by decide +kernel)
      (by decide +kernel)).2.1,
    ((parseHeader_of_spelling bareEnv).2 {} _ (by decide +kernel) (by decide +kernel)).1⟩

/-- A length whose name is in lower case is missed, and does not make two of one. -/
theorem case_matters :
    (caseVariant ({}, {}) (ofLiteral "POST /u HTTP/1.1\r\nContent-Length: 0\r\n\r\n")
        (ofLiteral "POST /u HTTP/1.1\r\ncontent-length: 0\r\n\r\n") = true ∧
      (parseHeader bareEnv {}
        (ofLiteral "POST /u HTTP/1.1\r\nContent-Length: 0\r\n\r\n")).1 = .continue ∧
      (parseHeader bareEnv {}
        (ofLiteral "POST /u HTTP/1.1\r\ncontent-length: 0\r\n\r\n")).1 = .error) ∧
    (parseHeader bareEnv {} (ofLiteral
      "POST /u HTTP/1.1\r\nContent-Length: 0\r\ncontent-length: 1\r\n\r\n")).1 = .continue := by
  refine ⟨⟨?_, ?_, ?_⟩, ?_⟩ <;> decide +kernel

end HttpConnection

end Wsddn
