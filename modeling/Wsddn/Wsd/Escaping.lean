import Mathlib.Data.List.TakeWhile
import Wsddn.Wsd.Metadata

/-!
# The expanded metadata on its way to the client (`XmlNode::setContent` of `xml_wrapper.h`)

The content of a text node is plain text: serializing the answer escapes it and the client's parser
takes the escapes away again.  `setContent` however encodes what it is given before it stores it, so
what was expanded is escaped twice; and it takes a C string, which ends at the first null byte.  A
text without a `$` is never set.

* `Libxml2` : what is relied on of libxml2, for one tree.
* `replaceInString_eq_expand` : the text that is set, from the pieces of the template.
* `receivedContent_iff` : the client gets the text that was meant exactly if nothing that goes into
  it has a special character or a null byte.
-/

namespace Wsddn

open SysString

/-- The characters that `xmlEncodeSpecialChars` replaces: `&`, `<`, `>`, `"` and CR. -/
def specialChars : List UInt8 := [38, 60, 62, 34, 13]

/-- `&name;`. -/
def charReference (name : SysString) : SysString := 38 :: (name ++ [59])

/-- **What is relied on of libxml2**, for an answer that holds a tree. -/
structure Libxml2 {P : Type*} {D : XmlDocument P} (T : XmlTree D) where
  /-- The name of the reference for a special character. -/
  name : UInt8 → SysString
  name_ne_nil : ∀ c ∈ specialChars, name c ≠ []
  /-- A name is part of a C string. -/
  zero_notMem_name : ∀ c ∈ specialChars, 0 ∉ name c
  xmlEncodeSpecialChars : SysString → SysString
  xmlEncodeSpecialChars_eq : ∀ s, xmlEncodeSpecialChars s =
    s.flatMap fun c => if c ∈ specialChars then charReference (name c) else [c]
  /-- The answer, from the contents of its nodes. -/
  serialize : (P → SysString) → SysString
  /-- The content that a client finds in the place of a node. -/
  parse : SysString → P → SysString
  parse_serialize : ∀ content, ∀ p ∈ T.textNodes, parse (serialize content) p = content p

namespace WSDResponseBuilder

variable {P : Type*} {D : XmlDocument P} {T : XmlTree D} (X : Libxml2 T)
  (toString : IpAddress → SysString) (data : ResponseToGet)

/-- The content that a client gets for a node of the template, of which `fill` has put a copy with
the contents `s` into the answer. -/
def receivedContent [DecidableEq P] (n : ℕ) (s : Contents P) (p : P) : Option SysString :=
  (replacePlaceholders X.xmlEncodeSpecialChars toString data D n T.root s).map fun s' =>
    X.parse (X.serialize s'.content) p

/-- The content that is meant. -/
def expandedText (t : SysString) : SysString :=
  if dollar ∈ t then replaceInString toString data t else t

/-- The pieces of a text that are written: a `$` that means nothing takes the next one with it. -/
def writtenPieces : List (Template.Piece UInt8 Placeholder) →
    List (Template.Piece UInt8 Placeholder)
  | [] => []
  | [.stray] => []
  | .stray :: _ :: ps => writtenPieces ps
  | p :: ps => p :: writtenPieces ps

/-- Nothing happens to a character on the way. -/
def PassesChar (c : UInt8) : Prop := c ∉ specialChars ∧ c ≠ 0

instance : DecidablePred PassesChar := fun _ => inferInstanceAs (Decidable (_ ∧ _))

/-- Nothing happens to what stands for the piece. -/
def PassesPiece : Template.Piece UInt8 Placeholder → Prop
  | .char c => PassesChar c
  | .escape => True
  | .keyword k => ∀ c ∈ valueOf toString data k, PassesChar c
  | .stray => True

/-- **Nothing that goes into a text is changed on the way**: the text has no `$`, or no character
that is copied and no value of a placeholder in it has a special character or a null byte. -/
def Unharmed (t : SysString) : Prop :=
  dollar ∉ t ∨ ∃ ps, (template toString data).Divides t ps ∧
    ∀ p ∈ writtenPieces ps, PassesPiece toString data p

variable {X toString data} {t w : SysString} {c : UInt8}

/-! ### The text that is set -/

/-- **The loop writes the pieces.** -/
theorem replaceInString_eq_expand {ps : List (Template.Piece UInt8 Placeholder)}
    (h : (template toString data).Divides t ps) :
    replaceInString toString data t = (template toString data).expand (writtenPieces ps) := by
  induction h with
  | nil => rfl
  | char hc _ ih =>
    rw [replaceInString_char hc, ih]
    rfl
  | escape _ ih =>
    refine replaceInString_dollars.trans ?_
    rw [ih]
    rfl
  | keyword k _ ih =>
    refine (replaceInString_keyword k).trans ?_
    rw [ih]
    rfl
  | @stray s ps hs hk h ih =>
    cases h with
    | nil => rfl
    | @char c s ps hc h =>
      refine (replaceInString_stray hc hk).trans ?_
      -- `ih` is about the text with the byte that is dropped
      rw [replaceInString_char hc] at ih
      exact (List.cons.inj ih).2
    | escape => exact absurd rfl hs
    | keyword => exact absurd rfl hs
    | stray => exact absurd rfl hs

theorem passesChar_dollar : PassesChar dollar := by decide

theorem forall_mem_expand_iff {ps : List (Template.Piece UInt8 Placeholder)} :
    (∀ c ∈ (template toString data).expand ps, PassesChar c) ↔
      ∀ p ∈ ps, PassesPiece toString data p := by
  simp only [Template.expand, List.mem_flatMap, forall_exists_index, and_imp]
  rw [forall_comm]
  refine forall_congr' fun p => ?_
  rw [forall_comm]
  refine forall_congr' fun hp => ?_
  cases p with
  | char c => simp [Template.expandPiece, PassesPiece]
  | escape => simp [Template.expandPiece, PassesPiece, template, passesChar_dollar]
  | keyword k => rfl
  | stray => simp [Template.expandPiece, PassesPiece]

/-! ### The text that arrives -/

theorem encode_cons (c : UInt8) (w : SysString) :
    X.xmlEncodeSpecialChars (c :: w) =
      (if c ∈ specialChars then charReference (X.name c) else [c]) ++
        X.xmlEncodeSpecialChars w := by
  rw [X.xmlEncodeSpecialChars_eq, X.xmlEncodeSpecialChars_eq, List.flatMap_cons]

theorem encode_nil : X.xmlEncodeSpecialChars [] = [] := X.xmlEncodeSpecialChars_eq []

theorem encode_of_passes (h : ∀ c ∈ w, PassesChar c) : X.xmlEncodeSpecialChars w = w := by
  induction w with
  | nil => exact encode_nil
  | cons c w ih =>
    obtain ⟨hc, hw⟩ := List.forall_mem_cons.1 h
    rw [encode_cons, if_neg hc.1, ih hw, List.singleton_append]

/-- Each reference is longer than its character. -/
theorem length_encode :
    w.length ≤ (X.xmlEncodeSpecialChars w).length ∧
      ((X.xmlEncodeSpecialChars w).length = w.length → ∀ c ∈ w, c ∉ specialChars) := by
  induction w with
  | nil => simp [encode_nil]
  | cons c w ih =>
    rw [encode_cons, List.length_append, List.length_cons, List.forall_mem_cons]
    by_cases hc : c ∈ specialChars
    · have hname : 0 < (X.name c).length := List.length_pos_iff.2 (X.name_ne_nil c hc)
      rw [if_pos hc, charReference, List.length_cons, List.length_append]
      exact ⟨by omega, fun h => by omega⟩
    · rw [if_neg hc, List.length_singleton]
      exact ⟨by omega, fun h => ⟨hc, ih.2 (by omega)⟩⟩

theorem zero_notMem_encode (h : 0 ∉ w) : 0 ∉ X.xmlEncodeSpecialChars w := by
  rw [X.xmlEncodeSpecialChars_eq, List.mem_flatMap]
  rintro ⟨c, hc, h0⟩
  split_ifs at h0 with hs
  · have := X.zero_notMem_name c hs
    simp [charReference, this] at h0
  · rw [List.mem_singleton] at h0
    exact h (h0 ▸ hc)

/-- A text is stored as it is exactly if it has no special character and no null byte. -/
theorem encode_takeWhile_eq_iff :
    X.xmlEncodeSpecialChars (w.takeWhile (· ≠ 0)) = w ↔ ∀ c ∈ w, PassesChar c := by
  constructor
  · intro h
    have htake : 0 ∉ w.takeWhile (· ≠ 0) := fun h0 => by
      simpa using List.mem_takeWhile_imp h0
    have hzero : 0 ∉ w := h ▸ zero_notMem_encode htake
    have hall : w.takeWhile (· ≠ 0) = w := by
      rw [List.takeWhile_eq_self_iff]
      intro c hc
      have h0 : c ≠ 0 := fun h0 => hzero (h0 ▸ hc)
      simpa using h0
    rw [hall] at h
    have hspecial := (length_encode (X := X) (w := w)).2 (congrArg List.length h)
    exact fun c hc => ⟨hspecial c hc, fun h0 => hzero (h0 ▸ hc)⟩
  · intro h
    have hall : w.takeWhile (· ≠ 0) = w := by
      rw [List.takeWhile_eq_self_iff]
      exact fun c hc => by simpa using (h c hc).2
    rw [hall, encode_of_passes h]

theorem unharmed_iff (hd : dollar ∈ t) :
    Unharmed toString data t ↔ ∀ c ∈ replaceInString toString data t, PassesChar c := by
  obtain ⟨ps, h⟩ := (template toString data).exists_divides t
  rw [replaceInString_eq_expand h, forall_mem_expand_iff]
  constructor
  · rintro (hn | ⟨ps', h', hps⟩)
    · exact absurd hd hn
    · rwa [h.unique h']
  · exact fun hps => .inr ⟨ps, h, hps⟩

/-- **What the client gets.**  For every text node of a template, under an element or an attribute,
it is the expanded text exactly if nothing that goes into it is changed on the way. -/
theorem receivedContent_iff [DecidableEq P]
    (X : Libxml2 T) (toString : IpAddress → SysString) (data : ResponseToGet) {n : ℕ}
    (hn : 2 * T.forest.size < n) (s : Contents P) {p : P} (hp : p ∈ T.textNodes) :
    receivedContent X toString data n s p = some (expandedText toString data (s.content p)) ↔
      Unharmed toString data (s.content p) := by
  rw [receivedContent, replacePlaceholders_eq_some T hn, Option.map_some, Option.some_inj,
    X.parse_serialize _ p hp, replaceRecursively_content, if_pos hp, expandedText, replacedContent]
  by_cases hd : dollar ∈ s.content p
  · rw [if_pos hd, if_neg (not_not_intro hd), encode_takeWhile_eq_iff, unharmed_iff hd]
  · rw [if_neg hd, if_pos hd]
    exact iff_of_true rfl (.inl hd)

/-! ### An answer with one text -/

/-- The names that libxml2 uses. -/
def referenceName (c : UInt8) : SysString :=
  if c = 38 then ofLiteral "amp"
  else if c = 60 then ofLiteral "lt"
  else if c = 62 then ofLiteral "gt"
  else if c = 34 then ofLiteral "quot"
  else ofLiteral "#13"

/-- The special characters are replaced by their references. -/
def escapeText (s : SysString) : SysString :=
  s.flatMap fun c => if c ∈ specialChars then charReference (referenceName c) else [c]

/-- A parser reads character data: `some` holds what has been read of the name of a reference. -/
def unescapeText : Option SysString → SysString → SysString
  | _, [] => []
  | none, c :: rest => if c = 38 then unescapeText (some []) rest else c :: unescapeText none rest
  | some name, c :: rest =>
    if c = 59 then
      (specialChars.filter fun d => referenceName d = name) ++ unescapeText none rest
    else unescapeText (some (name ++ [c])) rest

/-- For a list of bytes that is given. -/
theorem forall_mem_of_all {l : SysString} {Q : UInt8 → Prop} [DecidablePred Q]
    (h : l.all (Q ·) = true) : ∀ c ∈ l, Q c :=
  fun c hc => of_decide_eq_true (List.all_eq_true.1 h c hc)

theorem unescapeText_name {name acc rest : SysString} (h : 59 ∉ name) :
    unescapeText (some acc) (name ++ 59 :: rest) =
      (specialChars.filter fun d => referenceName d = acc ++ name) ++ unescapeText none rest := by
  induction name generalizing acc with
  | nil => simp [unescapeText]
  | cons c name ih =>
    have hc : c ≠ 59 := fun he => h (he ▸ List.mem_cons_self)
    rw [List.cons_append, unescapeText, if_neg hc,
      ih fun hm => h (List.mem_cons_of_mem _ hm), List.append_assoc, List.singleton_append]

theorem unescapeText_reference {rest : SysString} (hc : c ∈ specialChars) :
    unescapeText none (charReference (referenceName c) ++ rest) = c :: unescapeText none rest := by
  have hsemi : ∀ c ∈ specialChars, 59 ∉ referenceName c :=
    forall_mem_of_all (by decide)
  have hone : ∀ c ∈ specialChars,
      (specialChars.filter fun d => referenceName d = referenceName c) = [c] :=
    forall_mem_of_all (by decide)
  rw [charReference, List.cons_append, unescapeText, if_pos rfl, List.append_assoc,
    List.singleton_append, unescapeText_name (hsemi c hc), List.nil_append, hone c hc]
  rfl

theorem unescapeText_escapeText (s : SysString) : unescapeText none (escapeText s) = s := by
  induction s with
  | nil => rfl
  | cons c s ih =>
    rw [escapeText, List.flatMap_cons]
    split_ifs with hc
    · rw [unescapeText_reference hc]
      exact congrArg _ ih
    · have hamp : c ≠ 38 := fun he => hc (he ▸ List.mem_cons_self)
      rw [List.singleton_append, unescapeText, if_neg hamp]
      exact congrArg _ ih

theorem takeWhile_escapeText (s rest : SysString) :
    (escapeText s ++ 60 :: rest).takeWhile (· ≠ 60) = escapeText s := by
  have hname : ∀ c ∈ specialChars, 60 ∉ charReference (referenceName c) :=
    forall_mem_of_all (by decide)
  have h : ∀ d ∈ escapeText s, d ≠ 60 := by
    intro d hd he
    obtain ⟨c, -, hc⟩ := List.mem_flatMap.1 hd
    split_ifs at hc with hs
    · exact hname c hs (he ▸ hc)
    · rw [List.mem_singleton.1 hc] at he
      exact hs (he ▸ by decide)
  rw [List.takeWhile_append_of_pos (fun d hd => by simpa using h d hd)]
  simp

/-- A template with one text: `<m>..</m>`. -/
def oneTextDocument : XmlDocument ℕ where
  links := {
    firstChild := fun | 0 => some 1 | _ => none
    firstProperty := fun _ => none
    nextSibling := fun _ => none
    parent := fun | 1 => some 0 | _ => none }
  type := fun | 1 => .text | _ => .element

/-- The document of the example as a tree. -/
def oneText : XmlTree oneTextDocument where
  root := 0
  properties := .nil
  children := .node 1 .nil .nil .nil
  firstProperty_root := rfl
  firstChild_root := rfl
  consistent_properties := ⟨trivial, by decide, by decide, by decide⟩
  consistent_children := ⟨by simp [Links.Represents, oneTextDocument, Forest.head],
    by decide, by decide, by decide⟩
  nodup := by decide
  isAttr := by decide
  noProperties := by decide

/-- libxml2 for it. -/
def oneTextLibxml2 : Libxml2 oneText where
  name := referenceName
  name_ne_nil := forall_mem_of_all (by decide)
  zero_notMem_name := forall_mem_of_all (by decide)
  xmlEncodeSpecialChars := escapeText
  xmlEncodeSpecialChars_eq _ := rfl
  serialize content := ofLiteral "<m>" ++ (escapeText (content 1) ++ ofLiteral "</m>")
  parse answer _ := unescapeText none ((answer.drop 3).takeWhile (· ≠ 60))
  parse_serialize content p hp := by
    have hone : oneText.textNodes = [1] := by decide
    obtain rfl : p = 1 := List.mem_singleton.1 (hone ▸ hp)
    exact (congrArg _ (takeWhile_escapeText _ _)).trans (unescapeText_escapeText _)

/-- The name of a host, for the examples. -/
def namedHost (friendlyName : String) : ResponseToGet :=
  { aHost with friendlyName := ofLiteral friendlyName }

/-- A host whose name has no special character. -/
theorem receivedContent_plainName :
    receivedContent oneTextLibxml2 dotted (namedHost "R and D") 5
        ⟨fun _ => ofLiteral "$SMB_HOST_DESCRIPTION", []⟩ 1 =
      some (expandedText dotted (namedHost "R and D") (ofLiteral "$SMB_HOST_DESCRIPTION")) := by
  refine (receivedContent_iff oneTextLibxml2 dotted (namedHost "R and D") (n := 5) (by decide)
    ⟨fun _ => ofLiteral "$SMB_HOST_DESCRIPTION", []⟩ (p := 1) (by decide)).2 ?_
  refine .inr ⟨_, Template.Divides.keyword (T := template dotted (namedHost "R and D")) (s := [])
    Placeholder.smbHostDescription .nil, ?_⟩
  exact List.forall_mem_singleton.2 (forall_mem_of_all (by decide))

/-- The name of a host reaches the client with the escape in it. -/
theorem ampersand_escaped_twice :
    receivedContent oneTextLibxml2 dotted (namedHost "R&D") 5
        ⟨fun _ => ofLiteral "$SMB_HOST_DESCRIPTION", []⟩ 1 = some (ofLiteral "R&amp;D") ∧
      expandedText dotted (namedHost "R&D") (ofLiteral "$SMB_HOST_DESCRIPTION") =
        ofLiteral "R&D" ∧
      receivedContent oneTextLibxml2 dotted (namedHost "R&D") 5
        ⟨fun _ => ofLiteral "$SMB_HOST_DESCRIPTION", []⟩ 1 ≠
          some (expandedText dotted (namedHost "R&D") (ofLiteral "$SMB_HOST_DESCRIPTION")) := by
  decide +kernel

end WSDResponseBuilder

end Wsddn
