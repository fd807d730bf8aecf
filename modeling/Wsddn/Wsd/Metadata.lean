import Wsddn.Container.LinkedTree
import Wsddn.Wsd.Placeholders

/-!
# The metadata template (`WSDResponseBuilder::replacePlaceholders` of `wsd_server.cpp`)

The answer to a `Get` holds a copy of the user's template, in which the text nodes are expanded,
those under the attributes of the elements among them.
`replacePlaceholdersInSelfSiblingsAndChildren` goes through the copy by the pointers of its nodes;
`replacePlaceholdersInSelf` handles a text node, and for an element goes through each of its
attributes in the same way.

* `XmlTree` : a tree whose pointers are consistent.
* `replacePlaceholders_eq_recursion` : on such a tree the functions return, and they do what the
  recursion over node, attributes and children does: the replacement, once in every text node, and
  nothing anywhere else.
-/

namespace Wsddn

open SysString

/-- `xmlElementType`, as far as the types are told apart. -/
inductive NodeType where
  | element
  | attr
  | text
  | other
  deriving DecidableEq, Repr

/-- The nodes of a document, named by their addresses: how they are linked, and what they are. -/
structure XmlDocument (P : Type*) where
  links : Links P
  type : P → NodeType

/-- What changes in a document. -/
structure Contents (P : Type*) where
  /-- The content of a node, as `getContent` returns it. -/
  content : P → SysString
  /-- The text nodes that the replacement was applied to, the last one in front.  The source keeps
  no such list. -/
  handled : List P

namespace WSDResponseBuilder

-- `xmlEncodeSpecialChars` is a function of libxml2
variable {P : Type*} [DecidableEq P] (xmlEncodeSpecialChars : SysString → SysString)
  (toString : IpAddress → SysString) (data : ResponseToGet) (D : XmlDocument P)

/-- `XmlNode::setContent` on a text node.  The argument is a C string, and ends at the first null
byte. -/
def setContent (node : P) (content : SysString) (s : Contents P) : Contents P :=
  let encoded := xmlEncodeSpecialChars (content.takeWhile (· ≠ 0))
  { s with content := Function.update s.content node encoded }

/-- `replacePlaceholdersInSelf` on a text node. -/
def replaceInTextNode (node : P) (s : Contents P) : Contents P :=
  match replacePlaceholdersInText toString data (s.content node) with
  | none => { s with handled := node :: s.handled }
  | some replaced =>
    setContent xmlEncodeSpecialChars node replaced { s with handled := node :: s.handled }

/-- The `while` of `replacePlaceholdersInSelfSiblingsAndChildren`, for any `visit` of a node. -/
def walkFrom (visit : P → Contents P → Option (Contents P)) (n : ℕ) (node : P) (s : Contents P) :
    Option (Contents P) :=
  D.links.walk visit (D.links.parent node) n (some node) false s

/-- The `for` over the properties of an element. -/
def forProperties (walk : P → Contents P → Option (Contents P)) :
    ℕ → Option P → Contents P → Option (Contents P)
  | 0, _, _ => none
  | _ + 1, none, s => some s
  | n + 1, some prop, s =>
    match D.links.firstChild prop with
    | none => forProperties walk n (D.links.nextSibling prop) s
    | some child =>
      match walk child s with
      | none => none
      | some s => forProperties walk n (D.links.nextSibling prop) s

/-- `replacePlaceholdersInSelf`; `none` if it follows a null pointer or does not return within `n`
rounds of a loop or nested calls. -/
def replacePlaceholdersInSelf : ℕ → P → Contents P → Option (Contents P)
  | 0, _, _ => none
  | n + 1, node, s =>
    match D.type node with
    | .text => some (replaceInTextNode xmlEncodeSpecialChars toString data node s)
    | .element =>
      forProperties D (walkFrom D (replacePlaceholdersInSelf n) n) n (D.links.firstProperty node) s
    | .attr => some s
    | .other => some s

/-- The walk over a node, those behind it and those below them. -/
def replacePlaceholdersInSelfSiblingsAndChildren (n : ℕ) (node : P) (s : Contents P) :
    Option (Contents P) :=
  walkFrom D (replacePlaceholdersInSelf xmlEncodeSpecialChars toString data D n) n node s

/-- The walk over a template, from its root. -/
def replacePlaceholders (n : ℕ) (node : P) (s : Contents P) : Option (Contents P) :=
  match replacePlaceholdersInSelf xmlEncodeSpecialChars toString data D n node s with
  | none => none
  | some s =>
    match D.links.firstChild node with
    | none => some s
    | some child =>
      replacePlaceholdersInSelfSiblingsAndChildren xmlEncodeSpecialChars toString data D n child s

end WSDResponseBuilder

/-! ### Consistent trees -/

namespace XmlDocument

variable {P : Type*} (D : XmlDocument P)

/-- A list of trees in a document: the pointers agree with it, no node occurs twice, and the lists
of properties hold attributes and belong to elements. -/
structure Consistent (parent : P) (F : Forest P) : Prop where
  represents : D.links.Represents parent F
  nodup : F.nodes.Nodup
  isAttr : ∀ p ∈ F.propertyNodes, D.type p = .attr
  noProperties : ∀ p ∈ F.nodes, D.type p ≠ .element → D.links.firstProperty p = none

variable {D} {parent p : P} {properties children siblings : Forest P}

/-- The lists below a node and the rest of its own list. -/
theorem Consistent.node
    (h : D.Consistent parent (.node p properties children siblings)) :
    D.Consistent p properties ∧ D.Consistent p children ∧ D.Consistent parent siblings := by
  obtain ⟨⟨-, -, -, -, hRp, hRc, hRs⟩, hnodup, hattr, hnone⟩ := h
  simp only [Forest.nodes, List.nodup_cons, List.nodup_append] at hnodup
  obtain ⟨-, hp, ⟨hc, hs, -⟩, -⟩ := hnodup
  refine ⟨⟨hRp, hp, fun q hq => hattr q ?_, fun q hq => hnone q ?_⟩,
    ⟨hRc, hc, fun q hq => hattr q ?_, fun q hq => hnone q ?_⟩,
    ⟨hRs, hs, fun q hq => hattr q ?_, fun q hq => hnone q ?_⟩⟩ <;>
  simp [Forest.propertyNodes, Forest.nodes, hq]

theorem notMem_of_nodup (h : (Forest.node p properties children siblings).nodes.Nodup) :
    p ∉ children.nodes := by
  simp only [Forest.nodes, List.nodup_cons, List.mem_append, not_or] at h
  exact h.1.2.1

end XmlDocument

/-- **A finite tree of a document**, with consistent links. -/
structure XmlTree {P : Type*} (D : XmlDocument P) where
  root : P
  properties : Forest P
  children : Forest P
  firstProperty_root : D.links.firstProperty root = properties.head
  firstChild_root : D.links.firstChild root = children.head
  consistent_properties : D.Consistent root properties
  consistent_children : D.Consistent root children
  /-- The root, its properties and its children have no node in common. -/
  nodup : (Forest.node root properties children .nil).nodes.Nodup
  isAttr : ∀ p ∈ properties.roots, D.type p = .attr
  noProperties : D.type root ≠ .element → properties.head = none

namespace XmlTree

variable {P : Type*} {D : XmlDocument P} (T : XmlTree D)

/-- The tree as a list of one tree. -/
def forest : Forest P := .node T.root T.properties T.children .nil

/-- The text nodes of the tree, in document order. -/
def textNodes : List P := T.forest.nodes.filter fun p => D.type p = .text

end XmlTree

namespace WSDResponseBuilder

variable {P : Type*} [DecidableEq P] (xmlEncodeSpecialChars : SysString → SysString)
  (toString : IpAddress → SysString) (data : ResponseToGet) (D : XmlDocument P)

/-- What is done with one node: the replacement if it is a text node. -/
def replaceNode (node : P) (s : Contents P) : Contents P :=
  if D.type node = .text then replaceInTextNode xmlEncodeSpecialChars toString data node s else s

/-- **The recursion over node, attributes and children.** -/
def replaceRecursively (T : XmlTree D) (s : Contents P) : Contents P :=
  T.forest.run (replaceNode xmlEncodeSpecialChars toString data D) s

/-- The content of a text node that had the content `t`. -/
def replacedContent (t : SysString) : SysString :=
  if dollar ∉ t then t
  else xmlEncodeSpecialChars ((replaceInString toString data t).takeWhile (· ≠ 0))

variable {xmlEncodeSpecialChars toString data D} {parent node : P} {F : Forest P} {s : Contents P}

theorem replaceNode_of_ne (h : D.type node ≠ .text) :
    replaceNode xmlEncodeSpecialChars toString data D node s = s := if_neg h

/-! ### The functions and the recursion -/

/-- The walk from a first child. -/
theorem walkFrom_eq_run {visit : P → Contents P → Option (Contents P)} {m : ℕ} {c : P}
    (hF : D.Consistent parent F) (hparent : parent ∉ F.nodes)
    (hV : F.Visited visit (replaceNode xmlEncodeSpecialChars toString data D))
    (hc : F.head = some c) (hm : 2 * F.size ≤ m) :
    walkFrom D visit m c s =
      some (F.run (replaceNode xmlEncodeSpecialChars toString data D) s) := by
  have hfirst : D.links.parent c = some parent := by
    cases F with
    | nil => cases hc
    | node =>
      cases hc
      exact hF.represents.1
  rw [walkFrom, hfirst, ← hc]
  exact Links.walk_eq_run hF.represents hV hparent (by simp [hc]) hm s

theorem forProperties_eq_run {visit : P → Contents P → Option (Contents P)} {k m : ℕ}
    (hF : D.Consistent parent F) (hattr : ∀ a ∈ F.roots, D.type a = .attr)
    (hV : F.Visited visit (replaceNode xmlEncodeSpecialChars toString data D))
    (hm : 2 * F.size ≤ m) (hk : F.size < k) :
    forProperties D (walkFrom D visit m) k F.head s =
      some (F.run (replaceNode xmlEncodeSpecialChars toString data D) s) := by
  obtain ⟨k, rfl⟩ : ∃ k', k = k' + 1 := ⟨k - 1, by omega⟩
  induction F generalizing k s with
  | nil => rfl
  | node a properties children siblings _ _ ihs =>
    obtain ⟨-, hc, hs⟩ := hF.node
    have hne : D.type a = .attr := hattr a List.mem_cons_self
    simp only [Forest.size] at hm hk
    have hrest : ∀ s, forProperties D (walkFrom D visit m) k siblings.head s =
        some (siblings.run (replaceNode xmlEncodeSpecialChars toString data D) s) := by
      intro s
      obtain ⟨k, rfl⟩ : ∃ k', k = k' + 1 := ⟨k - 1, by omega⟩
      exact ihs hs (fun b hb => hattr b (List.mem_cons_of_mem _ hb)) hV.2.2 (by omega) k (by omega)
    -- an attribute is no text node and has no attributes
    obtain rfl : properties = .nil := by
      refine Forest.eq_nil_of_head (hF.represents.2.1.symm.trans ?_)
      exact hF.noProperties a List.mem_cons_self (by simp [hne])
    rw [Forest.run, replaceNode_of_ne (by simp [hne]), Forest.run, Forest.head, forProperties,
      hF.represents.2.2.2.1, hF.represents.2.2.1]
    cases hhead : children.head with
    | none =>
      obtain rfl := Forest.eq_nil_of_head hhead
      exact hrest s
    | some c =>
      have hwalk : walkFrom D visit m c s = _ :=
        walkFrom_eq_run hc (XmlDocument.notMem_of_nodup hF.nodup) hV.2.1 hhead (by omega)
      simp only [hwalk]
      exact hrest _

/-- A node and its attributes. -/
theorem replacePlaceholdersInSelf_eq_run {properties : Forest P} {m : ℕ}
    (hfirst : D.links.firstProperty node = properties.head)
    (hnone : D.type node ≠ .element → properties.head = none)
    (hattr : ∀ a ∈ properties.roots, D.type a = .attr) (hF : D.Consistent node properties)
    (hV : properties.Visited (replacePlaceholdersInSelf xmlEncodeSpecialChars toString data D m)
      (replaceNode xmlEncodeSpecialChars toString data D)) (hm : 2 * properties.size < m) :
    replacePlaceholdersInSelf xmlEncodeSpecialChars toString data D (m + 1) node s =
      some (properties.run (replaceNode xmlEncodeSpecialChars toString data D)
        (replaceNode xmlEncodeSpecialChars toString data D node s)) := by
  by_cases he : D.type node = .element
  · rw [replaceNode_of_ne (by simp [he]), replacePlaceholdersInSelf]
    simp only [he, hfirst]
    exact forProperties_eq_run hF hattr hV (by omega) (by omega)
  · obtain rfl := Forest.eq_nil_of_head (hnone he)
    rw [replacePlaceholdersInSelf, Forest.run, replaceNode]
    cases ht : D.type node with
    | element => exact absurd ht he
    | _ => rfl

/-- Every visit of a node returns, and does what the recursion does with it. -/
theorem visited_replacePlaceholdersInSelf {n : ℕ} (hF : D.Consistent parent F)
    (hn : 2 * F.size < n) :
    F.Visited (replacePlaceholdersInSelf xmlEncodeSpecialChars toString data D n)
      (replaceNode xmlEncodeSpecialChars toString data D) := by
  induction F generalizing parent n with
  | nil => trivial
  | node p properties children siblings ihp ihc ihs =>
    obtain ⟨hp, hc, hs⟩ := hF.node
    simp only [Forest.size] at hn
    refine ⟨fun s => ?_, ihc hc (by omega), ihs hs (by omega)⟩
    obtain ⟨m, rfl⟩ : ∃ m, n = m + 1 := ⟨n - 1, by omega⟩
    have hfirst := hF.represents.2.1
    refine replacePlaceholdersInSelf_eq_run hfirst (fun he => ?_) (fun a ha => ?_) hp
      (ihp hp (by omega)) (by omega)
    · rw [← hfirst]
      exact hF.noProperties p List.mem_cons_self he
    · exact hF.isAttr a (by simp [Forest.propertyNodes, ha])

/-- **On a tree the functions return**, given two rounds for each node. -/
theorem replacePlaceholders_eq_some (T : XmlTree D) {n : ℕ} (hn : 2 * T.forest.size < n) :
    replacePlaceholders xmlEncodeSpecialChars toString data D n T.root s =
      some (replaceRecursively xmlEncodeSpecialChars toString data D T s) := by
  obtain ⟨m, rfl⟩ : ∃ m, n = m + 1 := ⟨n - 1, by omega⟩
  simp only [XmlTree.forest, Forest.size] at hn
  have hself : replacePlaceholdersInSelf xmlEncodeSpecialChars toString data D (m + 1) T.root s =
      _ := replacePlaceholdersInSelf_eq_run T.firstProperty_root T.noProperties T.isAttr
      T.consistent_properties
      (visited_replacePlaceholdersInSelf T.consistent_properties (by omega)) (by omega)
  rw [replacePlaceholders, hself, T.firstChild_root, replaceRecursively, XmlTree.forest, Forest.run,
    Forest.run]
  cases hhead : T.children.head with
  | none =>
    rw [Forest.eq_nil_of_head hhead]
    rfl
  | some c =>
    exact walkFrom_eq_run T.consistent_children (XmlDocument.notMem_of_nodup T.nodup)
      (visited_replacePlaceholdersInSelf T.consistent_children (by omega)) hhead (by omega)

/-! ### What the recursion does -/

theorem replaceInTextNode_handled :
    (replaceInTextNode xmlEncodeSpecialChars toString data node s).handled =
      node :: s.handled := by
  unfold replaceInTextNode
  cases replacePlaceholdersInText toString data (s.content node) <;> rfl

theorem replaceInTextNode_content (p : P) :
    (replaceInTextNode xmlEncodeSpecialChars toString data node s).content p =
      if p = node then replacedContent xmlEncodeSpecialChars toString data (s.content p)
      else s.content p := by
  unfold replaceInTextNode replacePlaceholdersInText replacedContent
  by_cases hd : dollar ∈ s.content node
  · simp only [if_neg (not_not_intro hd), setContent, Function.update_apply]
    by_cases hp : p = node
    · rw [if_pos hp, if_pos hp, hp, if_neg (not_not_intro hd)]
    · rw [if_neg hp, if_neg hp]
  · simp only [if_pos hd]
    by_cases hp : p = node
    · rw [if_pos hp, hp, if_pos hd]
    · rw [if_neg hp]

/-- The replacement in one node after the other. -/
def replaceNodes (xmlEncodeSpecialChars : SysString → SysString) (toString : IpAddress → SysString)
    (data : ResponseToGet) (D : XmlDocument P) (l : List P) (s : Contents P) : Contents P :=
  l.foldl (fun s p => replaceNode xmlEncodeSpecialChars toString data D p s) s

theorem replaceNodes_handled (l : List P) :
    (replaceNodes xmlEncodeSpecialChars toString data D l s).handled =
      (l.filter fun p => D.type p = .text).reverse ++ s.handled := by
  induction l generalizing s with
  | nil => rfl
  | cons p l ih =>
    refine (ih (s := replaceNode xmlEncodeSpecialChars toString data D p s)).trans ?_
    by_cases hp : D.type p = .text
    · rw [replaceNode, if_pos hp, replaceInTextNode_handled, List.filter_cons_of_pos (by simp [hp])]
      simp
    · rw [replaceNode_of_ne hp, List.filter_cons_of_neg (by simp [hp])]

/-- Of nodes that are all different, each text node is replaced once. -/
theorem replaceNodes_content {l : List P} (hl : l.Nodup) (p : P) :
    (replaceNodes xmlEncodeSpecialChars toString data D l s).content p =
      if p ∈ l.filter fun p => D.type p = .text then
        replacedContent xmlEncodeSpecialChars toString data (s.content p)
      else s.content p := by
  induction l generalizing s with
  | nil => rfl
  | cons q l ih =>
    obtain ⟨hq, hl⟩ := List.nodup_cons.1 hl
    refine (ih hl (s := replaceNode xmlEncodeSpecialChars toString data D q s)).trans ?_
    by_cases ht : D.type q = .text
    · rw [replaceNode, if_pos ht, replaceInTextNode_content]
      by_cases hpq : p = q
      · simp [hpq, hq, ht]
      · simp [hpq]
    · rw [replaceNode_of_ne ht, List.filter_cons_of_neg (by simp [ht])]

theorem replaceRecursively_eq (T : XmlTree D) :
    replaceRecursively xmlEncodeSpecialChars toString data D T s =
      replaceNodes xmlEncodeSpecialChars toString data D T.forest.nodes s :=
  Forest.run_eq_foldl _ _ _

theorem replaceRecursively_content (T : XmlTree D) (p : P) :
    (replaceRecursively xmlEncodeSpecialChars toString data D T s).content p =
      if p ∈ T.textNodes then replacedContent xmlEncodeSpecialChars toString data (s.content p)
      else s.content p := by
  rw [replaceRecursively_eq]
  exact replaceNodes_content T.nodup p

/-- **The walk is the recursion.**  On a finite tree with consistent links `replacePlaceholders`
returns, after at most two rounds for each node, what the recursion over node, attributes and
children gives.  The replacement has then been applied to the text nodes of the tree in document
order, those under attributes among them, to each once; and no other content has changed. -/
theorem replacePlaceholders_eq_recursion (xmlEncodeSpecialChars : SysString → SysString)
    (toString : IpAddress → SysString) (data : ResponseToGet) (T : XmlTree D) (s : Contents P) :
    (∀ n, 2 * T.forest.size < n →
      replacePlaceholders xmlEncodeSpecialChars toString data D n T.root s =
        some (replaceRecursively xmlEncodeSpecialChars toString data D T s)) ∧
    (replaceRecursively xmlEncodeSpecialChars toString data D T s).handled =
      T.textNodes.reverse ++ s.handled ∧
    T.textNodes.Nodup ∧
    ∀ p, (replaceRecursively xmlEncodeSpecialChars toString data D T s).content p =
      if p ∈ T.textNodes then replacedContent xmlEncodeSpecialChars toString data (s.content p)
      else s.content p := by
  refine ⟨fun n hn => replacePlaceholders_eq_some T hn, ?_, T.nodup.filter _,
    replaceRecursively_content T⟩
  rw [replaceRecursively_eq]
  exact replaceNodes_handled _

/-- A small template: an element with an attribute, a text and an element with a text. -/
def sampleDocument : XmlDocument ℕ where
  links := {
    firstChild := fun | 0 => some 3 | 1 => some 2 | 4 => some 5 | _ => none
    firstProperty := fun | 0 => some 1 | _ => none
    nextSibling := fun | 3 => some 4 | _ => none
    parent := fun
      | 1 => some 0
      | 2 => some 1
      | 3 => some 0
      | 4 => some 0
      | 5 => some 4
      | _ => none }
  type := fun | 0 => .element | 1 => .attr | 4 => .element | _ => .text

/-- The document of the example as a tree. -/
def sampleTree : XmlTree sampleDocument where
  root := 0
  properties := .node 1 .nil (.node 2 .nil .nil .nil) .nil
  children := .node 3 .nil .nil (.node 4 .nil (.node 5 .nil .nil .nil) .nil)
  firstProperty_root := rfl
  firstChild_root := rfl
  consistent_properties := ⟨by simp [Links.Represents, sampleDocument, Forest.head],
    by decide, by decide, by decide⟩
  consistent_children := ⟨by simp [Links.Represents, sampleDocument, Forest.head],
    by decide, by decide, by decide⟩
  nodup := by decide
  isAttr := by decide
  noProperties := by decide

/-- The text of the attribute and both other texts are expanded, once each.  There is nothing to be
encoded in them. -/
theorem replacePlaceholders_sampleTree :
    replacePlaceholders id dotted aHost sampleDocument 13 sampleTree.root
        ⟨fun _ => ofLiteral "$$IP_ADDR", []⟩ =
      some (replaceRecursively id dotted aHost sampleDocument sampleTree
        ⟨fun _ => ofLiteral "$$IP_ADDR", []⟩) ∧
    (replaceRecursively id dotted aHost sampleDocument sampleTree
      ⟨fun _ => ofLiteral "$$IP_ADDR", []⟩).handled = [5, 3, 2] ∧
    (replaceRecursively id dotted aHost sampleDocument sampleTree
      ⟨fun _ => ofLiteral "$$IP_ADDR", []⟩).content 2 = ofLiteral "$IP_ADDR" := by
  obtain ⟨hrun, hhandled, -, hcontent⟩ := replacePlaceholders_eq_recursion id dotted aHost
    sampleTree ⟨fun _ => ofLiteral "$$IP_ADDR", []⟩
  refine ⟨hrun 13 (by decide), hhandled.trans (by decide), (hcontent 2).trans (by decide)⟩

end WSDResponseBuilder

end Wsddn
