import Mathlib.Data.List.Basic

/-!
# XML documents and the paths in them

A document is a tree of elements, with namespaces already resolved: the names are of any type, and
so are the characters.  A location path `/a/b/c` selects elements by their names; the elements that
it selects carry the namespaces in scope, as those of a prefix may be asked for.

* `XmlNode.select` : the elements that a path leads to.
* `XmlElement.string` : the characters of the first of them.
-/

namespace Wsddn

/-- Namespaces by prefix; the empty prefix stands for the default namespace. -/
abbrev Namespaces (α : Type*) := List (List α × List α)

/-- A node of a document. -/
inductive XmlNode (N α : Type*) where
  | element (pre : List α) (name : N) (nsDef : Namespaces α) (properties : List (List α × List α))
      (children : List (XmlNode N α))
  | text (content : List α)
  /-- A comment or a processing instruction. -/
  | other

/-- An element in its document. -/
structure XmlElement (N α : Type*) where
  /-- The namespaces in scope, the innermost in front. -/
  scope : Namespaces α
  properties : List (List α × List α)
  children : List (XmlNode N α)

namespace XmlNode

variable {N α : Type*}

mutual

/-- The characters of a node and of everything below it. -/
def content : XmlNode N α → List α
  | element _ _ _ _ children => contents children
  | text content => content
  | other => []

/-- The characters of a list of nodes. -/
def contents : List (XmlNode N α) → List α
  | [] => []
  | node :: nodes => node.content ++ contents nodes

end

@[simp] theorem content_element (pre : List α) (name : N) (nsDef : Namespaces α)
    (properties : List (List α × List α)) (children : List (XmlNode N α)) :
    (element pre name nsDef properties children).content = contents children := by
  rw [content]

@[simp] theorem content_text (content : List α) :
    (text content : XmlNode N α).content = content := by
  rw [XmlNode.content]

@[simp] theorem contents_nil : contents ([] : List (XmlNode N α)) = [] := by
  rw [contents]

@[simp] theorem contents_cons (node : XmlNode N α) (nodes : List (XmlNode N α)) :
    contents (node :: nodes) = node.content ++ contents nodes := by
  rw [contents]

variable [DecidableEq N]

/-- The elements with a name in a list of siblings. -/
def named (name : N) (scope : Namespaces α) : List (XmlNode N α) → List (XmlElement N α)
  | [] => []
  | element _ n nsDef properties children :: nodes =>
    if n = name then ⟨nsDef ++ scope, properties, children⟩ :: named name scope nodes
    else named name scope nodes
  | text _ :: nodes => named name scope nodes
  | other :: nodes => named name scope nodes

/-- The elements that the path `names` leads to from a list of siblings, in the order of the
document. -/
def select : List N → Namespaces α → List (XmlNode N α) → List (XmlElement N α)
  | [], _, _ => []
  | [name], scope, nodes => named name scope nodes
  | name :: names, scope, nodes =>
    (named name scope nodes).flatMap fun e => select names e.scope e.children

variable {name : N} {names : List N} {scope : Namespaces α} {nodes : List (XmlNode N α)}

@[simp] theorem named_nil : named name scope ([] : List (XmlNode N α)) = [] := rfl

@[simp] theorem named_element (pre : List α) (n : N) (nsDef : Namespaces α)
    (properties : List (List α × List α)) (children nodes : List (XmlNode N α)) :
    named name scope (element pre n nsDef properties children :: nodes) =
      if n = name then ⟨nsDef ++ scope, properties, children⟩ :: named name scope nodes
      else named name scope nodes := rfl

@[simp] theorem named_text (content : List α) (nodes : List (XmlNode N α)) :
    named name scope (text content :: nodes) = named name scope nodes := rfl

@[simp] theorem select_single : select [name] scope nodes = named name scope nodes := rfl

@[simp] theorem select_cons_cons (name' : N) :
    select (name :: name' :: names) scope nodes =
      (named name scope nodes).flatMap fun e => select (name' :: names) e.scope e.children := rfl

end XmlNode

namespace XmlElement

variable {N α : Type*}

/-- The elements that the path `names` leads to from an element. -/
def select [DecidableEq N] (e : XmlElement N α) (names : List N) : List (XmlElement N α) :=
  XmlNode.select names e.scope e.children

/-- `string(...)` of a node set: the content of its first node. -/
def string (es : List (XmlElement N α)) : List α :=
  (es.head?).elim [] fun e => XmlNode.contents e.children

@[simp] theorem string_nil : string ([] : List (XmlElement N α)) = [] := rfl

@[simp] theorem string_cons (e : XmlElement N α) (es : List (XmlElement N α)) :
    string (e :: es) = XmlNode.contents e.children := rfl

end XmlElement

end Wsddn
