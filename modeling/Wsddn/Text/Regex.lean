import Mathlib.Data.List.Basic

/-!
# Regular expressions with groups

The expressions are those that a backtracking matcher reads from left to right: a class of symbols,
any number of symbols of a class, an expression after another, an optional one, and a numbered
group, whose text is kept.  A matcher tries the alternatives in order, the longest repetition and
the optional part first, and `regexMatch` is the first that reads the whole text.

* `alts` : the alternatives, in the order in which they are tried.
* `regexMatch` : the groups of the first one that reads the whole text.
-/

namespace Wsddn

/-- Expressions over the symbols `α`. -/
inductive Regex (α : Type*) where
  | one (p : α → Bool)
  | many (p : α → Bool)
  | seq (r r' : Regex α)
  | opt (r : Regex α)
  | group (n : ℕ) (r : Regex α)

namespace Regex

variable {α : Type*}

/-- The groups with their texts. -/
abbrev Captures (α : Type*) := List (ℕ × List α)

/-- What is left of a text after a repetition, the longest repetition first. -/
def rests (p : α → Bool) : List α → List (List α)
  | [] => [[]]
  | a :: s => (if p a then rests p s else []) ++ [a :: s]

/-- The alternatives in the order in which they are tried, each with its groups and with what it
leaves of the text. -/
def alts : Regex α → List α → List (Captures α × List α)
  | .one _, [] => []
  | .one p, a :: s => if p a then [([], s)] else []
  | .many p, s => (rests p s).map fun rest => ([], rest)
  | .seq r r', s => (alts r s).flatMap fun (caps, rest) =>
      (alts r' rest).map fun (caps', rest') => (caps ++ caps', rest')
  | .opt r, s => alts r s ++ [([], s)]
  | .group n r, s => (alts r s).map fun (caps, rest) =>
      ((n, s.take (s.length - rest.length)) :: caps, rest)

/-- The groups of the first alternative that reads the whole text. -/
def regexMatch (r : Regex α) (s : List α) : Option (Captures α) :=
  ((alts r s).find? fun m => m.2.isEmpty).map Prod.fst

/-- The text of a group, empty if the group was not reached. -/
def Captures.text (caps : Captures α) (n : ℕ) : List α := (caps.lookup n).getD []

end Regex

end Wsddn
