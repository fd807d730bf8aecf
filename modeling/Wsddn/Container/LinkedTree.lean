import Mathlib.Data.List.Basic

/-!
# Linked trees

The nodes of a document are linked by pointers: from a node to its first child, to the first of its
properties, to the next node of the same list and to the node it hangs off.  A `Forest` is a list of
such trees as a datum, and `Links.Represents` says that the pointers of a document agree with it.

`Links.walk` goes through a list of trees by the pointers alone: down to the first child, across to
the next sibling, up to the parent, until it is at a given node.  It needs no stack, only a flag for
having come from below.

* `Links.walk_represents` : where the pointers agree with a forest, the walk comes back to the
  parent, in at most two rounds for each node.
* `Links.walk_eq_run` : it is the recursion over the forest, `Forest.run`.
-/

namespace Wsddn

/-- The pointers of a document. -/
structure Links (P : Type*) where
  firstChild : P → Option P
  firstProperty : P → Option P
  nextSibling : P → Option P
  parent : P → Option P

/-- A list of trees.  A node has two lists below it. -/
inductive Forest (P : Type*) where
  | nil
  | node (p : P) (properties children siblings : Forest P)

namespace Forest

variable {P σ : Type*}

/-- The first node of the list. -/
def head : Forest P → Option P
  | nil => none
  | node p _ _ _ => some p

/-- All nodes, in document order. -/
def nodes : Forest P → List P
  | nil => []
  | node p properties children siblings =>
    p :: (properties.nodes ++ (children.nodes ++ siblings.nodes))

/-- The nodes of the list itself. -/
def roots : Forest P → List P
  | nil => []
  | node p _ _ siblings => p :: siblings.roots

/-- The nodes that are a property of another one. -/
def propertyNodes : Forest P → List P
  | nil => []
  | node _ properties children siblings =>
    properties.roots ++
      (properties.propertyNodes ++ (children.propertyNodes ++ siblings.propertyNodes))

/-- The number of nodes. -/
def size : Forest P → ℕ
  | nil => 0
  | node _ properties children siblings =>
    properties.size + children.size + siblings.size + 1

/-- **The recursion over a forest**: something is done with a node, then with its properties, then
with its children. -/
def run (f : P → σ → σ) : Forest P → σ → σ
  | nil, s => s
  | node p properties children siblings, s =>
    siblings.run f (children.run f (properties.run f (f p s)))

theorem eq_nil_of_head {F : Forest P} (h : F.head = none) : F = nil := by
  cases F with
  | nil => rfl
  | node => cases h

/-- The recursion does it once with every node. -/
theorem run_eq_foldl (f : P → σ → σ) (F : Forest P) (s : σ) :
    F.run f s = F.nodes.foldl (fun s p => f p s) s := by
  induction F generalizing s with
  | nil => rfl
  | node p properties children siblings ihp ihc ihs =>
    rw [run, nodes, List.foldl_cons, List.foldl_append, List.foldl_append, ihp, ihc, ihs]

/-- What a visit of a node has to do: the node and its properties.  Its children are left to the
walk. -/
def Visited (visit : P → σ → Option σ) (f : P → σ → σ) : Forest P → Prop
  | nil => True
  | node p properties children siblings =>
    (∀ s, visit p s = some (properties.run f (f p s))) ∧
      children.Visited visit f ∧ siblings.Visited visit f

end Forest

namespace Links

variable {P σ : Type*} (L : Links P)

/-- The pointers agree with a list of trees that hang off `parent`. -/
def Represents (parent : P) : Forest P → Prop
  | .nil => True
  | .node p properties children siblings =>
    L.parent p = some parent ∧ L.firstProperty p = properties.head ∧
      L.firstChild p = children.head ∧ L.nextSibling p = siblings.head ∧
      Represents p properties ∧ Represents p children ∧ Represents parent siblings

/-- Where the walk goes when it is done with what is below a node, and whether it comes from below
there. -/
def leave (p : P) : Option P × Bool :=
  match L.nextSibling p with
  | some q => (some q, false)
  | none => (L.parent p, true)

/-- The walk, until it is at `stop`; `none` if it follows a null pointer or runs out of rounds. -/
def walk [DecidableEq P] (visit : P → σ → Option σ) (stop : Option P) :
    ℕ → Option P → Bool → σ → Option σ
  | 0, _, _, _ => none
  | n + 1, current, returningFromChild, s =>
    if current = stop then some s
    else
      match current with
      | none => none
      | some p =>
        if returningFromChild then walk visit stop n (L.leave p).1 (L.leave p).2 s
        else
          match visit p s with
          | none => none
          | some s =>
            match L.firstChild p with
            | some c => walk visit stop n (some c) false s
            | none => walk visit stop n (L.leave p).1 (L.leave p).2 s

variable {L} [DecidableEq P] {visit : P → σ → Option σ} {stop : Option P} {f : P → σ → σ}
  {p parent : P} {F : Forest P}

/-! ### One round -/

theorem walk_stop (n : ℕ) (returningFromChild : Bool) (s : σ) :
    L.walk visit stop (n + 1) stop returningFromChild s = some s := by
  unfold walk
  exact if_pos rfl

theorem walk_returning (hp : stop ≠ some p) (n : ℕ) (s : σ) :
    L.walk visit stop (n + 1) (some p) true s =
      L.walk visit stop n (L.leave p).1 (L.leave p).2 s := by
  rw [walk, if_neg hp.symm]
  rfl

theorem walk_down {s s' : σ} {c : P} (hp : stop ≠ some p) (hv : visit p s = some s')
    (hc : L.firstChild p = some c) (n : ℕ) :
    L.walk visit stop (n + 1) (some p) false s = L.walk visit stop n (some c) false s' := by
  rw [walk, if_neg hp.symm]
  simp only [hv, hc, Bool.false_eq_true, if_false]

theorem walk_leaf {s s' : σ} (hp : stop ≠ some p) (hv : visit p s = some s')
    (hc : L.firstChild p = none) (n : ℕ) :
    L.walk visit stop (n + 1) (some p) false s =
      L.walk visit stop n (L.leave p).1 (L.leave p).2 s' := by
  rw [walk, if_neg hp.symm]
  simp only [hv, hc, Bool.false_eq_true, if_false]

/-! ### The whole walk -/

/-- The siblings of a node, once the walk is done with the node. -/
theorem walk_leave {siblings : Forest P} (hparent : L.parent p = some parent)
    (hnext : L.nextSibling p = siblings.head)
    (ih : siblings.head ≠ none → ∃ k < 2 * siblings.size, ∀ n s,
      L.walk visit stop (n + k) siblings.head false s =
        L.walk visit stop n (some parent) true (siblings.run f s)) :
    ∃ k ≤ 2 * siblings.size, ∀ n s, L.walk visit stop (n + k) (L.leave p).1 (L.leave p).2 s =
      L.walk visit stop n (some parent) true (siblings.run f s) := by
  cases siblings with
  | nil =>
    have hleave : L.leave p = (some parent, true) := by
      simp only [leave, hnext, hparent, Forest.head]
    exact ⟨0, Nat.zero_le _, fun n s => by rw [hleave]; rfl⟩
  | node q properties children siblings =>
    have hleave : L.leave p = (some q, false) := by simp only [leave, hnext, Forest.head]
    obtain ⟨k, hk, hwalk⟩ := ih (by simp [Forest.head])
    refine ⟨k, Nat.le_of_lt hk, fun n s => ?_⟩
    rw [hleave]
    exact hwalk n s

/-- **The walk over a list of trees comes back to the parent** and has done then what the recursion
does. -/
theorem walk_represents (hR : L.Represents parent F) (hV : F.Visited visit f)
    (hstop : ∀ p ∈ F.nodes, stop ≠ some p) (hF : F.head ≠ none) :
    ∃ k < 2 * F.size, ∀ n s, L.walk visit stop (n + k) F.head false s =
      L.walk visit stop n (some parent) true (F.run f s) := by
  induction F generalizing parent with
  | nil => exact absurd rfl hF
  | node p properties children siblings _ ihc ihs =>
    obtain ⟨hparent, -, hchild, hnext, -, hRc, hRs⟩ := hR
    obtain ⟨hv, hVc, hVs⟩ := hV
    have hp : stop ≠ some p := hstop p List.mem_cons_self
    have hstop_c : ∀ q ∈ children.nodes, stop ≠ some q :=
      fun q hq => hstop q (by simp [Forest.nodes, hq])
    have hstop_s : ∀ q ∈ siblings.nodes, stop ≠ some q :=
      fun q hq => hstop q (by simp [Forest.nodes, hq])
    obtain ⟨k, hk, hleave⟩ := walk_leave hparent hnext (ihs hRs hVs hstop_s)
    cases children with
    | nil =>
      refine ⟨k + 1, by simp only [Forest.size]; omega, fun n s => ?_⟩
      rw [Forest.head, ← Nat.add_assoc, walk_leaf hp (hv s) hchild, hleave]
      rfl
    | node c properties' children' siblings' =>
      -- down to the children, back from them to the node, and on
      obtain ⟨j, hj, hwalk⟩ := ihc hRc hVc hstop_c (by simp [Forest.head])
      refine ⟨k + 1 + j + 1, by simp only [Forest.size] at hj ⊢; omega, fun n s => ?_⟩
      have hn : n + (k + 1 + j + 1) = (n + k + 1 + j) + 1 := by omega
      rw [hn, Forest.head, walk_down hp (hv s) hchild]
      refine (hwalk (n + k + 1) _).trans ?_
      rw [walk_returning hp, hleave]
      rfl

/-- **The walk is the recursion**, given two rounds for each node. -/
theorem walk_eq_run (hR : L.Represents parent F) (hV : F.Visited visit f)
    (hparent : parent ∉ F.nodes) (hF : F.head ≠ none) {n : ℕ} (hn : 2 * F.size ≤ n) (s : σ) :
    L.walk visit (some parent) n F.head false s = some (F.run f s) := by
  have hstop : ∀ p ∈ F.nodes, some parent ≠ some p := by
    rintro p hp he
    exact hparent (Option.some.inj he ▸ hp)
  obtain ⟨k, hk, hwalk⟩ := walk_represents hR hV hstop hF
  obtain ⟨m, rfl⟩ : ∃ m, n = m + 1 + k := ⟨n - k - 1, by omega⟩
  rw [hwalk, walk_stop]

end Links

end Wsddn
