import Mathlib.Data.List.Basic
import Mathlib.Data.List.Nodup

/-!
# Sets with iterators, and windows of recent symbols

A node-based set (`std::set`) hands out iterators: an iterator stays good until its own element is
erased, and from then on using it is undefined, even if an equal element is inserted again.
`NodeSet` gives every node an identity of its own, which is never used a second time, so an
iterator whose element is gone can be told from one to a later element with the same value.

A symbol is *fresh* in a stream if it is not among the last `N` symbols taken from the stream.
The symbols taken, the newest first, are then `Spaced N`: between two equal ones there are at least
`N` others (`Spaced.between`), and any `N + 1` neighbours differ (`Spaced.nodup_take`).
-/

namespace Wsddn

/-- A set with iterators.  An iterator is the identity of a node. -/
structure NodeSet (α : Type*) where
  /-- The nodes, in the order in which they were made, the newest in front. -/
  nodes : List (ℕ × α) := []
  /-- The identity of the next node. -/
  fresh : ℕ := 0
  keys_nodup : (nodes.map Prod.snd).Nodup := by exact List.nodup_nil
  iters_nodup : (nodes.map Prod.fst).Nodup := by exact List.nodup_nil
  lt_fresh : ∀ it ∈ nodes.map Prod.fst, it < fresh := by exact List.forall_mem_nil _

namespace NodeSet

variable {α : Type*}

/-- The elements. -/
def keys (s : NodeSet α) : List α := s.nodes.map Prod.snd

/-- The iterators that can be used. -/
def iters (s : NodeSet α) : List ℕ := s.nodes.map Prod.fst

/-- The element that an iterator points to, `none` if it is gone. -/
def deref (s : NodeSet α) (it : ℕ) : Option α := (s.nodes.find? fun n => n.1 = it).map Prod.snd

/-- The iterator to an element. -/
def find [DecidableEq α] (s : NodeSet α) (a : α) : ℕ :=
  (s.nodes.find? fun n => n.2 = a).elim s.fresh Prod.fst

/-- A new node for an element that is not in the set. -/
def insert (s : NodeSet α) (a : α) (h : a ∉ s.keys) : NodeSet α where
  nodes := (s.fresh, a) :: s.nodes
  fresh := s.fresh + 1
  keys_nodup := List.nodup_cons.2 ⟨h, s.keys_nodup⟩
  iters_nodup := List.nodup_cons.2 ⟨fun hm => Nat.lt_irrefl _ (s.lt_fresh _ hm), s.iters_nodup⟩
  lt_fresh it hm := by
    rcases List.mem_cons.1 hm with rfl | hm
    · exact Nat.lt_succ_self _
    · exact Nat.lt_succ_of_lt (s.lt_fresh it hm)

/-- `emplace` : the iterator to the element, whether it is new, and the set afterwards. -/
def emplace [DecidableEq α] (s : NodeSet α) (a : α) : ℕ × Bool × NodeSet α :=
  if h : a ∈ s.keys then (s.find a, false, s) else (s.fresh, true, s.insert a h)

/-- The set without a node. -/
def remove (s : NodeSet α) (it : ℕ) : NodeSet α where
  nodes := s.nodes.filter fun n => n.1 ≠ it
  fresh := s.fresh
  keys_nodup := s.keys_nodup.sublist (List.filter_sublist.map _)
  iters_nodup := s.iters_nodup.sublist (List.filter_sublist.map _)
  lt_fresh it' hm := s.lt_fresh it' ((List.filter_sublist.map _).subset hm)

/-- `erase`, undefined for an iterator whose element is gone. -/
def erase (s : NodeSet α) (it : ℕ) : Option (NodeSet α) :=
  if it ∈ s.iters then some (s.remove it) else none

theorem emplace_of_mem [DecidableEq α] {s : NodeSet α} {a : α} (h : a ∈ s.keys) :
    s.emplace a = (s.find a, false, s) := dif_pos h

theorem emplace_of_notMem [DecidableEq α] {s : NodeSet α} {a : α} (h : a ∉ s.keys) :
    s.emplace a = (s.fresh, true, s.insert a h) := dif_neg h

@[simp] theorem insert_nodes (s : NodeSet α) (a : α) (h : a ∉ s.keys) :
    (s.insert a h).nodes = (s.fresh, a) :: s.nodes := rfl

theorem remove_nodes_of_concat {s : NodeSet α} {ns : List (ℕ × α)} {n : ℕ × α}
    (h : s.nodes = ns ++ [n]) : (s.remove n.1).nodes = ns := by
  have hnd := s.iters_nodup
  rw [h, List.map_append, List.nodup_append] at hnd
  show s.nodes.filter (fun m => m.1 ≠ n.1) = ns
  rw [h, List.filter_append, List.filter_eq_self.2]
  · simp
  · intro m hm
    have := hnd.2.2 m.1 (List.mem_map_of_mem hm) n.1 (by simp)
    simpa using this

theorem deref_of_mem {s : NodeSet α} {n : ℕ × α} (h : n ∈ s.nodes) : s.deref n.1 = some n.2 := by
  unfold deref
  cases hf : s.nodes.find? fun m => m.1 = n.1 with
  | none =>
    have := List.find?_eq_none.1 hf n h
    simp at this
  | some m =>
    have hm : m.1 = n.1 := by simpa using List.find?_some hf
    have he : m = n :=
      List.inj_on_of_nodup_map s.iters_nodup (List.mem_of_find?_eq_some hf) h hm
    rw [he]
    rfl

/-- The iterators, one after the other, point to the elements. -/
theorem map_deref_iters (s : NodeSet α) : s.iters.map s.deref = s.keys.map some := by
  rw [iters, keys, List.map_map, List.map_map]
  exact List.map_congr_left fun n hn => deref_of_mem hn

/-- An iterator that can be used points to an element. -/
theorem deref_isSome {s : NodeSet α} {it : ℕ} : (s.deref it).isSome = true ↔ it ∈ s.iters := by
  simp [deref, iters]

end NodeSet

/-! ### Windows -/

section Window

variable {α : Type*} {N : ℕ}

/-- No element of the list is among the `N` that follow it. -/
def Spaced (N : ℕ) : List α → Prop
  | [] => True
  | a :: l => a ∉ l.take N ∧ Spaced N l

/-- A new symbol enters a window that is not full. -/
theorem take_cons_of_lt {l : List α} (a : α) (h : l.length < N) :
    (a :: l).take N = a :: l.take N := by
  have hl : (a :: l).length ≤ N := h
  rw [List.take_of_length_le hl, List.take_of_length_le (Nat.le_of_lt h)]

/-- A new symbol enters a full window, and the oldest one leaves it. -/
theorem take_cons_of_le {l : List α} (a : α) (hN : 0 < N) (h : N ≤ l.length) :
    (a :: l).take N = a :: (l.take N).dropLast := by
  rw [List.take_cons hN, List.dropLast_eq_take, List.length_take, Nat.min_eq_left h,
    List.take_take, Nat.min_eq_left (Nat.sub_le N 1)]

/-- Any `N + 1` neighbours are pairwise distinct. -/
theorem Spaced.nodup_take {l : List α} (h : Spaced N l) : (l.take (N + 1)).Nodup := by
  induction l with
  | nil => simp
  | cons a l ih =>
    rw [List.take_succ_cons, List.nodup_cons]
    refine ⟨h.1, (ih h.2).sublist ?_⟩
    exact (List.take_prefix_take_left (Nat.le_succ N)).sublist

theorem Spaced.nodup_window {l : List α} (h : Spaced N l) : (l.take N).Nodup :=
  h.nodup_take.sublist (List.take_prefix_take_left (Nat.le_succ N)).sublist

theorem Spaced.append_right {l l' : List α} (h : Spaced N (l ++ l')) : Spaced N l' := by
  induction l with
  | nil => exact h
  | cons a l ih => exact ih h.2

/-- **Between two equal elements** there are at least `N` others, and the `N` next to the first
are pairwise distinct. -/
theorem Spaced.between {pre mid post : List α} {a : α}
    (h : Spaced N (pre ++ a :: (mid ++ a :: post))) :
    N ≤ mid.length ∧ (mid.take N).Nodup ∧ a ∉ mid.take N := by
  obtain ⟨ha, htail⟩ := h.append_right
  have hlen : N ≤ mid.length := by
    by_contra hlt
    refine ha ?_
    rw [List.take_append, List.mem_append]
    right
    obtain ⟨k, hk⟩ : ∃ k, N - mid.length = k + 1 := ⟨N - mid.length - 1, by omega⟩
    rw [hk, List.take_succ_cons]
    exact List.mem_cons_self
  have htake : (mid ++ a :: post).take N = mid.take N := List.take_append_of_le_length hlen
  rw [htake] at ha
  refine ⟨hlen, ?_, ha⟩
  rw [← htake]
  exact htail.nodup_window

end Window

end Wsddn
