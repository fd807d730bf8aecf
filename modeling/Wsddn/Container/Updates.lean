import Mathlib.Data.List.Basic
import Mathlib.Logic.Function.Basic

/-!
# A table that is learned from its updates

A table gives some keys a value.  Somebody who does not know it, but hears all updates from some
point on, knows the part of it that they were about.

* `applyAll_of_mem`, `applyAll_of_not_mem` : the updates determine the keys that they are about.
* `Part.applyAll` : what was learned is a part of the table.
* `applyAll_of_confirms` : updates that say what is known already change nothing.
* `HeardAll.applyAll_eq` : updates that change nothing need not be heard.
-/

namespace Wsddn

/-- An update of a table: a key gets a value, or it loses the one that it has. -/
inductive Update (α β : Type*) where
  | set (key : α) (value : β)
  | drop (key : α) (value : β)

namespace Update

variable {α β : Type*}

/-- The key that an update is about. -/
def key : Update α β → α
  | set key _ => key
  | drop key _ => key

/-- The value that the key gets or loses. -/
def value : Update α β → β
  | set _ value => value
  | drop _ value => value

/-- The update does not take a key from another value. -/
def Allowed (T : α → Option β) (u : Update α β) : Prop := T u.key = none ∨ T u.key = some u.value

/-- The update says what is known. -/
def Confirms (T : α → Option β) : Update α β → Prop
  | set key value => T key = some value
  | drop _ _ => False

/-- All that is known is right. -/
def Part (T' T : α → Option β) : Prop := ∀ a, T' a = none ∨ T' a = T a

variable {T T' : α → Option β} {u : Update α β} {us us' : List (Update α β)} {a : α}

theorem Part.allowed (h : Part T' T) (hu : u.Allowed T) : u.Allowed T' := by
  rcases h u.key with hnone | heq
  · exact .inl hnone
  · exact hu.imp heq.trans heq.trans

variable [DecidableEq α]

/-- The table after an update. -/
def apply (T : α → Option β) : Update α β → α → Option β
  | set key value => Function.update T key (some value)
  | drop key _ => Function.update T key none

/-- The table after some updates. -/
def applyAll (T : α → Option β) (us : List (Update α β)) : α → Option β := us.foldl apply T

/-- Each update is allowed when its turn comes. -/
def AllowedAll : (α → Option β) → List (Update α β) → Prop
  | _, [] => True
  | T, u :: us => u.Allowed T ∧ AllowedAll (u.apply T) us

/-- Each event tells of the update that has happened, unless it changes nothing when its turn comes;
and no update is forbidden. -/
def HeardAll {γ : Type*} (happened heard : γ → Option (Update α β)) :
    (α → Option β) → List γ → Prop
  | _, [] => True
  | T, e :: es => (∀ u ∈ happened e, u.Allowed T ∧ (u ∈ heard e ∨ u.apply T = T)) ∧
      HeardAll happened heard (applyAll T (happened e).toList) es

theorem apply_key : u.apply T u.key = u.apply T' u.key := by
  cases u <;> simp [apply, key]

theorem apply_of_ne (h : a ≠ u.key) : u.apply T a = T a := by
  cases u <;> exact Function.update_of_ne h _ _

theorem applyAll_append : applyAll T (us ++ us') = applyAll (applyAll T us) us' :=
  List.foldl_append

/-- A key that no update is about keeps what it has. -/
theorem applyAll_of_not_mem (h : ∀ u ∈ us, u.key ≠ a) : applyAll T us a = T a := by
  induction us generalizing T with
  | nil => rfl
  | cons u us ih =>
    show applyAll (u.apply T) us a = T a
    rw [ih fun v hv => h v (List.mem_cons_of_mem _ hv),
      apply_of_ne (Ne.symm (h u List.mem_cons_self))]

/-- A key that an update is about has what the updates say. -/
theorem applyAll_of_mem (h : ∃ u ∈ us, u.key = a) : applyAll T us a = applyAll T' us a := by
  induction us generalizing T T' with
  | nil =>
    obtain ⟨u, hu, -⟩ := h
    exact absurd hu List.not_mem_nil
  | cons u us ih =>
    show applyAll (u.apply T) us a = applyAll (u.apply T') us a
    by_cases hus : ∃ u ∈ us, u.key = a
    · exact ih hus
    · have hkey : u.key = a := by
        obtain ⟨v, hv, hkey⟩ := h
        rcases List.mem_cons.1 hv with rfl | hv
        · exact hkey
        · exact absurd ⟨v, hv, hkey⟩ hus
      have hnot : ∀ v ∈ us, v.key ≠ a := fun v hv hva => hus ⟨v, hv, hva⟩
      rw [applyAll_of_not_mem hnot, applyAll_of_not_mem hnot, ← hkey, apply_key]

theorem Part.apply (h : Part T' T) (u : Update α β) : Part (u.apply T') (u.apply T) := by
  intro a
  by_cases ha : a = u.key
  · subst ha
    exact .inr apply_key
  · rw [apply_of_ne ha, apply_of_ne ha]
    exact h a

theorem Part.applyAll (h : Part T' T) (us : List (Update α β)) :
    Part (applyAll T' us) (applyAll T us) := by
  induction us generalizing T T' with
  | nil => exact h
  | cons u us ih => exact ih (h.apply u)

/-- What is confirmed does not change. -/
theorem apply_of_confirms (h : u.Confirms T) : u.apply T = T := by
  cases u with
  | set key value =>
    exact (congrArg (Function.update T key) h.symm).trans (Function.update_eq_self _ _)
  | drop => exact h.elim

theorem applyAll_of_confirms (h : ∀ u ∈ us, u.Confirms T) : applyAll T us = T := by
  induction us with
  | nil => rfl
  | cons u us ih =>
    show applyAll (u.apply T) us = T
    rw [apply_of_confirms (h u List.mem_cons_self)]
    exact ih fun v hv => h v (List.mem_cons_of_mem _ hv)

theorem allowedAll_of_confirms (h : ∀ u ∈ us, u.Confirms T) : AllowedAll T us := by
  induction us with
  | nil => trivial
  | cons u us ih =>
    have hu := h u List.mem_cons_self
    refine ⟨?_, ?_⟩
    · cases u with
      | set => exact .inr hu
      | drop => exact hu.elim
    · rw [apply_of_confirms hu]
      exact ih fun v hv => h v (List.mem_cons_of_mem _ hv)

/-- **What is not heard changes nothing.** -/
theorem HeardAll.applyAll_eq {γ : Type*} {happened heard : γ → Option (Update α β)} {es : List γ}
    (hheard : ∀ e, ∀ u ∈ heard e, u ∈ happened e) (h : HeardAll happened heard T es) :
    applyAll T (es.filterMap heard) = applyAll T (es.filterMap happened) ∧
      AllowedAll T (es.filterMap heard) := by
  induction es generalizing T with
  | nil => exact ⟨rfl, trivial⟩
  | cons e es ih =>
    obtain ⟨hu, hes⟩ := h
    cases hhap : happened e with
    | none =>
      have hnone : heard e = none := Option.eq_none_iff_forall_not_mem.2 fun v hv => by
        have := hheard e v hv
        rw [hhap] at this
        cases this
      rw [hhap] at hes
      rw [List.filterMap_cons_none hnone, List.filterMap_cons_none hhap]
      exact ih hes
    | some u =>
      rw [hhap] at hes
      obtain ⟨hallowed, hsame⟩ := hu u hhap
      obtain ⟨heq, hall⟩ := ih hes
      rw [List.filterMap_cons_some hhap]
      cases hhea : heard e with
      | none =>
        have happly : u.apply T = T := hsame.resolve_left fun hmem => by
          rw [hhea] at hmem
          cases hmem
        have htable : applyAll T (some u).toList = T := happly
        rw [htable] at heq hall
        rw [List.filterMap_cons_none hhea]
        refine ⟨heq.trans ?_, hall⟩
        show _ = applyAll (u.apply T) _
        rw [happly]
      | some v =>
        obtain rfl : u = v := Option.some.inj (hhap.symm.trans (hheard e v hhea))
        rw [List.filterMap_cons_some hhea]
        exact ⟨heq, hallowed, hall⟩

end Update

end Wsddn
