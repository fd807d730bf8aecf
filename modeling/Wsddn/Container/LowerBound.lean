import Mathlib.Data.List.Basic
import Mathlib.Order.Lattice

/-!
# `std::lower_bound`

Binary search in a list that is partitioned by a predicate: the elements that satisfy it come first.

* `lowerBound_spec` : the search ends at the first element that does not satisfy the predicate.
* `getElem?_lowerBound` : in a list sorted by a key it finds the first key that is not less.
-/

namespace Wsddn

variable {α : Type*}

/-- The loop of `std::lower_bound`: the answer is among the `count + 1` places from `first` on.
`fuel` bounds the number of rounds. -/
def lowerBoundLoop (p : ℕ → Bool) : ℕ → ℕ → ℕ → ℕ
  | 0, first, _ => first
  | fuel + 1, first, count =>
    if count = 0 then first
    else
      let half := count / 2
      if p (first + half) then lowerBoundLoop p fuel (first + half + 1) (count - (half + 1))
      else lowerBoundLoop p fuel first half

/-- The place of the first element that does not satisfy `p`. -/
def lowerBound (p : α → Bool) (l : List α) : ℕ :=
  lowerBoundLoop (fun i => l[i]?.any p) l.length 0 l.length

/-- The invariant of the loop: everything before `first` satisfies the predicate, and nothing from
`first + count` on does. -/
theorem lowerBoundLoop_spec {p : ℕ → Bool} {n : ℕ} (hp : ∀ i j, i ≤ j → j < n → p j → p i)
    {fuel first count : ℕ} (hfuel : count ≤ fuel) (hn : first + count ≤ n)
    (hbefore : ∀ i < first, p i = true) (hafter : ∀ i, first + count ≤ i → i < n → p i = false) :
    lowerBoundLoop p fuel first count ≤ n ∧
      (∀ i < lowerBoundLoop p fuel first count, p i = true) ∧
      ∀ i, lowerBoundLoop p fuel first count ≤ i → i < n → p i = false := by
  induction fuel generalizing first count with
  | zero =>
    obtain rfl : count = 0 := by omega
    exact ⟨hn, hbefore, hafter⟩
  | succ fuel ih =>
    rw [lowerBoundLoop]
    dsimp only
    split_ifs with hcount hhalf
    · subst hcount
      exact ⟨hn, hbefore, hafter⟩
    · refine ih (by omega) (by omega) (fun i hi => ?_) (fun i hi hin => hafter i (by omega) hin)
      exact hp i (first + count / 2) (by omega) (by omega) hhalf
    · refine ih (by omega) (by omega) hbefore fun i hi hin => ?_
      by_contra hpi
      rw [Bool.not_eq_false] at hpi
      exact hhalf (hp (first + count / 2) i hi hin hpi)

/-- **`std::lower_bound`** on a partitioned list. -/
theorem lowerBound_spec {p : α → Bool} {l : List α}
    (hp : l.Pairwise fun a b => p b = true → p a = true) :
    lowerBound p l ≤ l.length ∧
      ∀ (i : ℕ) (a : α), l[i]? = some a → (p a = true ↔ i < lowerBound p l) := by
  have hmono : ∀ i j, i ≤ j → j < l.length → l[j]?.any p = true → l[i]?.any p = true := by
    intro i j hij hj hpj
    rcases Nat.lt_or_eq_of_le hij with hlt | rfl
    · rw [List.getElem?_eq_getElem hj, Option.any_some] at hpj
      rw [List.getElem?_eq_getElem (Nat.lt_trans hlt hj), Option.any_some]
      exact List.pairwise_iff_getElem.1 hp i j _ _ hlt hpj
    · exact hpj
  have hspec := lowerBoundLoop_spec hmono (Nat.le_refl l.length) (Nat.le_of_eq (Nat.zero_add _))
    (fun i hi => absurd hi (Nat.not_lt_zero i)) (fun i hi hin => by omega)
  refine ⟨hspec.1, fun i a ha => ⟨fun hpa => ?_, fun hi => ?_⟩⟩
  · by_contra hi
    have := hspec.2.2 i (Nat.not_lt.1 hi) (List.getElem?_eq_some_iff.1 ha).1
    rw [ha, Option.any_some, hpa] at this
    cases this
  · have := hspec.2.1 i hi
    rwa [ha, Option.any_some] at this

variable {β : Type*} [LinearOrder β]

/-- In a list that is sorted by a key, what is found by `std::lower_bound` and checked is the
element with the key. -/
theorem getElem?_lowerBound {key : α → β} {l : List α}
    (hsorted : l.Pairwise fun a b => key a < key b) (k : β) :
    (l[lowerBound (fun a => key a < k) l]?.filter fun a => key a = k) =
      l.find? fun a => key a = k := by
  have hp : l.Pairwise fun a b => decide (key b < k) = true → decide (key a < k) = true :=
    hsorted.imp fun hab hb => decide_eq_true (lt_trans hab (of_decide_eq_true hb))
  obtain ⟨-, hspec⟩ := lowerBound_spec hp
  cases hfind : l.find? fun a => key a = k with
  | none =>
    rw [List.find?_eq_none] at hfind
    rw [Option.filter_eq_none_iff]
    exact fun a ha => hfind a (List.mem_of_getElem? ha)
  | some a =>
    have hkey : key a = k := by simpa using List.find?_some hfind
    obtain ⟨j, hj⟩ := List.mem_iff_getElem?.1 (List.mem_of_find?_eq_some hfind)
    -- the search ends at `a`: what is before it is less, and it is not
    have hle : lowerBound (fun a => decide (key a < k)) l ≤ j := by
      by_contra hlt
      have := (hspec j a hj).2 (Nat.not_le.1 hlt)
      rw [hkey] at this
      simp at this
    have hge : ¬ lowerBound (fun a => decide (key a < k)) l < j := by
      intro hlt
      have hjlt := (List.getElem?_eq_some_iff.1 hj).1
      have hget := List.getElem?_eq_getElem (Nat.lt_trans hlt hjlt)
      have hless : key l[lowerBound (fun a => decide (key a < k)) l] < key a := by
        obtain ⟨-, rfl⟩ := List.getElem?_eq_some_iff.1 hj
        exact List.pairwise_iff_getElem.1 hsorted _ _ _ _ hlt
      rw [hkey] at hless
      exact Nat.lt_irrefl _ ((hspec _ _ hget).1 (decide_eq_true hless))
    obtain heq := Nat.le_antisymm hle (Nat.not_lt.1 hge)
    rw [heq, hj, Option.filter_some, if_pos (by simpa using hkey)]

end Wsddn
