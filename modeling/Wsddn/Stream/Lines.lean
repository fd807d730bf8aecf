import Mathlib.Data.List.Basic

/-!
# Lines

A symbol `nl` ends each line of a stream.  After a part of the stream there are the lines that have
ended in it, and the symbols of the line that has not.

* `flatMap_ended_append_unended` : together they are the stream.
* `ended_append`, `unended_append` : the stream goes on.
* `ended_append_left`, `unended_append_left` : symbols in front of the first line stay in it.
-/

namespace Wsddn

namespace Lines

variable {α : Type*} [DecidableEq α] (nl : α)

/-- The lines that end in a stream, the first of which began with `begun`. -/
def ended : List α → List α → List (List α)
  | _, [] => []
  | begun, a :: s => if a = nl then begun :: ended [] s else ended (begun ++ [a]) s

/-- The line that has not ended. -/
def unended : List α → List α → List α
  | begun, [] => begun
  | begun, a :: s => if a = nl then unended [] s else unended (begun ++ [a]) s

variable {nl} {a : α} {begun d s t : List α}

@[simp] theorem ended_nil : ended nl begun [] = [] := rfl

@[simp] theorem unended_nil : unended nl begun [] = begun := rfl

@[simp] theorem ended_nl : ended nl begun (nl :: s) = begun :: ended nl [] s := if_pos rfl

@[simp] theorem unended_nl : unended nl begun (nl :: s) = unended nl [] s := if_pos rfl

@[simp] theorem ended_cons (h : a ≠ nl) :
    ended nl begun (a :: s) = ended nl (begun ++ [a]) s := if_neg h

@[simp] theorem unended_cons (h : a ≠ nl) :
    unended nl begun (a :: s) = unended nl (begun ++ [a]) s := if_neg h

/-- The stream is its lines, each with its end, and the line that has not ended. -/
theorem flatMap_ended_append_unended (begun s : List α) :
    (ended nl begun s).flatMap (· ++ [nl]) ++ unended nl begun s = begun ++ s := by
  induction s generalizing begun with
  | nil => simp
  | cons a s ih =>
    by_cases h : a = nl
    · subst h
      simp [ih]
    · simp [h, ih]

theorem not_mem_unended (hb : nl ∉ begun) : nl ∉ unended nl begun s := by
  induction s generalizing begun with
  | nil => exact hb
  | cons a s ih =>
    by_cases h : a = nl
    · subst h
      simpa using ih List.not_mem_nil
    · rw [unended_cons h]
      exact ih (by simpa [hb] using Ne.symm h)

theorem ended_of_not_mem (h : nl ∉ s) : ended nl begun s = [] := by
  induction s generalizing begun with
  | nil => rfl
  | cons a s ih =>
    obtain ⟨ha, hs⟩ : nl ≠ a ∧ nl ∉ s := by simpa using h
    rw [ended_cons (Ne.symm ha), ih hs]

theorem unended_of_not_mem (h : nl ∉ s) : unended nl begun s = begun ++ s := by
  induction s generalizing begun with
  | nil => simp
  | cons a s ih =>
    obtain ⟨ha, hs⟩ : nl ≠ a ∧ nl ∉ s := by simpa using h
    rw [unended_cons (Ne.symm ha), ih hs, List.append_assoc, List.singleton_append]

/-! ### A stream that goes on -/

theorem ended_append : ended nl begun (s ++ t) =
    ended nl begun s ++ ended nl (unended nl begun s) t := by
  induction s generalizing begun with
  | nil => rfl
  | cons a s ih =>
    by_cases h : a = nl
    · subst h
      simp [ih]
    · simp [h, ih]

theorem unended_append : unended nl begun (s ++ t) = unended nl (unended nl begun s) t := by
  induction s generalizing begun with
  | nil => rfl
  | cons a s ih =>
    by_cases h : a = nl
    · subst h
      simp [ih]
    · simp [h, ih]

/-- Symbols in front of the first line make it longer. -/
theorem ended_append_left : ended nl (d ++ begun) s =
    match ended nl begun s with
    | [] => []
    | l :: ls => (d ++ l) :: ls := by
  induction s generalizing begun with
  | nil => rfl
  | cons a s ih =>
    by_cases h : a = nl
    · subst h
      simp
    · simp only [ended_cons h, List.append_assoc, ih]

/-- They stay in the line that has not ended, if none has. -/
theorem unended_append_left : unended nl (d ++ begun) s =
    if ended nl begun s = [] then d ++ unended nl begun s else unended nl begun s := by
  induction s generalizing begun with
  | nil => simp
  | cons a s ih =>
    by_cases h : a = nl
    · subst h
      simp
    · simp only [ended_cons h, unended_cons h, List.append_assoc, ih]

/-! ### Lengths -/

theorem length_unended_le : (unended nl begun s).length ≤ begun.length + s.length := by
  have h : ((ended nl begun s).flatMap (· ++ [nl]) ++ unended nl begun s).length =
      (begun ++ s).length := by rw [flatMap_ended_append_unended]
  simp only [List.length_append] at h
  omega

theorem length_lt_of_mem_ended : ∀ l ∈ ended nl begun s, l.length < begun.length + s.length := by
  induction s generalizing begun with
  | nil => simp
  | cons a s ih =>
    by_cases h : a = nl
    · subst h
      simp only [ended_nl, List.forall_mem_cons, List.length_cons]
      refine ⟨by omega, fun l hl => ?_⟩
      have := ih l hl
      simp only [List.length_nil] at this
      omega
    · rw [ended_cons h]
      intro l hl
      have := ih l hl
      simp only [List.length_append, List.length_singleton] at this
      simp only [List.length_cons]
      omega

end Lines

end Wsddn
