import Mathlib.Data.List.Induction

/-!
# Lawful logs

A log grows at its end.  A *law* says which entry may follow which log, and a log is lawful if every
entry of it was allowed when it was written.

* `lawful_concat` : one entry more.
* `Lawful.count_le` : an entry that is allowed only while there are fewer than `n` of it.
* `Lawful.split` : what the law says about any entry of the log.
-/

namespace Wsddn

variable {α : Type*} {law : List α → α → Prop} {log : List α} {a : α} {n : ℕ}

/-- Every entry was allowed by those before it. -/
def Lawful (law : List α → α → Prop) (log : List α) : Prop :=
  ∀ pre a post, log = pre ++ a :: post → law pre a

theorem lawful_nil : Lawful law [] := fun _ _ _ h => by simp at h

/-- The law for an entry of the log. -/
theorem Lawful.split {pre post : List α} (h : Lawful law (pre ++ a :: post)) : law pre a :=
  h pre a post rfl

theorem Lawful.of_append {more : List α} (h : Lawful law (log ++ more)) : Lawful law log :=
  fun pre a post he => h pre a (post ++ more) (by simp [he])

/-- One entry more. -/
theorem lawful_concat : Lawful law (log ++ [a]) ↔ Lawful law log ∧ law log a := by
  refine ⟨fun h => ⟨h.of_append, h.split⟩, fun ⟨h, ha⟩ pre b post he => ?_⟩
  -- the entry is the last one, or one of the log
  rcases List.eq_nil_or_concat post with rfl | ⟨post, c, rfl⟩
  · obtain ⟨rfl, hb⟩ := List.append_inj' he rfl
    exact List.singleton_inj.1 hb ▸ ha
  · have he : log ++ [a] = (pre ++ b :: post) ++ [c] := by simpa using he
    exact h pre b post (List.append_inj' he rfl).1

theorem lawful_singleton : Lawful law [a] ↔ law [] a :=
  (@lawful_concat _ law [] a).trans (and_iff_right lawful_nil)

/-- An entry that is allowed only while there are fewer than `n` of it. -/
theorem Lawful.count_le [DecidableEq α] (h : Lawful law log)
    (hlaw : ∀ pre, law pre a → pre.count a < n) : log.count a ≤ n := by
  induction log using List.reverseRecOn with
  | nil => simp
  | append_singleton log b ih =>
    obtain ⟨hlog, hb⟩ := lawful_concat.1 h
    by_cases hab : b = a
    · subst hab
      have := hlaw log hb
      rw [List.count_append, List.count_singleton_self]
      omega
    · rw [List.count_append, List.count_singleton, beq_eq_false_iff_ne.2 hab]
      simpa using ih hlog

end Wsddn
