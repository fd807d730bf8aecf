import Mathlib.Data.List.Basic

/-!
# Consumers of a stream that arrives in pieces

A *consumer* reads a stream one symbol at a time and, after each symbol, either goes on or stops
with a result.  A byte-at-a-time parser is one.  The stream arrives in pieces (the reads of a
socket), and the question is always whether the way it was cut can be seen in the result.

* `Consumer.run s as` : the consumer on one piece: the state, the result if it stopped, and the
  symbols it has not read.
* `Consumer.run_append` : on `as ++ bs` the consumer does what it does on `as` and then, if it
  did not stop, on `bs`.
* `Consumer.runReads` : the consumer on a list of pieces.
* `Consumer.run_length_lt` : a consumer that stops has read at least one symbol.
-/

namespace Wsddn

/-- A consumer with states `σ`, symbols `α` and results `ρ`. -/
structure Consumer (σ α ρ : Type*) where
  /-- One symbol: the next state and, if the consumer stops, its result. -/
  step : σ → α → σ × Option ρ

namespace Consumer

variable {σ α ρ : Type*} (C : Consumer σ α ρ)

/-- Read symbols until the consumer stops or the piece ends.  The last component is what was not
read. -/
def run : σ → List α → σ × Option ρ × List α
  | s, [] => (s, none, [])
  | s, a :: as =>
    match C.step s a with
    | (s', some r) => (s', some r, as)
    | (s', none) => run s' as

/-- The consumer on a list of pieces.  When it stops inside a piece, the rest of that piece comes
first in what was not read. -/
def runReads : σ → List (List α) → σ × Option ρ × List (List α)
  | s, [] => (s, none, [])
  | s, as :: rs =>
    match C.run s as with
    | (s', some r, rest) => (s', some r, rest :: rs)
    | (s', none, _) => runReads s' rs

variable {C}

@[simp] theorem run_nil (s : σ) : C.run s [] = (s, none, []) := rfl

theorem run_cons_of_some {s s' : σ} {a : α} {as : List α} {r : ρ}
    (h : C.step s a = (s', some r)) : C.run s (a :: as) = (s', some r, as) := by
  simp only [run, h]

theorem run_cons_of_none {s s' : σ} {a : α} {as : List α} (h : C.step s a = (s', none)) :
    C.run s (a :: as) = C.run s' as := by
  simp only [run, h]

/-- A consumer that does not stop reads the whole piece. -/
theorem rest_eq_nil_of_run_none {s s' : σ} {as rest : List α}
    (h : C.run s as = (s', none, rest)) : rest = [] := by
  induction as generalizing s with
  | nil =>
    simp only [run_nil, Prod.mk.injEq, true_and] at h
    exact h.2.symm
  | cons a as ih =>
    rcases ht : C.step s a with ⟨t, o⟩
    cases o with
    | some r => simp [run_cons_of_some ht] at h
    | none => exact ih (run_cons_of_none ht ▸ h)

/-- A consumer that stops has read at least one symbol. -/
theorem run_length_lt {s s' : σ} {as rest : List α} {r : ρ}
    (h : C.run s as = (s', some r, rest)) : rest.length < as.length := by
  induction as generalizing s with
  | nil => simp at h
  | cons a as ih =>
    rcases ht : C.step s a with ⟨t, o⟩
    cases o with
    | some r' =>
      rw [run_cons_of_some ht] at h
      simp only [Prod.mk.injEq] at h
      rw [← h.2.2, List.length_cons]
      exact Nat.lt_succ_self _
    | none =>
      rw [run_cons_of_none ht] at h
      exact Nat.lt_succ_of_lt (ih h)

/-- The consumer goes on into the next piece from where it was. -/
theorem run_append_of_none {s s' : σ} {as rest : List α} (bs : List α)
    (h : C.run s as = (s', none, rest)) : C.run s (as ++ bs) = C.run s' bs := by
  induction as generalizing s with
  | nil =>
    simp only [run_nil, Prod.mk.injEq] at h
    rw [List.nil_append, h.1]
  | cons a as ih =>
    rcases ht : C.step s a with ⟨t, o⟩
    cases o with
    | some r => simp [run_cons_of_some ht] at h
    | none =>
      rw [run_cons_of_none ht] at h
      rw [List.cons_append, run_cons_of_none ht, ih h]

/-- Symbols after the place where the consumer stopped change nothing. -/
theorem run_append_of_some {s s' : σ} {as rest : List α} {r : ρ} (bs : List α)
    (h : C.run s as = (s', some r, rest)) :
    C.run s (as ++ bs) = (s', some r, rest ++ bs) := by
  induction as generalizing s with
  | nil => simp at h
  | cons a as ih =>
    rcases ht : C.step s a with ⟨t, o⟩
    cases o with
    | some r' =>
      rw [run_cons_of_some ht] at h
      simp only [Prod.mk.injEq, Option.some.injEq] at h
      obtain ⟨rfl, rfl, rfl⟩ := h
      rw [List.cons_append, run_cons_of_some ht]
    | none =>
      rw [run_cons_of_none ht] at h
      rw [List.cons_append, run_cons_of_none ht, ih h]

theorem runReads_cons_of_some {s s' : σ} {as rest : List α} {rs : List (List α)} {r : ρ}
    (h : C.run s as = (s', some r, rest)) :
    C.runReads s (as :: rs) = (s', some r, rest :: rs) := by
  simp only [runReads, h]

theorem runReads_cons_of_none {s s' : σ} {as rest : List α} {rs : List (List α)}
    (h : C.run s as = (s', none, rest)) : C.runReads s (as :: rs) = C.runReads s' rs := by
  simp only [runReads, h]

end Consumer

end Wsddn
