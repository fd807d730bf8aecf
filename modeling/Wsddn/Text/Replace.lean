import Mathlib.Data.List.Induction

/-!
# Replacing a mark

All occurrences of a string in another one are replaced, from left to right, and what was put in is
not looked at again.  A mark has two different characters, such as `%h`.

* `replaceAll_encode` : in a text in which every `a` begins the mark, the marks are replaced.
* `not_mem_replaceAll_iff` : **when no first character of the mark is left.**
-/

namespace Wsddn

namespace Replace

variable {α : Type*}

/-- What follows after the first `skip` characters, with the occurrences of `old` replaced. -/
def replaceFrom [DecidableEq α] (old new : List α) : ℕ → List α → List α
  | _, [] => []
  | skip + 1, _ :: cs => replaceFrom old new skip cs
  | 0, c :: cs =>
    if old.isPrefixOf (c :: cs) then new ++ replaceFrom old new (old.length - 1) cs
    else c :: replaceFrom old new 0 cs

/-- All occurrences of `old` are replaced by `new`. -/
def replaceAll [DecidableEq α] (old new str : List α) : List α := replaceFrom old new 0 str

/-- A text with marks (`none`) in it. -/
def encode (a b : α) (tokens : List (Option α)) : List α :=
  tokens.flatMap fun
    | none => [a, b]
    | some c => [c]

/-- The text with something in place of the marks. -/
def expand (new : List α) (tokens : List (Option α)) : List α :=
  tokens.flatMap fun
    | none => new
    | some c => [c]

section Mark

variable {a b c : α} {new str : List α} {tokens : List (Option α)}

@[simp] theorem encode_none : encode a b (none :: tokens) = a :: b :: encode a b tokens := rfl

@[simp] theorem encode_some : encode a b (some c :: tokens) = c :: encode a b tokens := rfl

@[simp] theorem expand_none : expand new (none :: tokens) = new ++ expand new tokens := rfl

@[simp] theorem expand_some : expand new (some c :: tokens) = c :: expand new tokens := rfl

theorem mem_expand_iff :
    c ∈ expand new tokens ↔ none ∈ tokens ∧ c ∈ new ∨ some c ∈ tokens := by
  induction tokens with
  | nil => simp [expand]
  | cons token tokens ih =>
    cases token with
    | none =>
      rw [expand_none, List.mem_append, ih]
      simp only [List.mem_cons, true_or, true_and, reduceCtorEq, false_or]
      tauto
    | some d =>
      rw [expand_some, List.mem_cons, ih]
      simp only [List.mem_cons, reduceCtorEq, false_or, Option.some.injEq]
      tauto

variable [DecidableEq α]

@[simp] theorem replaceAll_nil : replaceAll [a, b] new [] = [] := rfl

@[simp] theorem replaceAll_mark :
    replaceAll [a, b] new (a :: b :: str) = new ++ replaceAll [a, b] new str := by
  simp [replaceAll, replaceFrom]

theorem replaceAll_cons (h : ¬ (c = a ∧ str.head? = some b)) :
    replaceAll [a, b] new (c :: str) = c :: replaceAll [a, b] new str := by
  have hpre : ([a, b].isPrefixOf (c :: str)) = false := by
    rw [Bool.eq_false_iff, Ne, List.isPrefixOf_iff_prefix]
    rintro ⟨rest, hrest⟩
    obtain ⟨rfl, rfl⟩ := List.cons.inj hrest
    exact h ⟨rfl, rfl⟩
  rw [replaceAll, replaceFrom, hpre]
  rfl

/-- **The marks are replaced.** -/
theorem replaceAll_encode (h : some a ∉ tokens) :
    replaceAll [a, b] new (encode a b tokens) = expand new tokens := by
  induction tokens with
  | nil => rfl
  | cons token tokens ih =>
    obtain ⟨hne, htokens⟩ := not_or.1 (mt List.mem_cons.2 h)
    cases token with
    | none => rw [encode_none, expand_none, replaceAll_mark, ih htokens]
    | some c =>
      rw [encode_some, expand_some, replaceAll_cons fun hc => hne (by rw [hc.1]), ih htokens]

/-- **When no first character of the mark is left**: if each of them was part of a mark, and there
is none in what is put in. -/
theorem not_mem_replaceAll_iff :
    a ∉ replaceAll [a, b] new str ↔
      ∃ tokens, some a ∉ tokens ∧ str = encode a b tokens ∧ (none ∈ tokens → a ∉ new) := by
  constructor
  · intro hnot
    induction str using List.twoStepInduction with
    | nil => exact ⟨[], List.not_mem_nil, rfl, fun h => absurd h List.not_mem_nil⟩
    | singleton c =>
      rw [replaceAll_cons (by simp)] at hnot
      have hc : a ≠ c := List.ne_of_not_mem_cons hnot
      exact ⟨[some c], by simpa using hc, rfl, by simp⟩
    | cons_cons c d str ih ih' =>
      by_cases h : c = a ∧ d = b
      · obtain ⟨rfl, rfl⟩ := h
        rw [replaceAll_mark, List.mem_append, not_or] at hnot
        obtain ⟨tokens, htokens, rfl, -⟩ := ih hnot.2
        exact ⟨none :: tokens, by simpa using htokens, rfl, fun _ => hnot.1⟩
      · rw [replaceAll_cons (by simpa using h), List.mem_cons, not_or] at hnot
        obtain ⟨tokens, htokens, hstr, hnew⟩ := ih' d hnot.2
        refine ⟨some c :: tokens, ?_, congrArg (c :: ·) hstr, ?_⟩
        · simpa [hnot.1] using htokens
        · simpa using hnew
  · rintro ⟨tokens, htokens, rfl, hnew⟩
    rw [replaceAll_encode htokens, mem_expand_iff]
    rintro (⟨hmark, ha⟩ | ha)
    · exact hnew hmark ha
    · exact htokens ha

end Mark

end Replace

end Wsddn
