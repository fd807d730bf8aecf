import Wsddn.Stream.Consumer

/-!
# Consumers that recognize a language

A consumer that stops with the result `good` at the end of a word of `L`, and only there, and that
goes on exactly as long as what it has read can still become a word, *recognizes* `L`.  What has to
be proved of it is `Recognizes`: for the streams in a domain `D`, that nothing else is accepted,
that nothing hopeless is read on, and that no beginning of a word stops it.  From this follows what
each of the three ways in which a run can end says about the stream:

* `Recognizes.good_iff` : it stops with `good` after `n` symbols exactly if these are a word.
* `Recognizes.bad_iff` : it stops with another result after `n` symbols exactly if these are the
  first `n` symbols that no word begins with.
* `Recognizes.none_iff` : it does not stop exactly if the stream is a proper beginning of a word.
-/

namespace Wsddn

namespace Consumer

variable {σ α ρ : Type*} {C : Consumer σ α ρ}

/-- A run stops at a symbol, after a beginning of the stream on which it does not stop. -/
theorem run_eq_some_iff {s t : σ} {as rest : List α} {r : ρ} :
    C.run s as = (t, some r, rest) ↔
      ∃ pre a u, as = pre ++ a :: rest ∧ C.run s pre = (u, none, []) ∧
        C.step u a = (t, some r) := by
  constructor
  · intro h
    induction as generalizing s with
    | nil => simp at h
    | cons a as ih =>
      rcases ht : C.step s a with ⟨u, _ | r'⟩
      · rw [run_cons_of_none ht] at h
        obtain ⟨pre, b, v, rfl, hv, hb⟩ := ih h
        exact ⟨a :: pre, b, v, rfl, by rw [run_cons_of_none ht, hv], hb⟩
      · rw [run_cons_of_some ht] at h
        obtain ⟨rfl, hr, rfl⟩ : u = t ∧ some r' = some r ∧ as = rest := by simpa using h
        exact ⟨[], a, s, rfl, rfl, hr ▸ ht⟩
  · rintro ⟨pre, a, u, rfl, hu, ha⟩
    rw [run_append_of_none (a :: rest) hu, run_cons_of_some ha]

/-- `C`, started in `s`, recognizes `L` on the streams in `D`. -/
structure Recognizes (C : Consumer σ α ρ) (s : σ) (good : ρ) (L D : List α → Prop) : Prop where
  /-- `D` is about the beginning of a stream. -/
  prefix_mem : ∀ as bs, D (as ++ bs) → D as
  /-- Only words are accepted. -/
  sound : ∀ as t, D as → C.run s as = (t, some good, []) → L as
  /-- What is read on can become a word. -/
  viable : ∀ as t, D as → C.run s as = (t, none, []) → ∃ bs, bs ≠ [] ∧ L (as ++ bs)
  /-- The beginning of a word is read on, and a word is accepted. -/
  complete : ∀ as bs, D as → L (as ++ bs) →
    ∃ t, C.run s as = (t, if bs = [] then some good else none, [])

namespace Recognizes

variable {s : σ} {good : ρ} {L D : List α → Prop} {as : List α} {n : ℕ}

theorem good_iff (h : C.Recognizes s good L D) (hD : D as) :
    (∃ t, C.run s as = (t, some good, as.drop n)) ↔ L (as.take n) := by
  have hD' : D (as.take n) := h.prefix_mem _ (as.drop n) (by rwa [List.take_append_drop])
  constructor
  · rintro ⟨t, ht⟩
    obtain ⟨pre, a, u, he, hu, ha⟩ := run_eq_some_iff.1 ht
    have htake : as.take n = pre ++ [a] :=
      List.append_cancel_right ((List.take_append_drop n as).trans (he.trans (List.append_cons ..)))
    refine h.sound _ t hD' ?_
    rw [htake]
    exact run_eq_some_iff.2 ⟨pre, a, u, rfl, hu, ha⟩
  · intro hL
    obtain ⟨t, ht⟩ := h.complete (as.take n) [] hD' (by rwa [List.append_nil])
    rw [if_pos rfl] at ht
    refine ⟨t, ?_⟩
    rw [← List.take_append_drop n as, run_append_of_some _ ht, List.nil_append,
      List.take_append_drop]

theorem none_iff (h : C.Recognizes s good L D) (hD : D as) :
    (∃ t, C.run s as = (t, none, [])) ↔ ∃ bs, bs ≠ [] ∧ L (as ++ bs) := by
  constructor
  · rintro ⟨t, ht⟩
    exact h.viable as t hD ht
  · rintro ⟨bs, hne, hL⟩
    obtain ⟨t, ht⟩ := h.complete as bs hD hL
    rw [if_neg hne] at ht
    exact ⟨t, ht⟩

theorem bad_iff (h : C.Recognizes s good L D) (hD : D as) (hn : n ≤ as.length) :
    (∃ t r, r ≠ good ∧ C.run s as = (t, some r, as.drop n)) ↔
      0 < n ∧ (∃ bs, bs ≠ [] ∧ L (as.take (n - 1) ++ bs)) ∧ ∀ bs, ¬ L (as.take n ++ bs) := by
  have hDk : ∀ k, D (as.take k) := fun k =>
    h.prefix_mem _ (as.drop k) (by rwa [List.take_append_drop])
  constructor
  · rintro ⟨t, r, hr, ht⟩
    obtain ⟨pre, a, u, he, hu, ha⟩ := run_eq_some_iff.1 ht
    have htake : as.take n = pre ++ [a] :=
      List.append_cancel_right ((List.take_append_drop n as).trans (he.trans (List.append_cons ..)))
    have hlen : n = pre.length + 1 := by
      have := congrArg List.length htake
      simpa [hn] using this
    have hpre : as.take (n - 1) = pre := by
      rw [he, hlen]
      simp
    refine ⟨by omega, ?_, fun bs hL => ?_⟩
    · rw [hpre]
      exact h.viable pre u (hpre ▸ hDk (n - 1)) hu
    · -- a word would have been read on, or accepted
      obtain ⟨v, hv⟩ := h.complete _ bs (hDk n) hL
      rw [htake, run_append_of_none [a] hu, run_cons_of_some ha] at hv
      split_ifs at hv
      · exact hr (by simpa using congrArg (fun x => x.2.1) hv)
      · simp at hv
  · rintro ⟨hpos, ⟨bs, hne, hL⟩, hno⟩
    obtain ⟨u, hu⟩ := h.complete _ bs (hDk (n - 1)) hL
    rw [if_neg hne] at hu
    obtain ⟨m, rfl⟩ : ∃ m, n = m + 1 := ⟨n - 1, by omega⟩
    rw [Nat.add_sub_cancel] at hu
    have hsplit : as.take m ++ as.get ⟨m, hn⟩ :: as.drop (m + 1) = as := by
      rw [List.get_eq_getElem, ← List.drop_eq_getElem_cons, List.take_append_drop]
    have htake : as.take (m + 1) = as.take m ++ [as.get ⟨m, hn⟩] := by
      rw [List.take_add_one]
      simp [List.getElem?_eq_getElem hn]
    rcases ha : C.step u (as.get ⟨m, hn⟩) with ⟨t, _ | r⟩
    · -- what is read on can become a word
      have ht : C.run s (as.take (m + 1)) = (t, none, []) := by
        rw [htake, run_append_of_none _ hu, run_cons_of_none ha, run_nil]
      obtain ⟨bs', -, hL'⟩ := h.viable _ t (hDk (m + 1)) ht
      exact absurd hL' (hno bs')
    · refine ⟨t, r, ?_, ?_⟩
      · rintro rfl
        have ht : C.run s (as.take (m + 1)) = (t, some r, []) := by
          rw [htake, run_append_of_none _ hu, run_cons_of_some ha]
        exact hno [] (by rw [List.append_nil]; exact h.sound _ t (hDk (m + 1)) ht)
      · exact run_eq_some_iff.2 ⟨as.take m, as.get ⟨m, hn⟩, u, hsplit.symm, hu, ha⟩

end Recognizes

end Consumer

end Wsddn
