import Mathlib.Data.List.Basic
import Mathlib.Data.Option.Basic

/-!
# Event-driven machines

Everything the daemon does is a reaction to an event: a completion handler run by the event loop,
a system call of one process among many, the delivery of a signal.  A `Machine` is the common
shape: a set of initial states and a partial function `step` from a state and an event to the
next state, `none` when the event cannot happen there.  Choices of the environment (the result of
a system call, the inode the kernel picks) are part of the event, so `step` stays executable and
a concrete run can be evaluated.

## Main definitions

* `Machine.run s ls` : the state after the events `ls`, if they can all happen in this order.
* `Machine.Reachable s` : `s` is the end of a run from an initial state.
* `Machine.Always P s ls` : `P` holds in every state that the run `ls` from `s` goes through.
* `Machine.Along ok s ls` : every event of the run `ls` happens in a state that allows it
  (`ok s l`): a condition on the state before each step.
* `Machine.withHistory` : the machine with a history variable, which observes the run and does
  not influence it.

## Main results

* `Machine.Reachable.invariant` : the invariant rule.
* `Machine.always_of_along` : the invariant rule for the runs that obey a step condition.
* `Machine.done_of_rank` : termination by a rank.
* `Machine.always_iff_along` : when breaking the condition breaks the property at once, the
  property holds along a run exactly if every step obeys the condition.
-/

namespace Wsddn

/-- A machine with states `S` and events `L`. -/
structure Machine (S L : Type*) where
  /-- The states a run starts in. -/
  init : S → Prop
  /-- The state after the event, `none` if the event cannot happen. -/
  step : S → L → Option S

namespace Machine

variable {S L H : Type*} (M : Machine S L)

/-- The state after the events `ls`, one after the other. -/
def run : S → List L → Option S
  | s, [] => some s
  | s, l :: ls => (M.step s l).bind fun t => run t ls

/-- `s` is the end of a run from an initial state. -/
def Reachable (s : S) : Prop := ∃ s₀ ls, M.init s₀ ∧ M.run s₀ ls = some s

/-- `P` holds in every state the run `ls` goes through, the first and the last included. -/
def Always (P : S → Prop) : S → List L → Prop
  | s, [] => P s
  | s, l :: ls => P s ∧ ∀ t, M.step s l = some t → Always P t ls

/-- Every event of `ls` happens in a state where `ok` allows it. -/
def Along (ok : S → L → Prop) : S → List L → Prop
  | _, [] => True
  | s, l :: ls => ok s l ∧ ∀ t, M.step s l = some t → Along ok t ls

/-- A run is finite, so the events can be checked one by one. -/
instance decidableAlong {ok : S → L → Prop} [∀ s l, Decidable (ok s l)] :
    ∀ (s : S) (ls : List L), Decidable (M.Along ok s ls)
  | _, [] => isTrue trivial
  | s, l :: ls =>
    have : ∀ t, Decidable (M.Along ok t ls) := fun t => decidableAlong t ls
    inferInstanceAs (Decidable (ok s l ∧ ∀ t ∈ M.step s l, M.Along ok t ls))

/-- The machine together with a history variable: `upd h s l` is its value after the event `l`
in state `s`. -/
def withHistory (h₀ : H) (upd : H → S → L → H) : Machine (S × H) L where
  init x := M.init x.1 ∧ x.2 = h₀
  step x l := (M.step x.1 l).map fun t => (t, upd x.2 x.1 l)

variable {M}

@[simp] theorem run_nil (s : S) : M.run s [] = some s := rfl

theorem run_cons (s : S) (l : L) (ls : List L) :
    M.run s (l :: ls) = (M.step s l).bind fun t => M.run t ls := rfl

theorem run_cons_eq_some {s s' : S} {l : L} {ls : List L} :
    M.run s (l :: ls) = some s' ↔ ∃ t, M.step s l = some t ∧ M.run t ls = some s' := by
  rw [run_cons, Option.bind_eq_some_iff]

theorem run_append (s : S) (ls ls' : List L) :
    M.run s (ls ++ ls') = (M.run s ls).bind fun t => M.run t ls' := by
  induction ls generalizing s with
  | nil => rfl
  | cons l ls ih =>
    rw [List.cons_append, run_cons, run_cons, Option.bind_assoc]
    congr 1
    funext t
    exact ih t

theorem run_append_eq_some {s s' : S} {ls ls' : List L} :
    M.run s (ls ++ ls') = some s' ↔ ∃ t, M.run s ls = some t ∧ M.run t ls' = some s' := by
  rw [run_append, Option.bind_eq_some_iff]

/-- The last step of a run. -/
theorem run_concat_eq_some {s s' : S} {ls : List L} {l : L} :
    M.run s (ls ++ [l]) = some s' ↔ ∃ t, M.run s ls = some t ∧ M.step t l = some s' := by
  rw [run_append_eq_some]
  constructor
  · rintro ⟨t, hr, hl⟩
    obtain ⟨u, hst, hu⟩ := run_cons_eq_some.1 hl
    rw [run_nil, Option.some.injEq] at hu
    exact ⟨t, hr, hu ▸ hst⟩
  · rintro ⟨t, hr, hst⟩
    exact ⟨t, hr, run_cons_eq_some.2 ⟨s', hst, rfl⟩⟩

theorem Reachable.step {s t : S} {l : L} (h : M.Reachable s) (hst : M.step s l = some t) :
    M.Reachable t := by
  obtain ⟨s₀, ls, h₀, hr⟩ := h
  exact ⟨s₀, ls ++ [l], h₀, run_concat_eq_some.2 ⟨s, hr, hst⟩⟩

/-- What every step preserves, every run preserves. -/
theorem run_invariant {I : S → Prop} (hstep : ∀ s l t, I s → M.step s l = some t → I t) :
    ∀ {ls : List L} {s s' : S}, I s → M.run s ls = some s' → I s' := by
  intro ls
  induction ls with
  | nil =>
    intro s s' hs h
    rw [run_nil, Option.some.injEq] at h
    exact h ▸ hs
  | cons l ls ih =>
    intro s s' hs h
    obtain ⟨t, hst, hr⟩ := run_cons_eq_some.1 h
    exact ih (hstep _ _ _ hs hst) hr

/-- **The invariant rule**: what holds initially and is preserved by every step holds in every
reachable state. -/
theorem Reachable.invariant {I : S → Prop} {s : S} (h : M.Reachable s)
    (hinit : ∀ s, M.init s → I s) (hstep : ∀ s l t, I s → M.step s l = some t → I t) : I s := by
  obtain ⟨s₀, ls, h₀, hr⟩ := h
  exact run_invariant hstep (hinit _ h₀) hr

theorem Always.head {P : S → Prop} {s : S} {ls : List L} (h : M.Always P s ls) : P s := by
  cases ls with
  | nil => exact h
  | cons l ls => exact h.1

/-- `Always` in terms of the states reached by the prefixes of the run. -/
theorem always_iff_forall {P : S → Prop} {s : S} {ls : List L} :
    M.Always P s ls ↔ ∀ pre post t, ls = pre ++ post → M.run s pre = some t → P t := by
  induction ls generalizing s with
  | nil =>
    constructor
    · intro h pre post t he hr
      obtain ⟨rfl, rfl⟩ := List.append_eq_nil_iff.1 he.symm
      rw [run_nil, Option.some.injEq] at hr
      exact hr ▸ h
    · intro h
      exact h [] [] s rfl rfl
  | cons l ls ih =>
    constructor
    · intro h pre post t he hr
      cases pre with
      | nil =>
        rw [run_nil, Option.some.injEq] at hr
        exact hr ▸ h.1
      | cons l' pre =>
        obtain ⟨rfl, rfl⟩ := List.cons.inj he
        obtain ⟨u, hst, hr⟩ := run_cons_eq_some.1 hr
        exact ih.1 (h.2 u hst) pre post t rfl hr
    · intro h
      refine ⟨h [] _ s rfl rfl, fun t hst => ih.2 fun pre post u he hr => ?_⟩
      exact h (l :: pre) post u (by rw [he, List.cons_append])
        (run_cons_eq_some.2 ⟨t, hst, hr⟩)

/-- A property of all states of a run holds at its end. -/
theorem Always.last {P : S → Prop} {s s' : S} {ls : List L} (h : M.Always P s ls)
    (hr : M.run s ls = some s') : P s' :=
  always_iff_forall.1 h ls [] s' (List.append_nil ls).symm hr

/-- What no step restores holds all along a run if it holds at the end. -/
theorem always_of_last {P : S → Prop} (hback : ∀ s l t, M.step s l = some t → P t → P s) :
    ∀ {ls : List L} {s s' : S}, M.run s ls = some s' → P s' → M.Always P s ls := by
  intro ls
  induction ls with
  | nil =>
    intro s s' hr hs'
    rw [run_nil, Option.some.injEq] at hr
    exact hr ▸ hs'
  | cons l ls ih =>
    intro s s' hr hs'
    obtain ⟨t, hst, hr⟩ := run_cons_eq_some.1 hr
    have ht := ih hr hs'
    refine ⟨hback s l t hst ht.head, fun u hu => ?_⟩
    obtain rfl : t = u := Option.some.inj (hst.symm.trans hu)
    exact ht

theorem Always.mono {P Q : S → Prop} (hPQ : ∀ s, P s → Q s) {s : S} {ls : List L}
    (h : M.Always P s ls) : M.Always Q s ls := by
  rw [always_iff_forall] at h ⊢
  exact fun pre post t he hr => hPQ t (h pre post t he hr)

/-- **The invariant rule for runs that obey a step condition**: an invariant that the steps
allowed by `ok` preserve holds in every state of a run that obeys `ok`. -/
theorem always_of_along {ok : S → L → Prop} {I : S → Prop}
    (hstep : ∀ s l t, I s → ok s l → M.step s l = some t → I t) :
    ∀ {ls : List L} {s : S}, I s → M.Along ok s ls → M.Always I s ls := by
  intro ls
  induction ls with
  | nil => exact fun hs _ => hs
  | cons l ls ih =>
    intro s hs h
    exact ⟨hs, fun t hst => ih (hstep s l t hs h.1 hst) (h.2 t hst)⟩

/-- A condition on steps that follows from a property of the states before and after. -/
theorem Always.along {ok : S → L → Prop} {P : S → Prop}
    (h : ∀ s l, P s → (∀ t, M.step s l = some t → P t) → ok s l) :
    ∀ {ls : List L} {s : S}, M.Always P s ls → M.Along ok s ls := by
  intro ls
  induction ls with
  | nil => exact fun _ => trivial
  | cons l ls ih =>
    intro s hs
    exact ⟨h s l hs.1 fun t hst => (hs.2 t hst).head, fun t hst => ih (hs.2 t hst)⟩

/-- Events that are allowed everywhere are allowed along every run. -/
theorem along_of_forall {ok : S → L → Prop} {ls : List L} (h : ∀ l ∈ ls, ∀ s, ok s l) (s : S) :
    M.Along ok s ls := by
  induction ls generalizing s with
  | nil => trivial
  | cons l ls ih =>
    exact ⟨h l List.mem_cons_self s,
      fun t _ => ih (fun l' hl' => h l' (List.mem_cons_of_mem _ hl')) t⟩

/-- If a step that breaks the condition always leads out of `P`, a run that stays in `P` obeys
the condition.  `I` is an invariant that comes with `P`. -/
theorem along_of_always {ok : S → L → Prop} {I P : S → Prop}
    (hstep : ∀ s l t, I s → P s → M.step s l = some t → P t → I t)
    (hbreak : ∀ s l t, I s → P s → M.step s l = some t → ¬ ok s l → ¬ P t) :
    ∀ {ls : List L} {s s' : S}, I s → M.run s ls = some s' → M.Always P s ls →
      M.Along ok s ls := by
  intro ls
  induction ls with
  | nil => exact fun _ _ _ => trivial
  | cons l ls ih =>
    intro s s' hs hr h
    obtain ⟨t, hst, hr⟩ := run_cons_eq_some.1 hr
    have hPt : P t := (h.2 t hst).head
    refine ⟨?_, fun u hu => ?_⟩
    · by_contra hok
      exact hbreak s l t hs h.1 hst hok hPt
    · obtain rfl : t = u := Option.some.inj (hst.symm.trans hu)
      exact ih (hstep s l t hs h.1 hst hPt) hr (h.2 t hst)

/-- **The exact condition for a run.**  An invariant `I` that gives `P` is preserved by the steps
that `ok` allows, and every other step leads out of `P`: then `P` holds all along a run exactly if
the run obeys `ok`. -/
theorem always_iff_along {ok : S → L → Prop} {I P : S → Prop} (hIP : ∀ s, I s → P s)
    (hstep : ∀ s l t, I s → ok s l → M.step s l = some t → I t)
    (hbreak : ∀ s l t, I s → M.step s l = some t → ¬ ok s l → ¬ P t)
    {ls : List L} {s s' : S} (hs : I s) (hr : M.run s ls = some s') :
    M.Always P s ls ↔ M.Along ok s ls := by
  constructor
  · refine along_of_always (I := I) (fun s l t hI _ hst hPt => ?_)
      (fun s l t hI _ hst => hbreak s l t hI hst) hs hr
    by_cases hok : ok s l
    · exact hstep s l t hI hok hst
    · exact absurd hPt (hbreak s l t hI hst hok)
  · exact fun h => (always_of_along hstep hs h).mono hIP

/-- Two conditions on steps that agree on the steps of a run, as far as the first of them holds,
agree on the run.  `env` is what the environment promises about every step. -/
theorem along_iff_along {env A B : S → L → Prop} {I : S → Prop}
    (hiff : ∀ s l, I s → env s l → (A s l ↔ B s l))
    (hstep : ∀ s l t, I s → env s l → A s l → M.step s l = some t → I t) :
    ∀ {ls : List L} {s : S}, I s → M.Along env s ls → (M.Along A s ls ↔ M.Along B s ls) := by
  intro ls
  induction ls with
  | nil => exact fun _ _ => Iff.rfl
  | cons l ls ih =>
    intro s hs henv
    have hl := hiff s l hs henv.1
    constructor
    · intro h
      exact ⟨hl.1 h.1, fun t hst =>
        (ih (hstep s l t hs henv.1 h.1 hst) (henv.2 t hst)).1 (h.2 t hst)⟩
    · intro h
      exact ⟨hl.2 h.1, fun t hst =>
        (ih (hstep s l t hs henv.1 (hl.2 h.1) hst) (henv.2 t hst)).2 (h.2 t hst)⟩

/-- **Termination by a rank.**  Every event the machine takes by itself (`internal`) brings a run
that obeys `ok` closer to its end `D`, and no other event takes it back: then a run with as many
internal events as the rank tells has come to its end. -/
theorem done_of_rank {ok : S → L → Prop} {I D : S → Prop} {internal : L → Bool} (rank : S → ℕ)
    (hstep : ∀ s l t, I s → ok s l → M.step s l = some t → I t)
    (hrank : ∀ s l t, I s → ok s l → M.step s l = some t → ¬ D s →
      D t ∨ rank t + (if internal l = true then 1 else 0) ≤ rank s)
    (hpos : ∀ s, I s → ¬ D s → 0 < rank s)
    (hdone : ∀ s l t, D s → M.step s l = some t → D t) :
    ∀ {ls : List L} {s s' : S}, I s → M.Along ok s ls → M.run s ls = some s' →
      rank s ≤ ls.countP internal → D s' := by
  intro ls
  induction ls with
  | nil =>
    intro s s' hI _ hr hle
    rw [run_nil, Option.some.injEq] at hr
    subst hr
    by_contra hd
    have := hpos s hI hd
    simp only [List.countP_nil] at hle
    omega
  | cons l ls ih =>
    intro s s' hI hok hr hle
    obtain ⟨t, hst, hr⟩ := run_cons_eq_some.1 hr
    have hover : D t → D s' := fun hd => run_invariant hdone hd hr
    by_cases hd : D s
    · exact hover (hdone s l t hd hst)
    · rcases hrank s l t hI hok.1 hst hd with hd' | hlt
      · exact hover hd'
      · refine ih (hstep s l t hI hok.1 hst) (hok.2 t hst) hr ?_
        rw [List.countP_cons] at hle
        omega

/-- A run has no more internal events than the rank of its first state tells. -/
theorem countP_add_rank_le {I : S → Prop} {internal : L → Bool} (rank : S → ℕ)
    (hstep : ∀ s l t, I s → M.step s l = some t → I t)
    (hrank : ∀ s l t, I s → M.step s l = some t →
      rank t + (if internal l = true then 1 else 0) ≤ rank s) :
    ∀ {ls : List L} {s s' : S}, I s → M.run s ls = some s' →
      ls.countP internal + rank s' ≤ rank s := by
  intro ls
  induction ls with
  | nil =>
    intro s s' _ hr
    rw [run_nil, Option.some.injEq] at hr
    simp [hr]
  | cons l ls ih =>
    intro s s' hI hr
    obtain ⟨t, hst, hr⟩ := run_cons_eq_some.1 hr
    have hle := ih (hstep s l t hI hst) hr
    have hlt := hrank s l t hI hst
    rw [List.countP_cons]
    omega

/-! ### History variables -/

section History

variable {h₀ : H} {upd : H → S → L → H}

theorem withHistory_step_eq_some {x y : S × H} {l : L} :
    (M.withHistory h₀ upd).step x l = some y ↔ M.step x.1 l = some y.1 ∧ y.2 = upd x.2 x.1 l := by
  obtain ⟨t, h⟩ := y
  simp only [withHistory, Option.map_eq_some_iff, Prod.mk.injEq]
  constructor
  · rintro ⟨u, hu, rfl, rfl⟩
    exact ⟨hu, rfl⟩
  · rintro ⟨hu, rfl⟩
    exact ⟨t, hu, rfl, rfl⟩

end History

end Machine

end Wsddn
