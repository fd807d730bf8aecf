import Wsddn.PidFile.Protocol

/-!
# The PID file protocol is mutually exclusive

A process that has seen the path name the inode it has locked (`Proc.settled`) can rely on it:
the path can only be changed by the process that holds the lock on the file it names.

* `Inv` : the invariant; `Inv.step` says that every system call preserves it.  It is put together
  from one rule for each thing that a system call changes: `Inv.goto`, `Inv.acquire`,
  `Inv.release`, `Inv.setContent` and `Inv.setPath`.
* `pidFile_exclusive` : **at most one process holds the PID file**; while it does, the path names
  the file it has locked and this file contains its PID; and no destructor unlinks a file that
  another process has locked.
-/

namespace Wsddn

namespace PidFile

variable {n : ℕ} {I : Type*}

/-- The inode that the process `p` relies on its lock for. -/
def Proc.owns (p : Fin n) : Proc n I → Option I
  | .locked i | .checked i | .verified i | .truncated i => some i
  | .holding i l => if l = p then some i else none
  | _ => none

/-- The inode that the process `p` has seen the path name, with the lock on it. -/
def Proc.settled (p : Fin n) : Proc n I → Option I
  | .verified i | .truncated i => some i
  | .holding i l => if l = p then some i else none
  | _ => none

theorem Proc.owns_of_settled {p : Fin n} {x : Proc n I} {i : I} (h : x.settled p = some i) :
    x.owns p = some i := by
  cases x <;> simp_all [Proc.settled, Proc.owns]

theorem Proc.fd_of_owns {p : Fin n} {x : Proc n I} {i : I} (h : x.owns p = some i) :
    x.fd = some i := by
  cases x <;> simp_all [Proc.fd, Proc.owns]

namespace State

/-- The invariant of the protocol. -/
structure Inv (s : State n I) : Prop where
  owned : ∀ p i, (s.proc p).owns p = some i → s.lock i = some p
  named : ∀ p i, (s.proc p).settled p = some i → s.path = some i
  empty : ∀ p i, s.proc p = .truncated i → s.content i = []
  written : ∀ p i, s.proc p = .holding i p → s.content i = pidText p

namespace Inv

variable {s : State n I} {p : Fin n} {i : I}

/-- Two processes cannot rely on the same lock. -/
theorem eq_of_owns (hs : s.Inv) {q : Fin n} (hp : s.lock i = some p)
    (hq : (s.proc q).owns q = some i) : q = p :=
  Option.some.inj ((hs.owned q i hq).symm.trans hp)

/-- A process goes on to something that it can rely on. -/
theorem goto (hs : s.Inv) {x : Proc n I} (howns : ∀ i, x.owns p = some i → s.lock i = some p)
    (hnamed : ∀ i, x.settled p = some i → s.path = some i)
    (hempty : ∀ i, x = .truncated i → s.content i = [])
    (hwritten : ∀ i, x = .holding i p → s.content i = pidText p) : (s.goto p x).Inv := by
  have hproc : ∀ q, (s.goto p x).proc q = if q = p then x else s.proc q := by
    intro q
    by_cases hq : q = p <;> simp [State.goto, hq]
  constructor <;> intro q j hj <;> rw [hproc] at hj <;> split_ifs at hj with hq
  · exact hq ▸ howns j (hq ▸ hj)
  · exact hs.owned q j hj
  · exact hnamed j (hq ▸ hj)
  · exact hs.named q j hj
  · exact hempty j hj
  · exact hs.empty q j hj
  · exact hq ▸ hwritten j (hq ▸ hj)
  · exact hs.written q j hj

/-- A process goes on to something that relies on nothing. -/
theorem goto_none (hs : s.Inv) {x : Proc n I} (h : x.owns p = none) : (s.goto p x).Inv := by
  have hset : x.settled p = none := by
    cases hx : x.settled p with
    | none => rfl
    | some j => rw [Proc.owns_of_settled hx] at h; cases h
  refine hs.goto (by simp [h]) (by simp [hset]) ?_ ?_
  · rintro j rfl
    cases h
  · rintro j rfl
    simp [Proc.owns] at h

/-- The path changes while nobody relies on what it names. -/
theorem setPath (hs : s.Inv) (h : ∀ q, (s.proc q).settled q = none) (x : Option I) :
    Inv { s with path := x } := by
  refine ⟨hs.owned, fun q j hj => ?_, hs.empty, hs.written⟩
  exact absurd ((h q).symm.trans hj) (by simp)

variable [DecidableEq I]

/-- A lock that nobody has is taken. -/
theorem acquire (hs : s.Inv) (h : s.lock i = none) :
    Inv { s with lock := Function.update s.lock i (some p) } := by
  refine ⟨fun q j hj => ?_, hs.named, hs.empty, hs.written⟩
  have hlock := hs.owned q j hj
  have hne : j ≠ i := by
    rintro rfl
    rw [h] at hlock
    cases hlock
  simpa [hne] using hlock

/-- A lock that its holder does not rely on is dropped. -/
theorem release (hs : s.Inv) (h : (s.proc p).owns p ≠ some i) : (s.release p i).Inv := by
  refine ⟨fun q j hj => ?_, hs.named, hs.empty, hs.written⟩
  have hlock : s.lock j = some q := hs.owned q j hj
  by_cases hji : j = i
  · subst hji
    have hqp : q ≠ p := by
      rintro rfl
      exact h hj
    simp [State.release, hlock, hqp]
  · simpa [State.release, hji] using hlock

/-- A file that nobody relies on is written. -/
theorem setContent (hs : s.Inv) (h : ∀ q, (s.proc q).owns q ≠ some i) (text : List Char) :
    (s.setContent i text).Inv := by
  have hne : ∀ q j, (s.proc q).owns q = some j → j ≠ i := by
    rintro q j hj rfl
    exact h q hj
  refine ⟨hs.owned, hs.named, fun q j hj => ?_, fun q j hj => ?_⟩
  · have hji := hne q j (by rw [show s.proc q = .truncated j from hj]; rfl)
    simpa [State.setContent, hji] using hs.empty q j hj
  · have hji := hne q j (by rw [show s.proc q = .holding j q from hj]; simp [Proc.owns])
    simpa [State.setContent, hji] using hs.written q j hj

end Inv

variable {s t : State n I}

theorem goto_goto (p : Fin n) (x y : Proc n I) : (s.goto p x).goto p y = s.goto p y := by
  simp [State.goto]

/-- Nobody relies on the path, once the process that holds the file has given it up. -/
theorem settled_eq_none_of_goto (hs : s.Inv) {p : Fin n} {i : I}
    (hp : s.proc p = .holding i p) (q : Fin n) :
    ((s.goto p (.closing i false)).proc q).settled q = none := by
  have hown : (s.proc p).owns p = some i := by simp [hp, Proc.owns]
  have hset : (s.proc p).settled p = some i := by simp [hp, Proc.settled]
  by_cases hq : q = p
  · subst hq
    simp [State.goto, Proc.settled]
  · cases hx : (s.proc q).settled q with
    | none => simpa [State.goto, hq] using hx
    | some j =>
      obtain rfl : i = j := Option.some.inj ((hs.named p i hset).symm.trans (hs.named q j hx))
      exact absurd (hs.eq_of_owns (hs.owned p i hown) (Proc.owns_of_settled hx)) hq

/-- Nobody relies on the lock of a process that is about to close its descriptor. -/
theorem owns_ne_of_goto (hs : s.Inv) {p : Fin n} {i : I} (hp : (s.proc p).owns p = some i)
    (again : Bool) (q : Fin n) :
    ((s.goto p (.closing i again)).proc q).owns q ≠ some i := by
  by_cases hq : q = p
  · subst hq
    simp [State.goto, Proc.owns]
  · intro hx
    exact hq (hs.eq_of_owns (hs.owned p i hp) (by simpa [State.goto, hq] using hx))

/-- The process that holds the file, or is about to, writes it and goes on. -/
theorem Inv.overwrite [DecidableEq I] (hs : s.Inv) {p : Fin n} {i : I} {x : Proc n I}
    (hp : (s.proc p).settled p = some i) (text : List Char)
    (hown : ∀ j, x.owns p = some j → j = i)
    (hempty : ∀ j, x = .truncated j → text = [])
    (hwritten : ∀ j, x = .holding j p → text = pidText p) :
    ((s.setContent i text).goto p x).Inv := by
  have hlock := hs.owned p i (Proc.owns_of_settled hp)
  -- between the two states the process relies on nothing, so the file can be written
  have hs' := (hs.goto_none (p := p) (x := .closing i false) rfl).setContent
    (owns_ne_of_goto hs (Proc.owns_of_settled hp) false) text
  have ht := hs'.goto (p := p) (x := x) ?_ ?_ ?_ ?_
  · exact goto_goto (s := s.setContent i text) p (.closing i false) x ▸ ht
  · intro j hj
    exact hown j hj ▸ hlock
  · intro j hj
    exact hown j (Proc.owns_of_settled hj) ▸ hs.named p i hp
  · rintro j rfl
    obtain rfl := hown j rfl
    simp [State.setContent, hempty]
  · rintro j rfl
    obtain rfl := hown j (by simp [Proc.owns])
    simp [State.setContent, hwritten]

/-- **Every system call preserves the invariant.** -/
theorem Inv.step [DecidableEq I] (hs : s.Inv) {e : Event n I} (h : s.step e = some t) : t.Inv := by
  cases e with
  | start p =>
    simp only [State.step] at h
    split at h <;> cases h
    exact hs.goto_none rfl
  | «open» p i =>
    simp only [State.step] at h
    split at h
    · cases h
      exact hs.goto_none rfl
    · rename_i hpath
      split_ifs at h with hfree
      cases h
      -- The path names nothing, so nobody has settled; no descriptor refers to the new file.
      have hnone : ∀ q, (s.proc q).settled q = none := by
        intro q
        cases hq : (s.proc q).settled q with
        | none => rfl
        | some j => rw [hs.named q j hq] at hpath; cases hpath
      have hs' := (hs.setPath hnone (some i)).setContent
        (fun q hq => hfree q (Proc.fd_of_owns hq)) []
      exact hs'.goto_none rfl
    · cases h
  | tryLock p =>
    simp only [State.step] at h
    split at h
    · rename_i i hp
      split at h <;> cases h
      · rename_i hlock
        refine (hs.acquire (p := p) hlock).goto ?_ (by simp [Proc.settled]) (by simp) (by simp)
        rintro j ⟨⟩
        simp
      · exact hs.goto_none rfl
    · cases h
  | fstat p =>
    simp only [State.step] at h
    split at h <;> cases h
    rename_i i hp
    refine hs.goto ?_ (by simp [Proc.settled]) (by simp) (by simp)
    rintro j ⟨⟩
    exact hs.owned p i (by simp [hp, Proc.owns])
  | stat p ok =>
    simp only [State.step] at h
    split at h
    · rename_i i hp
      split_ifs at h with hok <;> cases h
      · refine hs.goto ?_ ?_ (by simp) (by simp)
        · rintro j ⟨⟩
          exact hs.owned p i (by simp [hp, Proc.owns])
        · rintro j ⟨⟩
          exact hok.2
      · exact hs.goto_none rfl
    · cases h
  | truncate p =>
    simp only [State.step] at h
    split at h <;> cases h
    rename_i i hp
    refine hs.overwrite (x := .truncated i) (by simp [hp, Proc.settled]) [] ?_ (by simp) (by simp)
    rintro j ⟨⟩
    rfl
  | write p k =>
    simp only [State.step] at h
    split at h
    · rename_i i hp
      have hset : (s.proc p).settled p = some i := by simp [hp, Proc.settled]
      split_ifs at h with hlong hk <;> cases h
      · refine hs.overwrite hset _ (fun j hj => ?_) (by simp) ?_
        · simpa [Proc.owns, eq_comm] using hj
        · -- the file was empty and all of the text is written
          simp [hk, hs.empty p i hp]
      · exact hs.overwrite (x := .closing i false) hset _ (by simp [Proc.owns]) (by simp) (by simp)
    · cases h
  | raise p =>
    simp only [State.step] at h
    split at h <;> cases h <;> exact hs.goto_none rfl
  | fork p q =>
    simp only [State.step] at h
    split at h
    · rename_i i l hp hq
      split_ifs at h with hl
      cases h
      have hqp : l ≠ q := by
        rintro rfl
        rw [← hl, hq] at hp
        cases hp
      exact hs.goto_none (by simp [Proc.owns, hqp])
    · cases h
  | destroy p ok =>
    simp only [State.step] at h
    split at h
    · rename_i i l hp
      by_cases hl : p = l
      · subst hl
        rw [if_neg (not_not.2 rfl), Option.some.injEq] at h
        subst h
        exact (hs.goto_none (p := p) (x := .closing i false) rfl).setPath
          (settled_eq_none_of_goto hs hp) _
      · rw [if_pos hl, Option.some.injEq] at h
        subst h
        exact hs.goto_none rfl
    · cases h
  | close p =>
    simp only [State.step] at h
    split at h <;> cases h
    rename_i i again hp
    have hnone : (if again = true then Proc.opening else Proc.idle : Proc n I).owns p = none := by
      cases again <;> rfl
    refine (hs.goto_none hnone).release ?_
    simp [State.goto, hnone]
  | crash p =>
    simp only [State.step] at h
    split at h <;> cases h
    · refine (hs.goto_none (p := p) (x := .idle) rfl).release ?_
      simp [State.goto, Proc.owns]
    · exact hs.goto_none rfl

end State

open State

theorem inv_of_reachable [DecidableEq I] {s : State n I} (h : (pidFiles n I).Reachable s) :
    s.Inv := by
  refine h.invariant ?_ (fun s e t hs hst => hs.step hst)
  rintro s ⟨hidle, -⟩
  constructor <;> intro p i hp <;> rw [hidle] at hp <;> cases hp

/-- **The PID file protocol is mutually exclusive.**  At most one process holds the PID file.
While it does, the path names the file that it has locked, and this file contains its PID.  And
if a destructor removes the path, the file that the path named was locked by its own process. -/
theorem pidFile_exclusive [DecidableEq I] {s : State n I} (h : (pidFiles n I).Reachable s) :
    (∀ p q, s.Holds p → s.Holds q → p = q) ∧
    (∀ p i, s.proc p = .holding i p →
      s.path = some i ∧ s.lock i = some p ∧ s.content i = pidText p) ∧
    (∀ p ok t, s.step (.destroy p ok) = some t → t.path ≠ s.path →
      ∀ i, s.path = some i → s.lock i = some p) := by
  have hs := inv_of_reachable h
  have hheld : ∀ p i, s.proc p = .holding i p → s.path = some i ∧ s.lock i = some p := by
    intro p i hp
    exact ⟨hs.named p i (by simp [hp, Proc.settled]), hs.owned p i (by simp [hp, Proc.owns])⟩
  refine ⟨?_, ?_, ?_⟩
  · rintro p q ⟨i, hp⟩ ⟨j, hq⟩
    obtain ⟨hi, hlp⟩ := hheld p i hp
    obtain ⟨hj, hlq⟩ := hheld q j hq
    obtain rfl : i = j := Option.some.inj (hi.symm.trans hj)
    exact Option.some.inj (hlp.symm.trans hlq)
  · intro p i hp
    exact ⟨(hheld p i hp).1, (hheld p i hp).2, hs.written p i hp⟩
  · intro p ok t ht hne i hi
    simp only [State.step] at ht
    split at ht
    · rename_i j l hp
      by_cases hl : p = l
      · subst hl
        obtain ⟨hj, hlock⟩ := hheld p j hp
        obtain rfl : j = i := Option.some.inj (hj.symm.trans hi)
        exact hlock
      · rw [if_pos hl, Option.some.injEq] at ht
        subst ht
        exact absurd rfl hne
    · cases ht

/-! ### The race that the second look at the path is for -/

/-- Nothing is there yet. -/
def noFile : State 2 ℕ := ⟨none, fun _ => none, fun _ => [], fun _ => .idle⟩

/-- Process 1 opens the file of process 0 just before it is removed, gets the lock on the removed
file, looks at the path again and starts over with a new file. -/
def race : List (Event 2 ℕ) :=
  [.start 0, .start 1, .open 0 7, .tryLock 0, .fstat 0, .stat 0 true, .truncate 0, .write 0 2,
    .open 1 7, .destroy 0 true, .close 0, .tryLock 1, .fstat 1, .stat 1 true, .close 1,
    .open 1 8, .tryLock 1, .fstat 1, .stat 1 true, .truncate 1, .write 1 2]

/-- The state at the end of it. -/
def afterRace : State 2 ℕ := ((pidFiles 2 ℕ).run noFile race).get (by decide +kernel)

theorem reachable_afterRace : (pidFiles 2 ℕ).Reachable afterRace :=
  ⟨noFile, race, ⟨fun _ => rfl, fun _ => rfl⟩, (Option.some_get _).symm⟩

/-- Process 1 ends up with the PID file, and alone. -/
theorem holds_afterRace : afterRace.Holds 1 ∧ afterRace.path = some 8 ∧
    afterRace.content 8 = ['1', '\n'] ∧ ∀ q, afterRace.Holds q → q = 1 := by
  have hproc : afterRace.proc 1 = .holding 8 1 := by decide +kernel
  obtain ⟨honly, hheld, -⟩ := pidFile_exclusive reachable_afterRace
  obtain ⟨hpath, -, hcontent⟩ := hheld 1 8 hproc
  exact ⟨⟨8, hproc⟩, hpath, hcontent, fun q hq => honly q 1 hq ⟨8, hproc⟩⟩

end PidFile

end Wsddn
