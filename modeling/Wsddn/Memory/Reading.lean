import Mathlib.Data.List.TakeWhile
import Mathlib.Data.Option.Basic
import Wsddn.Stream.LittleEndian

/-!
# Programs that read memory

A program reads bytes at addresses that depend on what it has read before, and it ends with a result
or not at all.

* `Reading.reads`, `Reading.result` : what a run of a program reads, and its result.
* `Reading.inside` : the result of a program that reads no byte outside of a range.
* `inside_eq_some_iff` : it is the result of the run, if the range holds all that it reads.
* `inside_bind` : **programs one after the other**.
* `Ends` : the program ends and stays in the range; a rule for each thing that a program reads.
* `inside_moved` : the same program at another place.
* `Window` : the bytes from an address to the end of the range; the words and the strings there.
-/

namespace Wsddn

open LittleEndian

universe u

/-- A program that reads memory. -/
inductive Reading (α : Type u) : Type u where
  | done (a : α)
  | read (p : ℕ) (k : UInt8 → Reading α)
  /-- The program does not end. -/
  | endless

namespace Reading

variable {α β : Type u}

/-- The second program goes on with the result of the first. -/
protected def bind : Reading α → (α → Reading β) → Reading β
  | done a, f => f a
  | read p k, f => read p fun b => (k b).bind f
  | endless, _ => endless

instance : Monad Reading where
  pure := done
  bind := Reading.bind

/-! ### Runs -/

/-- The addresses that the program reads in the memory `m`. -/
def reads (m : ℕ → UInt8) : Reading α → List ℕ
  | done _ => []
  | read p k => p :: (k (m p)).reads m
  | endless => []

/-- The result of the program. -/
def result (m : ℕ → UInt8) : Reading α → Option α
  | done a => some a
  | read p k => (k (m p)).result m
  | endless => none

/-- The result of the program, if it reads nothing outside of `[lo, hi)`. -/
def inside (lo hi : ℕ) (m : ℕ → UInt8) : Reading α → Option α
  | done a => some a
  | read p k => if lo ≤ p ∧ p < hi then (k (m p)).inside lo hi m else none
  | endless => none

variable {lo hi p : ℕ} {m : ℕ → UInt8}

/-- The range holds everything that is read. -/
theorem inside_eq_some_iff {x : Reading α} {a : α} :
    x.inside lo hi m = some a ↔
      x.result m = some a ∧ ∀ q ∈ x.reads m, lo ≤ q ∧ q < hi := by
  induction x with
  | done b => simp [inside, result, reads]
  | read p k ih =>
    simp only [inside, result, reads, List.forall_mem_cons]
    split_ifs with hp
    · rw [ih]
      simp only [hp, true_and]
    · simp only [hp, false_and, and_false]
  | endless => simp [inside, result]

@[simp] theorem inside_pure (a : α) : (pure a : Reading α).inside lo hi m = some a := rfl

@[simp] theorem inside_endless : (endless : Reading α).inside lo hi m = none := rfl

/-- **Programs one after the other.** -/
@[simp] theorem inside_bind (x : Reading α) (f : α → Reading β) :
    (x >>= f).inside lo hi m = (x.inside lo hi m).bind fun a => (f a).inside lo hi m := by
  induction x with
  | done a => rfl
  | read p k ih =>
    have hbind : (read p k >>= f) = read p fun b => k b >>= f := rfl
    rw [hbind]
    simp only [inside]
    split_ifs
    · exact ih (m p)
    · rfl
  | endless => rfl

theorem inside_ite {c : Prop} [Decidable c] (x y : Reading α) :
    (if c then x else y).inside lo hi m = if c then x.inside lo hi m else y.inside lo hi m :=
  apply_ite _ c x y

/-! ### More of a program

A loop with a bound on its rounds is `endless` when they are used up; with more rounds it can only
have a result where it had none. -/

/-- The program `y` ends as `x` does, where `x` ends. -/
def Le (x y : Reading α) : Prop :=
  ∀ lo hi m a, x.inside lo hi m = some a → y.inside lo hi m = some a

theorem Le.refl (x : Reading α) : Le x x := fun _ _ _ _ h => h

theorem endless_le (x : Reading α) : Le endless x := fun _ _ _ _ h => by cases h

theorem bind_le {x y : Reading α} {f g : α → Reading β} (h : Le x y) (hfg : ∀ a, Le (f a) (g a)) :
    Le (x >>= f) (y >>= g) := by
  intro lo hi m b hb
  rw [inside_bind, Option.bind_eq_some_iff] at hb ⊢
  obtain ⟨a, ha, hb⟩ := hb
  exact ⟨a, h _ _ _ _ ha, hfg a _ _ _ _ hb⟩

theorem ite_le {c : Prop} [Decidable c] {x y x' y' : Reading α} (h : Le x x') (h' : Le y y') :
    Le (if c then x else y) (if c then x' else y') := by
  split_ifs
  · exact h
  · exact h'

/-- With some number of rounds the program ends, and reads nothing outside of the range. -/
def StaysInside (lo hi : ℕ) (m : ℕ → UInt8) (x : ℕ → Reading α) : Prop :=
  ∃ fuel a, (x fuel).result m = some a ∧ ∀ q ∈ (x fuel).reads m, lo ≤ q ∧ q < hi

theorem staysInside_iff {x : ℕ → Reading α} :
    StaysInside lo hi m x ↔ ∃ fuel a, (x fuel).inside lo hi m = some a := by
  simp only [StaysInside, inside_eq_some_iff]

/-! ### Bytes, words and strings -/

/-- The byte at an address. -/
def byte (p : ℕ) : Reading UInt8 := read p done

/-- The word of two bytes at an address. -/
def word16 (p : ℕ) : Reading ℕ := do
  let b₀ ← byte p
  let b₁ ← byte (p + 1)
  pure (b₀.toNat + 256 * b₁.toNat)

/-- The word of four bytes at an address. -/
def word32 (p : ℕ) : Reading ℕ := do
  let w₀ ← word16 p
  let w₁ ← word16 (p + 2)
  pure (w₀ + 65536 * w₁)

/-- So many bytes from an address on. -/
def bytes : ℕ → ℕ → Reading (List UInt8)
  | _, 0 => pure []
  | p, n + 1 => do
    let b ← byte p
    let bs ← bytes (p + 1) n
    pure (b :: bs)

/-- The string at an address, of at most `n` characters (`strnlen`). -/
def string : ℕ → ℕ → Reading (List UInt8)
  | _, 0 => pure []
  | p, n + 1 => do
    let b ← byte p
    if b = 0 then pure []
    else do
      let bs ← string (p + 1) n
      pure (b :: bs)

theorem inside_byte_eq : (byte p).inside lo hi m = if lo ≤ p ∧ p < hi then some (m p) else none :=
  rfl

theorem inside_byte_of_le (hp : hi ≤ p) : (byte p).inside lo hi m = none :=
  if_neg fun h => absurd h.2 (by omega)

theorem inside_word16_of_le (hp : hi ≤ p) : (word16 p).inside lo hi m = none := by
  rw [word16, inside_bind, inside_byte_of_le hp]
  rfl

/-- What the memory holds from an address on. -/
def content (m : ℕ → UInt8) (p n : ℕ) : List UInt8 := (List.range n).map fun i => m (p + i)

/-! ### Programs that end in the range

What is read comes from the memory, so that a program is treated by unfolding: one condition for
each thing that it reads. -/

/-- The program ends, and reads nothing outside of the range. -/
def Ends (lo hi : ℕ) (m : ℕ → UInt8) (x : Reading α) : Prop := ∃ a, x.inside lo hi m = some a

section Ends

variable {x : Reading α} {f : α → Reading β}

@[simp] theorem ends_pure (a : α) : Ends lo hi m (pure a : Reading α) := ⟨a, rfl⟩

@[simp] theorem not_ends_endless : ¬ Ends lo hi m (endless : Reading α) := by
  rintro ⟨_, h⟩
  cases h

theorem ends_ite {c : Prop} [Decidable c] (x y : Reading α) :
    Ends lo hi m (if c then x else y) ↔ if c then Ends lo hi m x else Ends lo hi m y := by
  split_ifs <;> rfl

theorem ends_bind_iff :
    Ends lo hi m (x >>= f) ↔ ∃ a, x.inside lo hi m = some a ∧ Ends lo hi m (f a) := by
  simp only [Ends, inside_bind, Option.bind_eq_some_iff]
  exact ⟨fun ⟨b, a, ha, hb⟩ => ⟨a, ha, b, hb⟩, fun ⟨a, ha, b, hb⟩ => ⟨b, a, ha, hb⟩⟩

/-- The first program decides whether the second one ends only by its own end. -/
theorem ends_bind_of {P : Prop} (h : ∀ a, Ends lo hi m (f a) ↔ P) :
    Ends lo hi m (x >>= f) ↔ Ends lo hi m x ∧ P := by
  simp only [ends_bind_iff, h]
  exact exists_and_right

theorem ends_bind_of_total (h : ∀ a, Ends lo hi m (f a)) :
    Ends lo hi m (x >>= f) ↔ Ends lo hi m x :=
  (ends_bind_of fun a => iff_true_intro (h a)).trans (and_iff_left trivial)

theorem ends_bind_of_inside {c : Prop} [Decidable c] {a : α}
    (h : x.inside lo hi m = if c then some a else none) :
    Ends lo hi m (x >>= f) ↔ c ∧ Ends lo hi m (f a) := by
  rw [Ends, inside_bind, h]
  split_ifs with hc
  · simp only [Option.bind_some, hc, true_and]
    rfl
  · simp [hc]

/-- The word of two bytes that the memory holds at an address. -/
def value16 (m : ℕ → UInt8) (p : ℕ) : ℕ := (m p).toNat + 256 * (m (p + 1)).toNat

/-- The word of four bytes that the memory holds at an address. -/
def value32 (m : ℕ → UInt8) (p : ℕ) : ℕ := value16 m p + 65536 * value16 m (p + 2)

theorem value16_lt (m : ℕ → UInt8) (p : ℕ) : value16 m p < 2 ^ 16 := by
  have h₀ := (m p).toNat_lt
  have h₁ := (m (p + 1)).toNat_lt
  unfold value16
  omega

theorem value32_lt (m : ℕ → UInt8) (p : ℕ) : value32 m p < 2 ^ 32 := by
  have h₀ := value16_lt m p
  have h₁ := value16_lt m (p + 2)
  unfold value32
  omega

theorem inside_word16_eq (hp : lo ≤ p) :
    (word16 p).inside lo hi m = if p + 2 ≤ hi then some (value16 m p) else none := by
  simp only [word16, inside_bind, inside_byte_eq]
  by_cases h : p + 2 ≤ hi
  · rw [if_pos h, if_pos (by omega), Option.bind_some, if_pos (by omega)]
    rfl
  · rw [if_neg h]
    split_ifs
    · omega
    · rfl
    · rfl
    · rfl

theorem inside_word32_eq (hp : lo ≤ p) :
    (word32 p).inside lo hi m = if p + 4 ≤ hi then some (value32 m p) else none := by
  simp only [word32, inside_bind, inside_word16_eq hp,
    inside_word16_eq (hp.trans (Nat.le_add_right p 2))]
  by_cases h : p + 4 ≤ hi
  · rw [if_pos h, if_pos (by omega), Option.bind_some, if_pos (by omega)]
    rfl
  · rw [if_neg h, if_neg (by omega : ¬ p + 2 + 2 ≤ hi)]
    split_ifs <;> rfl

theorem inside_bytes_eq (hp : lo ≤ p) (n : ℕ) :
    (bytes p n).inside lo hi m = if n = 0 ∨ p + n ≤ hi then some (content m p n) else none := by
  induction n generalizing p with
  | zero => rfl
  | succ n ih =>
    simp only [bytes, inside_bind, inside_byte_eq, ih (hp.trans (Nat.le_add_right p 1))]
    by_cases h : p + (n + 1) ≤ hi
    · have hcontent : content m p (n + 1) = m p :: content m (p + 1) n := by
        simp [content, List.range_succ_eq_map, Nat.add_comm, Nat.add_left_comm]
      rw [if_pos (by omega), if_pos (by omega), Option.bind_some, if_pos (by omega), hcontent]
      rfl
    · rw [if_neg (by omega : ¬ (n + 1 = 0 ∨ p + (n + 1) ≤ hi))]
      split_ifs
      · omega
      · rfl
      · rfl
      · rfl

variable {γ : Type} {f : UInt8 → Reading γ} {g : ℕ → Reading γ} {k : List UInt8 → Reading γ}

theorem ends_byte_bind (hp : lo ≤ p) :
    Ends lo hi m (byte p >>= f) ↔ p < hi ∧ Ends lo hi m (f (m p)) := by
  refine ends_bind_of_inside ?_
  simp only [inside_byte_eq, hp, true_and]

theorem ends_word16_bind (hp : lo ≤ p) :
    Ends lo hi m (word16 p >>= g) ↔ p + 2 ≤ hi ∧ Ends lo hi m (g (value16 m p)) :=
  ends_bind_of_inside (inside_word16_eq hp)

theorem ends_word32_bind (hp : lo ≤ p) :
    Ends lo hi m (word32 p >>= g) ↔ p + 4 ≤ hi ∧ Ends lo hi m (g (value32 m p)) :=
  ends_bind_of_inside (inside_word32_eq hp)

theorem ends_bytes_bind (hp : lo ≤ p) (n : ℕ) :
    Ends lo hi m (bytes p n >>= k) ↔
      (n = 0 ∨ p + n ≤ hi) ∧ Ends lo hi m (k (content m p n)) :=
  ends_bind_of_inside (inside_bytes_eq hp n)

end Ends

/-! ### The same program at another place -/

section Moved

variable {d : ℕ} {m' : ℕ → UInt8} {lo' hi' : ℕ} {x : Reading α} {a : α}

theorem inside_congr (h : ∀ q, lo ≤ q → q < hi → m q = m' q) (x : Reading α) :
    x.inside lo hi m = x.inside lo hi m' := by
  induction x with
  | done a => rfl
  | read p k ih =>
    simp only [inside]
    split_ifs with hp
    · rw [h p hp.1 hp.2]
      exact ih (m' p)
    · rfl
  | endless => rfl

/-- A larger range makes no difference to a program that stays in a smaller one. -/
theorem inside_of_inside (h : x.inside lo hi m = some a) (hlo : lo' ≤ lo) (hhi : hi ≤ hi') :
    x.inside lo' hi' m = some a := by
  rw [inside_eq_some_iff] at h ⊢
  exact ⟨h.1, fun q hq => ⟨hlo.trans (h.2 q hq).1, (h.2 q hq).2.trans_le hhi⟩⟩

/-- The program with all its addresses moved. -/
def moved (d : ℕ) : Reading α → Reading α
  | done a => done a
  | read p k => read (p + d) fun b => (k b).moved d
  | endless => endless

theorem inside_moved (x : Reading α) :
    (x.moved d).inside (lo + d) (hi + d) m = x.inside lo hi fun q => m (q + d) := by
  induction x with
  | done a => rfl
  | read p k ih =>
    simp only [moved, inside, Nat.add_le_add_iff_right, Nat.add_lt_add_iff_right]
    split_ifs
    · exact ih (m (p + d))
    · rfl
  | endless => rfl

@[simp] theorem moved_pure (a : α) : (pure a : Reading α).moved d = pure a := rfl

@[simp] theorem moved_bind (x : Reading α) (f : α → Reading β) :
    (x >>= f).moved d = x.moved d >>= fun a => (f a).moved d := by
  induction x with
  | done a => rfl
  | read p k ih =>
    show read (p + d) (fun b => (k b >>= f).moved d) = read (p + d) fun b => _
    congr 1
    funext b
    exact ih b
  | endless => rfl

@[simp] theorem moved_ite {c : Prop} [Decidable c] (x y : Reading α) :
    (if c then x else y).moved d = if c then x.moved d else y.moved d :=
  apply_ite _ c x y

@[simp] theorem moved_byte : (byte p).moved d = byte (p + d) := rfl

@[simp] theorem moved_word16 : (word16 p).moved d = word16 (p + d) := by
  simp only [word16, moved_bind, moved_byte, moved_pure, Nat.add_right_comm p d 1]

@[simp] theorem moved_word32 : (word32 p).moved d = word32 (p + d) := by
  simp only [word32, moved_bind, moved_word16, moved_pure, Nat.add_right_comm p d 2]

@[simp] theorem moved_bytes (n : ℕ) : (bytes p n).moved d = bytes (p + d) n := by
  induction n generalizing p with
  | zero => rfl
  | succ n ih =>
    simp only [bytes, moved_bind, moved_byte, moved_pure, ih, Nat.add_right_comm p d 1]

end Moved

/-- The bytes from the address `p` to the end of the range. -/
structure Window (lo hi : ℕ) (m : ℕ → UInt8) (p : ℕ) (bs : List UInt8) : Prop where
  lower : lo ≤ p
  upper : p + bs.length = hi
  get : ∀ i (h : i < bs.length), m (p + i) = bs[i]

theorem window_content (p n : ℕ) : Window p (p + n) m p (content m p n) where
  lower := le_rfl
  upper := by simp [content]
  get i h := by simp [content]

namespace Window

variable {b : UInt8} {bs : List UInt8} {n : ℕ}

theorem drop (h : Window lo hi m p bs) (hn : n ≤ bs.length) :
    Window lo hi m (p + n) (bs.drop n) where
  lower := h.lower.trans (Nat.le_add_right _ _)
  upper := by
    rw [List.length_drop, ← h.upper]
    omega
  get i hi := by
    rw [List.length_drop] at hi
    rw [List.getElem_drop, ← h.get (n + i) (by omega), Nat.add_assoc]

theorem tail (h : Window lo hi m p (b :: bs)) : Window lo hi m (p + 1) bs :=
  h.drop (n := 1) (Nat.le_add_left _ _)

/-- A byte of the window, `none` behind its end. -/
theorem inside_byte (h : Window lo hi m p bs) (i : ℕ) :
    (byte (p + i)).inside lo hi m = bs[i]? := by
  have hlower := h.lower
  have hupper := h.upper
  rw [inside_byte_eq]
  by_cases hi : i < bs.length
  · rw [if_pos (by omega), h.get i hi, List.getElem?_eq_getElem hi]
  · rw [if_neg (by omega), List.getElem?_eq_none (by omega)]

theorem inside_head (h : Window lo hi m p (b :: bs)) : (byte p).inside lo hi m = some b :=
  h.inside_byte 0

theorem inside_word16 (h : Window lo hi m p bs) : (word16 p).inside lo hi m = u16 bs := by
  have h₀ := h.inside_byte 0
  have h₁ := h.inside_byte 1
  rw [Nat.add_zero] at h₀
  simp only [word16, inside_bind, inside_pure, h₀, h₁]
  match bs with
  | [] => rfl
  | [_] => rfl
  | _ :: _ :: _ => rfl

theorem inside_word32 (h : Window lo hi m p bs) : (word32 p).inside lo hi m = u32 bs := by
  simp only [word32, inside_bind, inside_pure, h.inside_word16]
  match bs with
  | [] => rfl
  | [_] => rfl
  | b₀ :: b₁ :: bs =>
    have htail : Window lo hi m (p + 2) bs := h.tail.tail
    rw [htail.inside_word16]
    match bs with
    | [] => rfl
    | [_] => rfl
    | _ :: _ :: _ => rfl

theorem inside_bytes (h : Window lo hi m p bs) (hn : n ≤ bs.length) :
    (bytes p n).inside lo hi m = some (bs.take n) := by
  induction n generalizing p bs with
  | zero => rfl
  | succ n ih =>
    obtain ⟨b, bs, rfl⟩ := List.exists_cons_of_length_pos (by omega : 0 < bs.length)
    simp only [bytes, inside_bind, h.inside_head, ih h.tail (Nat.le_of_succ_le_succ hn)]
    rfl

theorem inside_string (h : Window lo hi m p bs) (hn : n ≤ bs.length) :
    (string p n).inside lo hi m = some ((bs.take n).takeWhile (· ≠ 0)) := by
  induction n generalizing p bs with
  | zero => rfl
  | succ n ih =>
    obtain ⟨b, bs, rfl⟩ := List.exists_cons_of_length_pos (by omega : 0 < bs.length)
    simp only [string, inside_bind, inside_ite, h.inside_head,
      ih h.tail (Nat.le_of_succ_le_succ hn), Option.bind_some, List.take_succ_cons]
    by_cases hb : b = 0
    · rw [if_pos hb, List.takeWhile_cons_of_neg (by simpa using hb)]
      rfl
    · rw [if_neg hb, List.takeWhile_cons_of_pos (by simpa using hb)]
      rfl

end Window

end Reading

end Wsddn
