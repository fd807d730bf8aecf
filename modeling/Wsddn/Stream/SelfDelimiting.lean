import Mathlib.Data.List.Basic

/-!
# Self-delimiting codes

What is written piece after piece can be taken apart again if the reader of one piece stops where
the piece ends, whatever comes after it.

* `Delimits` : a writer and a reader of one piece that agree in this sense.
* `readAll_flatMap` : then a stream of pieces is read as these pieces.
* `exists_begins` : the beginning of a stream is some pieces and the beginning of the next one.
-/

namespace Wsddn

namespace Stream

variable {α β γ : Type*}

/-- `read` takes off a stream exactly what `write` has written, and sees it as `view` tells. -/
structure Delimits (write : α → List β) (read : List β → Option (γ × List β)) (view : α → γ)
    (a : α) : Prop where
  nonempty : write a ≠ []
  read_append : ∀ rest, read (write a ++ rest) = some (view a, rest)

/-- Read to the end of the stream; `fuel` bounds the number of pieces. -/
def readAllLoop (read : List β → Option (γ × List β)) : ℕ → List β → Option (List γ)
  | _, [] => some []
  | 0, _ :: _ => none
  | fuel + 1, b :: bs =>
    match read (b :: bs) with
    | none => none
    | some (c, rest) => (readAllLoop read fuel rest).map (c :: ·)

/-- All pieces of a stream, `none` if it does not end with one. -/
def readAll (read : List β → Option (γ × List β)) (bs : List β) : Option (List γ) :=
  readAllLoop read bs.length bs

variable {write : α → List β} {read : List β → Option (γ × List β)} {view : α → γ}

theorem readAllLoop_of_ne_nil {fuel : ℕ} {bs : List β} (h : bs ≠ []) :
    readAllLoop read (fuel + 1) bs =
      (read bs).bind fun p => (readAllLoop read fuel p.2).map (p.1 :: ·) := by
  obtain ⟨b, bs, rfl⟩ := List.exists_cons_of_ne_nil h
  rw [readAllLoop]
  rcases read (b :: bs) with _ | ⟨c, rest⟩ <;> rfl

theorem readAllLoop_flatMap {as : List α} (h : ∀ a ∈ as, Delimits write read view a) {fuel : ℕ}
    (hfuel : as.length ≤ fuel) : readAllLoop read fuel (as.flatMap write) = some (as.map view) := by
  induction as generalizing fuel with
  | nil =>
    rw [List.flatMap_nil, List.map_nil]
    cases fuel <;> rfl
  | cons a as ih =>
    obtain ⟨hne, hread⟩ := h a List.mem_cons_self
    cases fuel with
    | zero => simp at hfuel
    | succ fuel =>
      rw [List.flatMap_cons, readAllLoop_of_ne_nil (by simp [hne]), hread, Option.bind_some,
        ih (fun b hb => h b (List.mem_cons_of_mem a hb)) (Nat.le_of_succ_le_succ hfuel)]
      rfl

theorem length_le_flatMap {as : List α} (h : ∀ a ∈ as, write a ≠ []) :
    as.length ≤ (as.flatMap write).length := by
  induction as with
  | nil => exact Nat.zero_le _
  | cons a as ih =>
    have hpos := List.length_pos_iff.2 (h a List.mem_cons_self)
    have := ih fun b hb => h b (List.mem_cons_of_mem a hb)
    rw [List.flatMap_cons, List.length_append, List.length_cons]
    omega

/-- **A stream of pieces is read as these pieces.** -/
theorem readAll_flatMap {as : List α} (h : ∀ a ∈ as, Delimits write read view a) :
    readAll read (as.flatMap write) = some (as.map view) :=
  readAllLoop_flatMap h (length_le_flatMap fun a ha => (h a ha).nonempty)

/-! ### The beginning of a stream -/

/-- What is left in front of some pieces: the beginning of the first one, without its end. -/
def Begins (part : List β) : List (List β) → Prop
  | [] => part = []
  | piece :: _ => part <+: piece ∧ part.length < piece.length

theorem begins_nil {pieces : List (List β)} (h : ∀ piece ∈ pieces, piece ≠ []) :
    Begins [] pieces := by
  cases pieces with
  | nil => rfl
  | cons piece pieces =>
    exact ⟨List.nil_prefix, List.length_pos_of_ne_nil (h piece List.mem_cons_self)⟩

/-- **The beginning of a stream** is some pieces and the beginning of the next one. -/
theorem exists_begins {pieces : List (List β)} (hne : ∀ piece ∈ pieces, piece ≠ [])
    {stream : List β} (h : stream <+: pieces.flatten) :
    ∃ pre post part, pieces = pre ++ post ∧ stream = pre.flatten ++ part ∧ Begins part post := by
  induction pieces generalizing stream with
  | nil => exact ⟨[], [], [], rfl, List.prefix_nil.1 h, rfl⟩
  | cons piece pieces ih =>
    rw [List.flatten_cons] at h
    by_cases hlt : stream.length < piece.length
    · exact ⟨[], piece :: pieces, stream, rfl, rfl,
        List.prefix_of_prefix_length_le h (List.prefix_append _ _) (Nat.le_of_lt hlt), hlt⟩
    · obtain ⟨rest, rfl⟩ :=
        List.prefix_of_prefix_length_le (List.prefix_append _ _) h (Nat.le_of_not_lt hlt)
      obtain ⟨pre, post, part, hpieces, hrest, hpart⟩ :=
        ih (fun q hq => hne q (List.mem_cons_of_mem _ hq)) ((List.prefix_append_right_inj _).1 h)
      refine ⟨piece :: pre, post, part, ?_, ?_, hpart⟩
      · rw [hpieces, List.cons_append]
      · rw [hrest, List.flatten_cons, List.append_assoc]

end Stream

end Wsddn
