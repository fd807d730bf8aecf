import Mathlib.Data.List.Basic

/-!
# Templates with escapes and keywords

A template is a text in which one symbol, the *mark*, has a meaning: twice it stands for itself,
before a keyword for the value of the keyword, and elsewhere for nothing.  A text is read from left
to right, piece by piece (`Divides`), and expanded by putting the value of each piece in its place.

* `Divides.unique`, `exists_divides` : every text has exactly one division into pieces.
* `Rewrites` : the text and its expansion.
* `Clean` : no mark stands for nothing, except at the end of the text.
* `escape` : the text in which each mark is doubled.
-/

namespace Wsddn

/-- What the mark means: the keywords `κ`, none of which begins with the mark or with another
keyword, and their values. -/
structure Template (α κ : Type*) where
  mark : α
  key : κ → List α
  value : κ → List α
  key_head : ∀ k, ∃ c cs, key k = c :: cs ∧ c ≠ mark
  prefix_free : ∀ k k', key k <+: key k' → k = k'

namespace Template

variable {α κ : Type*} (T : Template α κ)

/-- A piece of a text. -/
inductive Piece (α κ : Type*) where
  | char (c : α)
  | escape
  | keyword (k : κ)
  | stray

/-- What stands for a piece in the expansion. -/
def expandPiece : Piece α κ → List α
  | .char c => [c]
  | .escape => [T.mark]
  | .keyword k => T.value k
  | .stray => []

/-- The expansion of a text, from its pieces. -/
def expand (ps : List (Piece α κ)) : List α := ps.flatMap T.expandPiece

/-- The division of a text into pieces, from left to right. -/
inductive Divides : List α → List (Piece α κ) → Prop
  | nil : Divides [] []
  | char {c : α} {s : List α} {ps : List (Piece α κ)} (hc : c ≠ T.mark) (h : Divides s ps) :
      Divides (c :: s) (.char c :: ps)
  | escape {s : List α} {ps : List (Piece α κ)} (h : Divides s ps) :
      Divides (T.mark :: T.mark :: s) (.escape :: ps)
  | keyword (k : κ) {s : List α} {ps : List (Piece α κ)} (h : Divides s ps) :
      Divides (T.mark :: (T.key k ++ s)) (.keyword k :: ps)
  | stray {s : List α} {ps : List (Piece α κ)} (hs : s.head? ≠ some T.mark)
      (hk : ∀ k, ¬ T.key k <+: s) (h : Divides s ps) : Divides (T.mark :: s) (.stray :: ps)

/-- The text and its expansion. -/
def Rewrites (s t : List α) : Prop := ∃ ps, T.Divides s ps ∧ T.expand ps = t

/-- No mark stands for nothing, except at the end of the text. -/
def Clean (s : List α) : Prop := ∃ ps, T.Divides s ps ∧ Piece.stray ∉ ps.dropLast

variable {T} {s t : List α} {ps ps' : List (Piece α κ)} {c : α}

/-! ### One division -/

theorem mark_ne_key_append {k : κ} {s' : List α} : T.mark :: s ≠ T.key k ++ s' := by
  obtain ⟨c, cs, hk, hc⟩ := T.key_head k
  rw [hk]
  exact fun h => hc (List.cons.inj h).1.symm

/-- A text begins with one keyword at most. -/
theorem key_append_inj {k k' : κ} {s s' : List α} (h : T.key k ++ s = T.key k' ++ s') :
    k = k' ∧ s = s' := by
  have hk : k = k' := by
    rcases List.append_eq_append_iff.1 h with ⟨d, hd, -⟩ | ⟨d, hd, -⟩
    · exact T.prefix_free k k' ⟨d, hd.symm⟩
    · exact (T.prefix_free k' k ⟨d, hd.symm⟩).symm
  subst hk
  exact ⟨rfl, List.append_cancel_left h⟩

/-- What a mark can be the beginning of. -/
theorem divides_mark (h : T.Divides (T.mark :: s) ps) :
    (∃ s' ps', s = T.mark :: s' ∧ ps = .escape :: ps' ∧ T.Divides s' ps') ∨
    (∃ k s' ps', s = T.key k ++ s' ∧ ps = .keyword k :: ps' ∧ T.Divides s' ps') ∨
    (∃ ps', s.head? ≠ some T.mark ∧ (∀ k, ¬ T.key k <+: s) ∧ ps = .stray :: ps' ∧
      T.Divides s ps') := by
  generalize hx : T.mark :: s = x at h
  cases h with
  | nil => cases hx
  | char hc => exact absurd (List.cons.inj hx).1.symm hc
  | escape h => exact .inl ⟨_, _, (List.cons.inj hx).2, rfl, h⟩
  | keyword k h => exact .inr (.inl ⟨k, _, _, (List.cons.inj hx).2, rfl, h⟩)
  | stray hs hk h =>
    obtain rfl := (List.cons.inj hx).2
    exact .inr (.inr ⟨_, hs, hk, rfl, h⟩)

/-- **A text has at most one division.** -/
theorem Divides.unique (h : T.Divides s ps) (h' : T.Divides s ps') : ps = ps' := by
  induction h generalizing ps' with
  | nil =>
    cases h'
    rfl
  | char hc _ ih =>
    cases h' with
    | char _ h' => rw [ih h']
    | escape => exact absurd rfl hc
    | keyword => exact absurd rfl hc
    | stray => exact absurd rfl hc
  | escape _ ih =>
    rcases divides_mark h' with ⟨s', qs, he, rfl, hq⟩ | ⟨k, s', qs, he, -⟩ | ⟨qs, hs, -⟩
    · obtain rfl := (List.cons.inj he).2
      rw [ih hq]
    · exact absurd he mark_ne_key_append
    · exact absurd rfl hs
  | keyword k _ ih =>
    rcases divides_mark h' with ⟨s', qs, he, -⟩ | ⟨k', s', qs, he, rfl, hq⟩ | ⟨qs, -, hk, -⟩
    · exact absurd he.symm mark_ne_key_append
    · obtain ⟨rfl, rfl⟩ := key_append_inj he
      rw [ih hq]
    · exact absurd (List.prefix_append _ _) (hk k)
  | stray hs hk _ ih =>
    rcases divides_mark h' with ⟨s', qs, rfl, -⟩ | ⟨k', s', qs, rfl, -⟩ | ⟨qs, -, -, rfl, hq⟩
    · exact absurd rfl hs
    · exact absurd (List.prefix_append _ _) (hk k')
    · rw [ih hq]

variable (T) in
/-- **Every text has a division.** -/
theorem exists_divides (s : List α) : ∃ ps, T.Divides s ps := by
  -- by induction on the length: a keyword is passed over whole
  induction hn : s.length using Nat.strongRecOn generalizing s with
  | ind n ih =>
    subst hn
    have next : ∀ r : List α, r.length < s.length → ∃ ps, T.Divides r ps :=
      fun r hr => ih _ hr r rfl
    cases s with
    | nil => exact ⟨[], .nil⟩
    | cons c s =>
      by_cases hc : c = T.mark
      · subst hc
        by_cases hs : s.head? = some T.mark
        · obtain ⟨s', rfl⟩ := List.head?_eq_some_iff.1 hs
          obtain ⟨ps, h⟩ := next s' (by simp only [List.length_cons]; omega)
          exact ⟨_, .escape h⟩
        · by_cases hk : ∃ k, T.key k <+: s
          · obtain ⟨k, r, rfl⟩ := hk
            obtain ⟨ps, h⟩ := next r (by simp only [List.length_cons, List.length_append]; omega)
            exact ⟨_, .keyword k h⟩
          · obtain ⟨ps, h⟩ := next s (Nat.lt_succ_self _)
            exact ⟨_, .stray hs (not_exists.1 hk) h⟩
      · obtain ⟨ps, h⟩ := next s (Nat.lt_succ_self _)
        exact ⟨_, .char hc h⟩

theorem rewrites_iff (h : T.Divides s ps) : T.Rewrites s t ↔ T.expand ps = t := by
  constructor
  · rintro ⟨ps', h', rfl⟩
    rw [h.unique h']
  · exact fun ht => ⟨ps, h, ht⟩

theorem clean_iff (h : T.Divides s ps) : T.Clean s ↔ Piece.stray ∉ ps.dropLast := by
  constructor
  · rintro ⟨ps', h', hps⟩
    rwa [h.unique h']
  · exact fun hps => ⟨ps, h, hps⟩

/-! ### Escapes -/

variable (T) in
/-- Each mark doubled. -/
def escape [DecidableEq α] (s : List α) : List α :=
  s.flatMap fun c => if c = T.mark then [T.mark, T.mark] else [c]

end Template

end Wsddn
