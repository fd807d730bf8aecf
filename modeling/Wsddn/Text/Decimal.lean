import Wsddn.Http.Request

/-!
# Numbers in decimal (`std::to_string`)

The lengths, the ports and the message numbers that the daemon writes.

* `toSize_toDecimal` : `std::from_chars` reads a number back.
-/

namespace Wsddn

namespace SysString

/-- `std::to_string` of a `size_t` or a `uint16_t`. -/
def toDecimal (n : ℕ) : SysString := (Nat.toDigits 10 n).map fun c => c.toNat.toUInt8

theorem toNat_toUInt8_of_isDigit {c : Char} (h : c.isDigit = true) :
    c.toNat.toUInt8.toNat = c.toNat ∧ 48 ≤ c.toNat ∧ c.toNat ≤ 57 := by
  have hc : 48 ≤ c.toNat ∧ c.toNat ≤ 57 := by
    simp only [Char.isDigit, Bool.and_eq_true, decide_eq_true_eq, UInt32.le_iff_toNat_le] at h
    exact h
  refine ⟨?_, hc⟩
  rw [Nat.toUInt8_eq, UInt8.toNat_ofNat']
  exact Nat.mod_eq_of_lt (by omega)

/-- A number is written with digits. -/
theorem mem_toDecimal {n : ℕ} {b : UInt8} (h : b ∈ toDecimal n) : 48 ≤ b ∧ b ≤ 57 := by
  obtain ⟨c, hc, rfl⟩ := List.mem_map.1 h
  obtain ⟨hval, hle, hge⟩ :=
    toNat_toUInt8_of_isDigit (Nat.isDigit_of_mem_toDigits (by decide) (by decide) hc)
  rw [UInt8.le_iff_toNat_le, UInt8.le_iff_toNat_le, hval]
  exact ⟨hle, hge⟩

theorem toDecimal_ne_nil (n : ℕ) : toDecimal n ≠ [] := by
  simp [toDecimal, Nat.toDigits_ne_nil]

theorem foldl_map_toUInt8 {cs : List Char} (h : ∀ c ∈ cs, c.isDigit = true) (init : ℕ) :
    (cs.map fun c => c.toNat.toUInt8).foldl (fun acc b => 10 * acc + (b.toNat - 48)) init =
      Nat.ofDigitChars 10 cs init := by
  induction cs generalizing init with
  | nil => rfl
  | cons c cs ih =>
    have hc := (toNat_toUInt8_of_isDigit (h c List.mem_cons_self)).1
    rw [List.map_cons, List.foldl_cons, hc, ih fun c' hc' => h c' (List.mem_cons_of_mem _ hc')]
    rfl

/-- **A number is read back** as it was written, if it fits a `size_t`. -/
theorem toSize_toDecimal {n : ℕ} (h : n < 2 ^ 64) : (toDecimal n).toSize = some n := by
  have hdigits : (toDecimal n).all (fun c => 48 ≤ c && c ≤ 57) = true := by
    rw [List.all_eq_true]
    intro b hb
    simpa using mem_toDecimal hb
  have hval : (toDecimal n).foldl (fun acc c => 10 * acc + (c.toNat - 48)) 0 = n := by
    rw [toDecimal, foldl_map_toUInt8 fun c hc =>
      Nat.isDigit_of_mem_toDigits (by decide) (by decide) hc]
    exact Nat.ofDigitChars_toDigits (by decide) (by decide)
  rw [toSize, if_pos ⟨toDecimal_ne_nil n, hdigits⟩]
  dsimp only
  rw [hval, if_pos h]

end SysString

end Wsddn
