import Mathlib.Algebra.Ring.Nat
import Mathlib.Data.List.Basic

/-!
# Little-endian words in byte lists

Words of two and four bytes at the front of a byte list, and lengths that are rounded up to a
multiple of four.

* `u16_le16_append`, `u32_le32_append` : reading back what was written.
* `align4_of_dvd` : a multiple of four is aligned.
-/

namespace Wsddn

namespace LittleEndian

/-- The two bytes of a word. -/
def le16 (n : ℕ) : List UInt8 := [UInt8.ofNat n, UInt8.ofNat (n / 256)]

/-- The four bytes of a word. -/
def le32 (n : ℕ) : List UInt8 := le16 n ++ le16 (n / 65536)

/-- The word in the first two bytes, `none` if there are fewer. -/
def u16 : List UInt8 → Option ℕ
  | b₀ :: b₁ :: _ => some (b₀.toNat + 256 * b₁.toNat)
  | _ => none

/-- The word in the first four bytes, `none` if there are fewer. -/
def u32 : List UInt8 → Option ℕ
  | b₀ :: b₁ :: b₂ :: b₃ :: _ =>
    some (b₀.toNat + 256 * b₁.toNat + 65536 * (b₂.toNat + 256 * b₃.toNat))
  | _ => none

/-- The next multiple of four. -/
def align4 (n : ℕ) : ℕ := (n + 3) / 4 * 4

@[simp] theorem length_le16 (n : ℕ) : (le16 n).length = 2 := rfl

@[simp] theorem length_le32 (n : ℕ) : (le32 n).length = 4 := rfl

theorem u16_le16_append {n : ℕ} (hn : n < 65536) (bs : List UInt8) :
    u16 (le16 n ++ bs) = some n := by
  simp only [le16, u16, List.cons_append, List.nil_append, UInt8.toNat_ofNat', Option.some.injEq]
  omega

theorem u32_le32_append {n : ℕ} (hn : n < 2 ^ 32) (bs : List UInt8) :
    u32 (le32 n ++ bs) = some n := by
  simp only [le32, le16, u32, List.cons_append, List.nil_append, UInt8.toNat_ofNat',
    Option.some.injEq]
  omega

theorem le_align4 (n : ℕ) : n ≤ align4 n := by
  unfold align4
  omega

theorem align4_mod (n : ℕ) : align4 n % 4 = 0 := by
  unfold align4
  omega

theorem align4_of_mod {n : ℕ} (hn : n % 4 = 0) : align4 n = n := by
  unfold align4
  omega

end LittleEndian

end Wsddn
