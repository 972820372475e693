import Mathlib.Algebra.Order.Field.Rat
import Mathlib.Data.Rat.Cast.Order
import Mathlib.Tactic.FieldSimp
import Mathlib.Tactic.Linarith
import Mathlib.Tactic.NormNum
import Mathlib.Tactic.Positivity
import Mathlib.Tactic.Ring

/-!
# Rounding errors of integer code

`Approx ε n x` says that the integer `n` is within `ε` of the rational `x`.  There is one
rule for each operation of integer code, which says how far the error grows.
-/

namespace LinuxLab
namespace Lib

def Approx (ε : ℚ) (n : Int) (x : ℚ) : Prop := |(n : ℚ) - x| ≤ ε

namespace Approx

variable {ε δ C : ℚ} {n m : Int} {x y : ℚ}

theorem refl (n : Int) : Approx 0 n n := by
  rw [Approx, sub_self, abs_zero]

theorem mono (h : Approx ε n x) (hle : ε ≤ δ) : Approx δ n x := le_trans h hle

theorem sub_int (h : Approx ε n x) (m : Int) : Approx ε (n - m) (x - m) := by
  have hdiff : ((n - m : Int) : ℚ) - (x - m) = n - x := by
    push_cast
    ring
  rw [Approx, hdiff]
  exact h

theorem add (h : Approx ε n x) (h' : Approx δ m y) : Approx (ε + δ) (n + m) (x + y) := by
  have hdiff : ((n + m : Int) : ℚ) - (x + y) = (n - x) + (m - y) := by
    push_cast
    ring
  rw [Approx, hdiff]
  exact le_trans (abs_add_le _ _) (add_le_add h h')

theorem mul_int (h : Approx ε n x) (hm : |(m : ℚ)| ≤ C) : Approx (ε * C) (n * m) (x * m) := by
  have hdiff : ((n * m : Int) : ℚ) - x * m = (n - x) * m := by
    push_cast
    ring
  rw [Approx, hdiff, abs_mul]
  exact mul_le_mul h hm (abs_nonneg _) (le_trans (abs_nonneg _) h)

/-- The error of a square grows with the number that is squared. -/
theorem square (h : Approx ε n x) (hn : |(n : ℚ)| ≤ C) :
    Approx (ε * (2 * C + ε)) (n * n) (x ^ 2) := by
  have hdiff : ((n * n : Int) : ℚ) - x ^ 2 = (n - x) * (2 * n - (n - x)) := by
    push_cast
    ring
  have hsum : |2 * (n : ℚ) - (n - x)| ≤ 2 * C + ε := by
    have htwo : |2 * (n : ℚ)| = 2 * |(n : ℚ)| := by rw [abs_mul, abs_two]
    have := abs_sub (2 * (n : ℚ)) (n - x)
    have hx : |(n : ℚ) - x| ≤ ε := h
    linarith
  rw [Approx, hdiff, abs_mul]
  exact mul_le_mul h hsum (abs_nonneg _) (le_trans (abs_nonneg _) h)

/-- A shift to the right divides and rounds down. -/
theorem shr_bounds (n : Int) (k : Nat) :
    ((n >>> k : Int) : ℚ) ≤ n / 2 ^ k ∧ (n : ℚ) / 2 ^ k < ((n >>> k : Int) : ℚ) + 1 := by
  have hpos : (0 : Int) < 2 ^ k := by positivity
  have hposQ : (0 : ℚ) < 2 ^ k := by positivity
  rw [Int.shiftRight_eq_div_pow, Nat.cast_pow, Nat.cast_ofNat, le_div_iff₀ hposQ,
    div_lt_iff₀ hposQ]
  constructor
  · exact_mod_cast Int.ediv_mul_le n (ne_of_gt hpos)
  · exact_mod_cast Int.lt_ediv_add_one_mul_self n hpos

/-- An integer near the quotient by a power of two is near the quotient of the exact
value. -/
theorem of_div_pow {k : Nat} (h : Approx ε n x) (hm : |(m : ℚ) - n / 2 ^ k| ≤ δ) :
    Approx (ε / 2 ^ k + δ) m (x / 2 ^ k) := by
  have hdiv : |(n : ℚ) / 2 ^ k - x / 2 ^ k| ≤ ε / 2 ^ k := by
    rw [← sub_div, abs_div, abs_of_pos (by positivity : (0 : ℚ) < 2 ^ k)]
    exact div_le_div_of_nonneg_right h (by positivity)
  have hsum := abs_sub_le (m : ℚ) (n / 2 ^ k) (x / 2 ^ k)
  rw [Approx]
  linarith

theorem shr (h : Approx ε n x) (k : Nat) : Approx (ε / 2 ^ k + 1) (n >>> k) (x / 2 ^ k) := by
  obtain ⟨hle, hlt⟩ := shr_bounds n k
  apply h.of_div_pow
  rw [abs_le]
  constructor <;> linarith

/-- With half of the divisor added first, a shift rounds to a nearest integer. -/
theorem round_shr (h : Approx ε n x) (k : Nat) :
    Approx (ε / 2 ^ (k + 1) + 1 / 2) ((n + 2 ^ k) >>> (k + 1)) (x / 2 ^ (k + 1)) := by
  obtain ⟨hle, hlt⟩ := shr_bounds (n + 2 ^ k) (k + 1)
  have hhalf : (((n + 2 ^ k : Int)) : ℚ) / 2 ^ (k + 1) = n / 2 ^ (k + 1) + 1 / 2 := by
    push_cast
    field_simp
    ring
  rw [hhalf] at hle hlt
  apply h.of_div_pow
  rw [abs_le]
  constructor <;> linarith

end Approx
end Lib
end LinuxLab
