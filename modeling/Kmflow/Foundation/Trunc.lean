import Mathlib.Data.Rat.Floor
import Mathlib.Tactic.Linarith

/-!
# Truncation toward zero

The integer part of a rational, as a conversion to an integer type takes it, and what it leaves out.
-/

namespace Rat

variable {q : ℚ}

/-- The integer part of a rational, rounded toward zero. -/
def trunc (q : ℚ) : ℤ := q.num.tdiv q.den

theorem trunc_of_nonneg (h : 0 ≤ q) : trunc q = ⌊q⌋ := by
  rw [trunc, Int.tdiv_eq_ediv_of_nonneg (Rat.num_nonneg.2 h), Rat.floor_def']

theorem trunc_neg (q : ℚ) : trunc (-q) = -trunc q := by
  rw [trunc, Rat.num_neg_eq_neg_num, Rat.den_neg_eq_den, Int.neg_tdiv]
  rfl

theorem trunc_of_nonpos (h : q ≤ 0) : trunc q = ⌈q⌉ := by
  have hneg : trunc (-q) = ⌊-q⌋ := trunc_of_nonneg (neg_nonneg.2 h)
  rw [trunc_neg, Int.floor_neg] at hneg
  exact neg_inj.1 hneg

@[simp]
theorem trunc_intCast (n : ℤ) : trunc n = n := by
  rw [trunc, Rat.num_intCast, Rat.den_intCast, Int.natCast_one, Int.tdiv_one]

/-- Less than one is left out. -/
theorem abs_sub_trunc_lt_one (q : ℚ) : |q - trunc q| < 1 := by
  rcases le_total 0 q with h | h
  · rw [trunc_of_nonneg h, abs_of_nonneg (sub_nonneg.2 (Int.floor_le q))]
    linarith [Int.lt_floor_add_one q]
  · rw [trunc_of_nonpos h, abs_of_nonpos (sub_nonpos.2 (Int.le_ceil q))]
    linarith [Int.ceil_lt_add_one q]

/-- What is left out of a fraction is a fraction with the same denominator. -/
theorem abs_sub_trunc_le (n : ℤ) {d : ℕ} (hd : 0 < d) :
    |(n / d : ℚ) - trunc (n / d)| ≤ 1 - 1 / d := by
  have hpos : (0 : ℚ) < d := Nat.cast_pos.2 hd
  obtain ⟨m, hm⟩ : ∃ m : ℤ, (n / d : ℚ) - trunc (n / d) = m / d := by
    refine ⟨n - d * trunc (n / d), ?_⟩
    rw [Int.cast_sub, Int.cast_mul, Int.cast_natCast, sub_div, mul_div_cancel_left₀ _ hpos.ne']
  have hlt : |(m : ℚ)| < d := by
    have h := abs_sub_trunc_lt_one (n / d)
    rwa [hm, abs_div, abs_of_pos hpos, div_lt_one hpos] at h
  have hle : |(m : ℚ)| + 1 ≤ d := by exact_mod_cast hlt
  rw [hm, abs_div, abs_of_pos hpos, one_sub_div hpos.ne', div_le_div_iff_of_pos_right hpos]
  linarith

end Rat
