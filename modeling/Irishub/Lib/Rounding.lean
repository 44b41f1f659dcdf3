import Mathlib.Data.Rat.Floor

/-!
# Rounding to the nearest integer

An integer is the rounding half to even of a number when it is at most one half away, and even
when it is exactly one half away. There is one such integer, and it is odd under negation.
-/

namespace Irishub.Lib
variable {x : ℚ} {r s n m : ℤ}

/-- `r` is the integer nearest to `x`, the even one of two. -/
def NearestEven (x : ℚ) (r : ℤ) : Prop := |x - r| ≤ 1 / 2 ∧ (|x - r| = 1 / 2 → Even r)

lemma NearestEven.neg (h : NearestEven x r) : NearestEven (-x) (-r) := by
  have hdist : |-x - ((-r : ℤ) : ℚ)| = |x - r| := by
    rw [← abs_neg (x - r)]
    push_cast
    ring_nf
  refine ⟨hdist.trans_le h.1, fun htie => ?_⟩
  exact even_neg.mpr (h.2 (hdist.symm.trans htie))

lemma nearestEven_neg : NearestEven (-x) (-r) ↔ NearestEven x r := by
  refine ⟨fun h => ?_, NearestEven.neg⟩
  simpa only [neg_neg] using h.neg

lemma NearestEven.unique (hr : NearestEven x r) (hs : NearestEven x s) : r = s := by
  have hr1 := abs_le.mp hr.1
  have hs1 := abs_le.mp hs.1
  by_contra hne
  -- the two integers are neighbours, so both are exactly one half away
  wlog hlt : r < s generalizing r s
  · exact this hs hr hs1 hr1 (Ne.symm hne) (by omega)
  have hcast : (r : ℚ) + 1 ≤ s := by exact_mod_cast hlt
  have hnext : s = r + 1 := by
    have hle : (s : ℚ) ≤ r + 1 := by linarith
    have : s ≤ r + 1 := by exact_mod_cast hle
    omega
  have hevenr := hr.2 (by rw [abs_of_nonneg (by linarith)]; linarith)
  have hevens := hs.2 (by rw [abs_of_nonpos (by linarith)]; linarith)
  rw [Int.even_iff] at hevenr hevens
  omega

/-- Rounding of a quotient, without the division. -/
lemma nearestEven_div (hm : 0 < m) :
    NearestEven (n / m) r ↔ 2 * |n - r * m| ≤ m ∧ (2 * |n - r * m| = m → Even r) := by
  have hmq : (0 : ℚ) < m := by exact_mod_cast hm
  have hdist : |(n : ℚ) / m - r| = (|n - r * m| : ℤ) / m := by
    rw [Int.cast_abs, eq_div_iff hmq.ne', ← abs_of_pos hmq, ← abs_mul, abs_of_pos hmq, sub_mul,
      div_mul_cancel₀ _ hmq.ne']
    push_cast
    rfl
  have hle : |(n : ℚ) / m - r| ≤ 1 / 2 ↔ 2 * |n - r * m| ≤ m := by
    rw [hdist, div_le_div_iff₀ hmq two_pos, ← Int.cast_le (R := ℚ)]
    push_cast
    rw [one_mul, mul_comm]
  have heq : |(n : ℚ) / m - r| = 1 / 2 ↔ 2 * |n - r * m| = m := by
    rw [hdist, div_eq_div_iff hmq.ne' two_ne_zero, ← Int.cast_inj (α := ℚ)]
    push_cast
    rw [one_mul, mul_comm]
  rw [NearestEven, hle, heq]

end Irishub.Lib
