import Irishub.Lib.Rounding
import Irishub.Types.Dec
import Mathlib.Tactic.LinearCombination

/-!
# The rounding of decimals

`Mul` and `RoundInt` of `types/decimal.go` round half to even. `Quo` drops the fraction of a
quotient in units of `10 ^ (-20)` before it rounds, so a quotient just above the middle between an
even unit and the next is taken for the middle and rounded down (`quo_eq_nearest_iff`).
-/

namespace Irishub.Dec
open Lib
variable {n m k : ℤ} {a b r : Dec}

lemma chopPrecisionAndRound_neg (n : ℤ) :
    chopPrecisionAndRound (-n) = -chopPrecisionAndRound n := by
  rcases lt_trichotomy n 0 with h | rfl | h
  · simp [chopPrecisionAndRound, h, h.le]
  · decide
  · simp [chopPrecisionAndRound, h, h.le]

/-- Fraction that `Quo` drops decides a tie above an even unit. -/
def DropsTie (n m : ℤ) : Prop := n % m ≠ 0 ∧ n / m % (2 * precision) = precision / 2

/-- What is left of a quotient over the units below it. -/
lemma sub_units (n m : ℤ) :
    n - n / m / precision * (m * precision) = m * (n / m % precision) + n % m := by
  have hunits := Int.mul_ediv_add_emod (n / m) precision
  have hquo := Int.mul_ediv_add_emod n m
  linear_combination -hquo - m * hunits

lemma chopNonneg_cases (q : ℤ) : (chopNonneg q = q / precision ∧ (q % precision < precision / 2 ∨
      q % precision = precision / 2 ∧ q / precision % 2 = 0)) ∨
    (chopNonneg q = q / precision + 1 ∧ (precision / 2 < q % precision ∨
      q % precision = precision / 2 ∧ q / precision % 2 = 1)) := by
  simp only [chopNonneg, precision]
  split_ifs <;> omega

/-- Rounding a truncated quotient gives the nearest unit, unless a tie was made by truncating. -/
lemma nearestEven_chopNonneg (hm : 0 < m) (htie : ¬ DropsTie n m) :
    NearestEven (n / (m * precision : ℤ)) (chopNonneg (n / m)) := by
  rw [nearestEven_div (mul_pos hm precision_pos), Int.even_iff, Int.abs_eq_natAbs]
  have hleft := sub_units n m
  have ht0 := Int.emod_nonneg n hm.ne'
  have htm := Int.emod_lt_of_pos n hm
  have hleast := mul_nonneg hm.le (Int.emod_nonneg (n / m) precision_pos.ne')
  have hmost : m * (n / m % precision) ≤ m * (precision - 1) :=
    mul_le_mul_of_nonneg_left (Int.le_sub_one_of_lt (Int.emod_lt_of_pos _ precision_pos)) hm.le
  unfold DropsTie at htie
  rcases chopNonneg_cases (n / m) with ⟨hchop, hrem⟩ | ⟨hchop, hrem⟩ <;>
    rcases hrem with hrem | ⟨hrem, hparity⟩ <;> rw [hchop]
  · have hlow := mul_le_mul_of_nonneg_left (Int.le_sub_one_of_lt hrem) hm.le
    simp only [precision] at *
    omega
  · rw [hrem] at hleft
    simp only [precision] at *
    omega
  · have hhigh := mul_le_mul_of_nonneg_left (Int.add_one_le_of_lt hrem) hm.le
    rw [add_one_mul]
    simp only [precision] at *
    omega
  · rw [hrem] at hleft
    rw [add_one_mul]
    simp only [precision] at *
    omega

/-- A tie that was made by truncating is rounded to the unit below the nearest one. -/
lemma nearestEven_of_dropsTie (hm : 0 < m) (htie : DropsTie n m) :
    NearestEven (n / (m * precision : ℤ)) (chopNonneg (n / m) + 1) := by
  rw [nearestEven_div (mul_pos hm precision_pos), Int.abs_eq_natAbs]
  have hleft := sub_units n m
  have ht0 := Int.emod_nonneg n hm.ne'
  have htm := Int.emod_lt_of_pos n hm
  obtain ⟨ht, htie⟩ := htie
  have hmiddle : n / m % precision = precision / 2 := by
    simp only [precision] at *
    omega
  have hchop : chopNonneg (n / m) = n / m / precision := by
    rcases chopNonneg_cases (n / m) with h | h
    · exact h.1
    · simp only [precision] at *
      omega
  rw [hchop, add_one_mul]
  rw [hmiddle] at hleft
  simp only [precision] at *
  omega

lemma nearestEven_chopPrecisionAndRound (n : ℤ) :
    NearestEven (n / (precision : ℤ)) (chopPrecisionAndRound n) := by
  have hnonneg : ∀ n : ℤ, NearestEven (n / (precision : ℤ)) (chopNonneg n) := by
    intro n
    have hround := nearestEven_chopNonneg (n := n) (m := 1) one_pos (by simp [DropsTie])
    rwa [one_mul, Int.ediv_one] at hround
  unfold chopPrecisionAndRound
  split_ifs with h
  · rw [← nearestEven_neg, neg_neg, ← neg_div]
    simpa using hnonneg (-n)
  · exact hnonneg n

/-- A product in range is rounded to the nearest unit and a decimal to the nearest integer, both
half to even, and both are odd. -/
theorem mul_roundInt_nearestEven (a b r : Dec) (i : ℤ) : (a.mul b = .ok r ↔
      InRange r.raw ∧ NearestEven ((a.raw * b.raw : ℤ) / (precision : ℤ)) r.raw) ∧
    (a.roundInt = .ok i ↔ SdkInt.InRange i ∧ NearestEven (a.raw / (precision : ℤ)) i) ∧
    (a.neg.mul b = .ok r.neg ↔ a.mul b = .ok r) ∧ (a.mul b.neg = .ok r.neg ↔ a.mul b = .ok r) ∧
    (a.neg.roundInt = .ok (-i) ↔ a.roundInt = .ok i) := by
  have hround := nearestEven_chopPrecisionAndRound
  have hunique : ∀ {n k : ℤ}, k = chopPrecisionAndRound n ↔ NearestEven (n / (precision : ℤ)) k :=
    ⟨fun h => h ▸ hround _, fun h => h.unique (hround _)⟩
  have hneg : ∀ {n : ℤ}, InRange (-n) ↔ InRange n := by simp [InRange, bitLen]
  have hnegInt : ∀ {n : ℤ}, SdkInt.InRange (-n) ↔ SdkInt.InRange n := by
    simp [SdkInt.InRange, bitLen]
  simp only [mul, roundInt, checked_ok, SdkInt.newIntFromBigInt_ok, neg, neg_mul, mul_neg,
    chopPrecisionAndRound_neg, neg_inj, hneg, hnegInt, and_self, and_true, ← hunique]
  exact ⟨⟨fun h => ⟨h.1 ▸ h.2, h.1⟩, fun h => ⟨h.2, h.2 ▸ h.1⟩⟩,
    ⟨fun h => ⟨h.1 ▸ h.2, h.1⟩, fun h => ⟨h.2, h.2 ▸ h.1⟩⟩⟩

lemma chopPrecisionAndRound_tdiv_iff (hn : 0 ≤ n) (hm : 0 < m)
    (hnearest : NearestEven (n / (m * precision : ℤ)) k) :
    chopPrecisionAndRound (n.tdiv m) = k ↔ ¬ DropsTie n m := by
  rw [Int.tdiv_eq_ediv_of_nonneg hn, chopPrecisionAndRound,
    if_neg (not_lt.mpr (Int.ediv_nonneg hn hm.le))]
  refine ⟨fun heq htie => ?_, fun htie => (nearestEven_chopNonneg hm htie).unique hnearest⟩
  have hup := (nearestEven_of_dropsTie hm htie).unique hnearest
  omega

/-- `Quo` returns the nearest unit, half to even, unless the fraction it drops decides a tie above
an even unit. -/
theorem quo_eq_nearest_iff (hb : b.raw ≠ 0)
    (hnearest : NearestEven ((a.raw * precision : ℤ) / (b.raw : ℤ)) n) (hrange : InRange n) :
    a.quo b = .ok ⟨n⟩ ↔ ¬ DropsTie |a.raw * precision * precision| |b.raw| := by
  have hquo : a.quo b = .ok ⟨n⟩ ↔
      chopPrecisionAndRound ((a.raw * precision * precision).tdiv b.raw) = n := by
    rw [quo, if_neg hb, checked_ok]
    exact ⟨fun h => h.1.symm, fun h => ⟨h.symm, h ▸ hrange⟩⟩
  have hunits : NearestEven ((a.raw * precision * precision : ℤ) / (b.raw * precision : ℤ)) n := by
    have hP : (precision : ℚ) ≠ 0 := by exact_mod_cast precision_pos.ne'
    rwa [Int.cast_mul (a.raw * precision), Int.cast_mul b.raw, mul_div_mul_right _ _ hP]
  rw [hquo]
  generalize a.raw * precision * precision = N at *
  -- the signs of the operands are moved to the result
  rcases le_total 0 N with hN | hN <;> rcases lt_or_gt_of_ne hb with hneg | hpos
  · rw [abs_of_nonneg hN, abs_of_neg hneg, ← chopPrecisionAndRound_tdiv_iff (k := -n) hN
      (neg_pos.mpr hneg) (by simpa [div_neg] using hunits.neg), Int.tdiv_neg,
      chopPrecisionAndRound_neg, neg_inj]
  · rw [abs_of_nonneg hN, abs_of_pos hpos, ← chopPrecisionAndRound_tdiv_iff hN hpos hunits]
  · rw [abs_of_nonpos hN, abs_of_neg hneg, ← chopPrecisionAndRound_tdiv_iff (k := n)
      (neg_nonneg.mpr hN) (neg_pos.mpr hneg) (by simpa [neg_div_neg_eq] using hunits),
      Int.tdiv_neg, Int.neg_tdiv, neg_neg]
  · rw [abs_of_nonpos hN, abs_of_pos hpos, ← chopPrecisionAndRound_tdiv_iff (k := -n)
      (neg_nonneg.mpr hN) hpos (by simpa [neg_div] using hunits.neg), Int.neg_tdiv,
      chopPrecisionAndRound_neg, neg_inj]

theorem third_eq_nearest : (one.quo ⟨3 * precision⟩ = .ok ⟨3333333333⟩ ↔
    ¬ DropsTie |one.raw * precision * precision| |3 * precision|) :=
  quo_eq_nearest_iff (by decide)
    (by rw [nearestEven_div (by decide)]; decide) (by unfold InRange; decide +kernel)

/-- Quotient of `10 ^ (-10)` and `1.9999999999` is more than half a unit and rounded to zero. -/
theorem quo_rounds_to_zero :
    NearestEven (((⟨1⟩ : Dec).raw * precision : ℤ) / ((⟨19999999999⟩ : Dec).raw : ℤ)) 1 ∧
      quo ⟨1⟩ ⟨19999999999⟩ = .ok zero :=
  ⟨by rw [nearestEven_div (by decide)]; decide, by decide +kernel⟩

end Irishub.Dec
