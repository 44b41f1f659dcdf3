import Irishub.Stake.Effects

/-!
# Stake: a delegation that is taken back

`AddTokensFromDel` followed by `RemoveDelShares` of the issued shares. All three quotients are
rounded to the nearest unit: the issued shares may be worth half a unit of a share more than the
tokens. Since whole tokens are paid, this gains nothing unless half a unit of a share is worth
a token (`delegation_round_trip_le`).
-/

namespace Irishub.Stake
variable {v : Validator}

open Lib

section
variable {d : ℤ}

lemma chopPrecisionAndRound_bounds (h : 0 ≤ d) :
    2 * d - Dec.precision ≤ 2 * Dec.precision * Dec.chopPrecisionAndRound d ∧
      2 * Dec.precision * Dec.chopPrecisionAndRound d ≤ 2 * d + Dec.precision := by
  simp only [Dec.chopPrecisionAndRound, if_neg (not_lt.mpr h), Dec.chopNonneg, Dec.precision]
  split_ifs <;> omega

lemma chopPrecisionAndRound_mono {d' : ℤ} (h : 0 ≤ d) (hle : d ≤ d') :
    Dec.chopPrecisionAndRound d ≤ Dec.chopPrecisionAndRound d' := by
  simp only [Dec.chopPrecisionAndRound, if_neg (not_lt.mpr h), if_neg (not_lt.mpr (h.trans hle)),
    Dec.chopNonneg, Dec.precision]
  split_ifs <;> omega

variable {d d2 r : Dec}

lemma quo_bounds (h : d.quo d2 = .ok r) (hd : 0 ≤ d.raw) (hd2 : 0 < d2.raw) :
    ∃ q, 0 ≤ q ∧ r.raw = Dec.chopPrecisionAndRound q ∧
      d2.raw * q ≤ d.raw * Dec.precision * Dec.precision ∧
      d.raw * Dec.precision * Dec.precision < d2.raw * (q + 1) := by
  have hnum : 0 ≤ d.raw * Dec.precision * Dec.precision :=
    mul_nonneg (mul_nonneg hd Dec.precision_pos.le) Dec.precision_pos.le
  refine ⟨_, Int.tdiv_nonneg hnum hd2.le, (Dec.quo_ok h).2, ?_, ?_⟩
  · rw [Int.tdiv_eq_ediv_of_nonneg hnum]
    exact Int.mul_ediv_self_le hd2.ne'
  · rw [Int.tdiv_eq_ediv_of_nonneg hnum]
    exact Int.lt_mul_ediv_self_add hd2 |>.trans_eq (by ring)

end

/-- Shares for `a` tokens at the rate `e` are worth less than one token more at `e'`. -/
lemma value_lt {P t s a e i e' qe q q' : ℤ} (hP : 0 < P) (hs : 0 < s) (hi : 0 ≤ i) (he : 0 ≤ e)
    (hqe : t * P * P < s * (qe + 1)) (hq : e * q ≤ a * P * P) (hq1 : a * P * P < e * (q + 1))
    (hq' : (s + i) * q' ≤ (t + a) * P * P) (hmono : q' ≤ qe → e' ≤ e)
    (hi1 : 2 * q - P ≤ 2 * P * i) (hi2 : 2 * P * i ≤ 2 * q + P) (he' : 2 * P * e' ≤ 2 * q' + P) :
    2 * P * (e' * i) ≤ 2 * (a * P * P) + e * (P + 2) := by
  have hup := mul_le_mul_of_nonneg_left hi2 he
  have hdown := mul_le_mul_of_nonneg_left hi1 he
  have hworth := mul_le_mul_of_nonneg_right he' hi
  by_cases hrate : e' ≤ e
  · have hle := mul_le_mul_of_nonneg_right hrate hi
    nlinarith
  · -- the rate has risen, so it is below the one of the added tokens, and few shares are issued
    have hlt : qe + 1 ≤ q' := by
      by_contra hnot
      exact hrate (hmono (by omega))
    have hold := mul_le_mul_of_nonneg_left hlt hs.le
    have hadded : i * q' ≤ a * P * P := by nlinarith
    have hrise : 2 * P * (e + 1) ≤ 2 * q' + P := by nlinarith
    have hrisen := mul_le_mul_of_nonneg_right hrise hi
    nlinarith

lemma delegatorShareExRate_eq (h : 0 < v.delegatorShares.raw) :
    v.delegatorShareExRate = v.tokens.quo v.delegatorShares := by
  simp [Validator.delegatorShareExRate, Dec.isZero, h.ne']

def roundTrip (v : Validator) (pool : Pool) (amount : ℤ) : Outcome Dec := do
  let (v, pool, issuedShares) ← v.addTokensFromDel pool amount
  let (_, _, paid) ← v.removeDelShares pool issuedShares
  return paid

/-- A delegation that is taken back at once pays at most what was delegated, as long as a share is
worth less than about `2 * 10 ^ 10` tokens. -/
theorem delegation_round_trip_le {pool : Pool} {amount : ℤ} {paid : Dec}
    (htokens : 0 < v.tokens.raw) (hshares : 0 < v.delegatorShares.raw) (hamount : 0 < amount)
    (hrate : v.tokens.raw ≤ (2 * Dec.precision - 5) * v.delegatorShares.raw)
    (h : roundTrip v pool amount = .ok paid) : paid.raw ≤ amount * Dec.precision := by
  simp only [roundTrip, bind_ok, pure_eq_ok, Prod.exists] at h
  obtain ⟨v', _, shares, hadd, _, _, _, hremove, rfl⟩ := h
  obtain ⟨e, tokens, total, he, hene, _, hsum, hissued, htotal, rfl⟩ := addTokensFromDel_ok hadd
  obtain ⟨_, _, hpaid, _⟩ := removeDelShares_ok hremove
  have hP : (0 : ℤ) < Dec.precision := Dec.precision_pos
  have hA : 0 < amount * Dec.precision := mul_pos hamount hP
  have hsum' : tokens.raw = v.tokens.raw + amount * Dec.precision := (Dec.add_eq_ok.mp hsum).1
  have htotal' : total.raw = v.delegatorShares.raw + shares.raw := (Dec.add_eq_ok.mp htotal).1
  rw [delegatorShareExRate_eq hshares] at he
  obtain ⟨qe, hqe0, heq, hqe, hqe1⟩ := quo_bounds he htokens.le hshares
  have he0 : 0 < e.raw := lt_of_le_of_ne (Dec.quo_nonneg he htokens.le hshares.le) (Ne.symm hene)
  obtain ⟨q, hq0, hi, hq, hq1⟩ := quo_bounds hissued hA.le he0
  have hi0 : 0 ≤ shares.raw := Dec.quo_nonneg hissued hA.le he0.le
  have htotal0 : 0 < total.raw := by omega
  simp only [Validator.issuedAmount, Dec.mul, Dec.truncateDec, Dec.truncateInt,
    SdkInt.newIntFromBigInt_ok, bind_ok, pure_eq_ok, Dec.checked_ok] at hpaid
  obtain ⟨e', he', product, ⟨hproduct, _⟩, _, ⟨_, ⟨rfl, _⟩, rfl⟩, rfl⟩ := hpaid
  rw [delegatorShareExRate_eq htotal0] at he'
  have htokens0 : 0 ≤ tokens.raw := by omega
  obtain ⟨q', hq'0, heq', hq', _⟩ := quo_bounds he' htokens0 htotal0
  simp only [hsum', htotal'] at hq'
  have he'0 : 0 ≤ e'.raw := Dec.quo_nonneg he' htokens0 htotal0.le
  have hmono : q' ≤ qe → e'.raw ≤ e.raw := by
    intro hle
    rw [heq, heq']
    exact chopPrecisionAndRound_mono hq'0 hle
  have hvalue := value_lt hP hshares hi0 he0.le hqe1 hq hq1 hq' hmono
    (by rw [hi]; exact (chopPrecisionAndRound_bounds hq0).1)
    (by rw [hi]; exact (chopPrecisionAndRound_bounds hq0).2)
    (by rw [heq']; exact (chopPrecisionAndRound_bounds hq'0).2)
  have hround := (chopPrecisionAndRound_bounds (mul_nonneg he'0 hi0)).2
  rw [← hproduct] at hround
  have hsmall : e.raw ≤ (2 * Dec.precision - 5) * Dec.precision := by
    rw [heq]
    refine Dec.chopPrecisionAndRound_le (le_of_mul_le_mul_left (hqe.trans ?_) hshares)
    have hscaled := mul_le_mul_of_nonneg_right (mul_le_mul_of_nonneg_right hrate hP.le) hP.le
    linarith
  have hlt : product.raw < amount * Dec.precision + Dec.precision := by
    simp only [Dec.precision, Dec.newDecFromInt_raw] at hvalue hround hsmall ⊢
    linarith
  have hwhole : Dec.chopPrecisionAndTruncate product.raw ≤ amount := by
    have hproduct0 : 0 ≤ product.raw := by
      rw [hproduct]
      exact Dec.le_chopPrecisionAndRound (by rw [zero_mul]; exact mul_nonneg he'0 hi0)
    rw [Dec.chopPrecisionAndTruncate, Int.tdiv_eq_ediv_of_nonneg hproduct0]
    exact Int.lt_add_one_iff.mp (Int.ediv_lt_of_lt_mul hP (by linarith))
  have hle := mul_le_mul_of_nonneg_right hwhole hP.le
  rw [if_neg]
  · exact hle
  · rintro (hless | hall)
    · rw [Dec.lt_def, hsum'] at hless
      exact absurd (hless.trans_le hle) (by omega)
    · rw [Dec.ext_iff, htotal'] at hall
      omega

def ratedValidator (tokens shares : ℤ) : Validator :=
  { newValidator 1 ⟨"ed25519", 1⟩ ⟨"", "", "", ""⟩ with
    tokens := .newDecFromInt tokens
    delegatorShares := .newDecFromInt shares }

def emptyPool : Pool := ⟨.zero, Store.empty, ⟨[], by decide, by decide⟩, Store.empty⟩

/-- A share is worth `2 * 10 ^ 10` tokens: three are delegated and four are paid back. -/
theorem delegation_round_trip_gains :
    roundTrip (ratedValidator (2 * 10 ^ 21) (10 ^ 11)) emptyPool 3 = .ok (.newDecFromInt 4) := by
  decide +kernel

theorem delegation_round_trip_le_seven :
    ∃ paid, roundTrip (ratedValidator 3 2) emptyPool 7 = .ok paid ∧
      paid.raw ≤ 7 * Dec.precision := by
  obtain ⟨paid, hpaid, _⟩ := of_returns (p := fun _ : Dec => true)
    (x := roundTrip (ratedValidator 3 2) emptyPool 7) (by decide +kernel)
  exact ⟨paid, hpaid,
    delegation_round_trip_le (by decide) (by decide) (by decide) (by decide) hpaid⟩

end Irishub.Stake
