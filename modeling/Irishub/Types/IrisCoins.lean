import Irishub.Types.Coin

/-!
# Coins of the iris token alone

Deposits, prices and fees of most modules are iris-atto coins. On such coins the
set operations are the arithmetic of one amount, `iris cs`, and they fail only at
the range of an `sdk.Int` or at a negative result.
-/

namespace Irishub
open Lib List

namespace Coins

def IrisOnly (cs : Coins) : Prop := cs = [] ∨ ∃ x, 0 ≤ x ∧ cs = [⟨irisAtto, x⟩]

def iris (cs : Coins) : ℤ := denomSum irisAtto cs

@[simp] lemma iris_nil : iris [] = 0 := rfl

@[simp] lemma iris_single (x : ℤ) : iris [⟨irisAtto, x⟩] = x := by simp [iris, Coin.amountIn]

namespace IrisOnly
variable {cs : Coins}

lemma nil : IrisOnly [] := Or.inl rfl

lemma single {x : ℤ} (h : 0 ≤ x) : IrisOnly [⟨irisAtto, x⟩] := Or.inr ⟨x, h, rfl⟩

lemma nonneg (h : IrisOnly cs) : 0 ≤ iris cs := by
  rcases h with rfl | ⟨x, hx, rfl⟩
  · exact le_rfl
  · rw [iris_single]
    exact hx

lemma length_le (h : IrisOnly cs) : cs.length ≤ 1 := by
  rcases h with rfl | ⟨x, _, rfl⟩
  · simp
  · simp

lemma steady (h : IrisOnly cs) : Steady cs := .of_length_le h.length_le

lemma sorted (h : IrisOnly cs) : Sorted cs := by
  rcases h with rfl | ⟨x, _, rfl⟩
  · exact Pairwise.nil
  · exact sorted_singleton _

lemma isValid (h : IrisOnly cs) : cs.isValid = true := by
  rcases h with rfl | ⟨x, hx, rfl⟩
  · rfl
  · have hdenom : isCoinMinDenomValid irisAtto = true := by decide
    simp [isValid, isValidFrom, Coin.isValid, hx, hdenom]

lemma of_isValidIrisAtto (h : cs.isValidIrisAtto = true) : IrisOnly cs ∧ 0 < iris cs := by
  match cs, h with
  | [c], h =>
    simp only [isValidIrisAtto, Coin.isValidIrisAtto, Coin.isPositive, Bool.and_eq_true,
      beq_iff_eq, decide_eq_true_eq] at h
    obtain ⟨denom, amount⟩ := c
    obtain ⟨rfl, hpos⟩ := h
    exact ⟨single hpos.le, by simpa using hpos⟩

lemma of_coin {c : Coin} (h : c.isValidIrisAtto = true) :
    IrisOnly [c] ∧ 0 < iris [c] := of_isValidIrisAtto h

end IrisOnly

section
variable {as bs cs r : Coins} {c : Coin} {Q : Prop}

lemma mergeHead_cases {a : Coin} {next : Coins → Outcome Coins}
    (hQ : ∀ b ∈ bs, a.denom = b.denom → ¬ SdkInt.InRange (a.amount + b.amount) → Q)
    (hnext : ∀ cs, cs <:+ bs → (∃ r, next cs = .ok r) ∨ next cs = raise .intOverflow ∧ Q) :
    (∃ r, mergeHead a as next bs = .ok r) ∨ mergeHead a as next bs = raise .intOverflow ∧ Q := by
  induction bs with
  | nil => exact Or.inl ⟨_, rfl⟩
  | cons b bs ih =>
    have htail := fun cs (hcs : cs <:+ bs) => hnext cs (hcs.trans (suffix_cons b bs))
    rw [mergeHead]
    split_ifs with hlt heq
    · rcases hnext (b :: bs) suffix_rfl with ⟨r, hr⟩ | ⟨hr, hq⟩
      · exact Or.inl ⟨_, by rw [hr]; rfl⟩
      · exact Or.inr ⟨by rw [hr]; rfl, hq⟩
    · unfold Coin.add SdkInt.add SdkInt.checked
      rw [if_neg (not_not.mpr heq)]
      split_ifs with hrange
      · exact Or.inr ⟨rfl, hQ b (by simp) heq (not_le.mpr hrange)⟩
      · rcases htail bs suffix_rfl with ⟨r, hr⟩ | ⟨hr, hq⟩
        · exact Or.inl ⟨_, by rw [hr]; rfl⟩
        · exact Or.inr ⟨by rw [hr]; rfl, hq⟩
    · rcases ih (fun b' hb' => hQ b' (mem_cons_of_mem _ hb')) htail with ⟨r, hr⟩ | ⟨hr, hq⟩
      · exact Or.inl ⟨_, by rw [hr]; rfl⟩
      · exact Or.inr ⟨by rw [hr]; rfl, hq⟩

lemma safeAdd_cases (as : Coins)
    (hQ : ∀ a ∈ as, ∀ b ∈ bs, a.denom = b.denom → ¬ SdkInt.InRange (a.amount + b.amount) → Q) :
    (∃ r, safeAdd as bs = .ok r) ∨ safeAdd as bs = raise .intOverflow ∧ Q := by
  induction as generalizing bs with
  | nil => exact Or.inl ⟨_, rfl⟩
  | cons a as ih =>
    refine mergeHead_cases (fun b hb => hQ a (by simp) b hb) (fun cs hcs => ih ?_)
    exact fun a' ha' b hb => hQ a' (mem_cons_of_mem _ ha') b (hcs.subset hb)

lemma safeAdd_ok (as : Coins)
    (h : ∀ a ∈ as, ∀ b ∈ bs, a.denom = b.denom → SdkInt.InRange (a.amount + b.amount)) :
    ∃ r, safeAdd as bs = .ok r :=
  (safeAdd_cases as (fun a ha b hb hd hrange => hrange (h a ha b hb hd))).resolve_right (·.2)

lemma denomSum_of_mem (hs : Sorted cs) (hc : c ∈ cs) : denomSum c.denom cs = c.amount := by
  induction cs with
  | nil => simp at hc
  | cons c' cs ih =>
    obtain ⟨habove, hs⟩ := sorted_cons.mp hs
    rw [denomSum_cons]
    rcases mem_cons.mp hc with rfl | hc
    · have hrest : denomSum c.denom cs = 0 := denomSum_eq_zero (fun c' hc' => (habove c' hc').ne')
      rw [hrest, Coin.amountIn, if_pos rfl, add_zero]
    · rw [ih hs hc, Coin.amountIn_of_ne (habove c hc).ne, zero_add]

lemma inRange_of_safeAdd (hs : Sorted as) {b : Coin}
    (hb : SdkInt.InRange b.amount) (h : safeAdd as [b] = .ok r) :
    SdkInt.InRange (denomSum b.denom as + b.amount) := by
  induction as generalizing r with
  | nil => simpa using hb
  | cons a as ih =>
    obtain ⟨habove, hs⟩ := sorted_cons.mp hs
    simp only [safeAdd, mergeHead] at h
    rw [denomSum_cons]
    split_ifs at h with hlt heq
    · obtain ⟨sum, hsum, _⟩ := bind_ok.mp h
      rw [Coin.amountIn_of_ne hlt.ne, zero_add]
      exact ih hs hsum
    · obtain ⟨sum, hsum, _⟩ := bind_ok.mp h
      obtain ⟨_, rfl, hrange⟩ := Coin.eq_of_add_ok hsum
      rw [← heq, denomSum_eq_zero (fun c hc => (habove c hc).ne'), Coin.amountIn, if_pos rfl,
        add_zero]
      exact hrange
    · -- the coin comes before all others
      have hlt' : b.denom < a.denom := lt_of_le_of_ne (not_lt.mp hlt) (Ne.symm heq)
      rw [Coin.amountIn_of_ne hlt'.ne',
        denomSum_eq_zero (fun c hc => (hlt'.trans (habove c hc)).ne'),
        zero_add, zero_add]
      exact hb

lemma isAnyNegative_eq_false (hs : Sorted cs) :
    isAnyNegative cs = false ↔ ∀ d, 0 ≤ denomSum d cs := by
  simp only [isAnyNegative, any_eq_false, decide_eq_true_eq, not_lt]
  refine ⟨fun h d => denomSum_nonneg h, fun h c hc => ?_⟩
  rw [← denomSum_of_mem hs hc]
  exact h c.denom

lemma denomSum_of_irisOnly (h : IrisOnly cs) (d : String) :
    denomSum d cs = if d = irisAtto then iris cs else 0 := by
  rcases h with rfl | ⟨x, _, rfl⟩
  · simp
  · simp [Coin.amountIn, eq_comm]

lemma iris_safeAdd (h : safeAdd as bs = .ok r) : iris r = iris as + iris bs :=
  denomSum_safeAdd irisAtto h

lemma iris_negative (cs : Coins) : iris (negative cs) = -iris cs := denomSum_negative irisAtto cs

lemma safeAdd_shape (has : as = [] ∨ ∃ x, as = [⟨irisAtto, x⟩])
    (hbs : bs = [] ∨ ∃ x, bs = [⟨irisAtto, x⟩]) (h : safeAdd as bs = .ok r) :
    r = [] ∨ r = [⟨irisAtto, iris r⟩] := by
  have hzero : ∀ x : ℤ, removeZeroCoins [⟨irisAtto, x⟩] = [] ∨
      removeZeroCoins [⟨irisAtto, x⟩] = [⟨irisAtto, x⟩] := by
    intro x
    by_cases hx : x = 0 <;> simp [removeZeroCoins, hx]
  have hshape : ∃ x, r = [] ∨ r = [⟨irisAtto, x⟩] := by
    rcases has with rfl | ⟨x, rfl⟩
    · simp only [safeAdd, Except.ok.injEq] at h
      subst h
      rcases hbs with rfl | ⟨y, rfl⟩
      · exact ⟨0, Or.inl rfl⟩
      · exact ⟨y, hzero y⟩
    · rcases hbs with rfl | ⟨y, rfl⟩
      · simp only [safeAdd, mergeHead, Except.ok.injEq] at h
        subst h
        exact ⟨x, hzero x⟩
      · simp only [safeAdd, mergeHead, lt_irrefl, if_false, if_true] at h
        obtain ⟨c, hc, h⟩ := bind_ok.mp h
        obtain ⟨_, rfl, _⟩ := Coin.eq_of_add_ok hc
        simp only [ok_bind, pure_eq_ok] at h
        subst h
        refine ⟨x + y, ?_⟩
        by_cases hxy : x + y = 0 <;> simp [removeZeroCoins, consNonzero, hxy]
  obtain ⟨x, rfl | rfl⟩ := hshape
  · exact Or.inl rfl
  · exact Or.inr (by simp)

lemma IrisOnly.shape (h : IrisOnly cs) : cs = [] ∨ ∃ x, cs = [⟨irisAtto, x⟩] := by
  rcases h with rfl | ⟨x, _, rfl⟩
  · exact Or.inl rfl
  · exact Or.inr ⟨x, rfl⟩

lemma IrisOnly.shape_negative (h : IrisOnly cs) :
    negative cs = [] ∨ ∃ x, negative cs = [⟨irisAtto, x⟩] := by
  rcases h with rfl | ⟨x, _, rfl⟩
  · exact Or.inl rfl
  · exact Or.inr ⟨-x, rfl⟩

lemma irisOnly_of_shape (h : r = [] ∨ r = [⟨irisAtto, iris r⟩]) (hnn : 0 ≤ iris r) :
    IrisOnly r := by
  rcases h with h | h
  · exact Or.inl h
  · exact Or.inr ⟨iris r, hnn, h⟩

lemma IrisOnly.of_add (has : IrisOnly as) (hbs : IrisOnly bs)
    (h : add as bs = .ok r) : IrisOnly r ∧ iris r = iris as + iris bs := by
  obtain ⟨r', hr', h⟩ := bind_ok.mp h
  obtain ⟨_, _, h⟩ := bind_ok.mp h
  cases h
  have hsum := iris_safeAdd hr'
  refine ⟨irisOnly_of_shape (safeAdd_shape has.shape hbs.shape hr') ?_, hsum⟩
  rw [hsum]
  exact add_nonneg has.nonneg hbs.nonneg

lemma irisOnly_amount_eq (h : cs = [] ∨ ∃ x, cs = [⟨irisAtto, x⟩])
    (hc : c ∈ cs) : c = ⟨irisAtto, iris cs⟩ := by
  rcases h with rfl | ⟨x, rfl⟩
  · simp at hc
  · rw [mem_singleton.mp hc, iris_single]

lemma safeAdd_iris_ok (has : as = [] ∨ ∃ x, as = [⟨irisAtto, x⟩])
    (hbs : bs = [] ∨ ∃ x, bs = [⟨irisAtto, x⟩]) (h : SdkInt.InRange (iris as + iris bs)) :
    ∃ r, safeAdd as bs = .ok r := by
  refine safeAdd_ok as (fun a ha b hb _ => ?_)
  rw [irisOnly_amount_eq has ha, irisOnly_amount_eq hbs hb]
  exact h

lemma IrisOnly.none_negative (h : IrisOnly cs) : isAnyNegative cs = false := by
  refine (isAnyNegative_eq_false h.sorted).mpr (fun d => ?_)
  rw [denomSum_of_irisOnly h]
  split_ifs
  · exact h.nonneg
  · exact le_rfl

lemma IrisOnly.add_ok (has : IrisOnly as) (hbs : IrisOnly bs)
    (h : SdkInt.InRange (iris as + iris bs)) :
    ∃ r, add as bs = .ok r ∧ IrisOnly r ∧ iris r = iris as + iris bs := by
  obtain ⟨r, hr⟩ := safeAdd_iris_ok has.shape hbs.shape h
  have hsum := iris_safeAdd hr
  have hr' : IrisOnly r := by
    refine irisOnly_of_shape (safeAdd_shape has.shape hbs.shape hr) ?_
    rw [hsum]
    exact add_nonneg has.nonneg hbs.nonneg
  refine ⟨r, ?_, hr', hsum⟩
  simp [add, hr, hr'.none_negative, assert]

lemma IrisOnly.safeSub_ok (has : IrisOnly as) (hbs : IrisOnly bs)
    (hle : iris bs ≤ iris as) (h : SdkInt.InRange (iris as)) :
    ∃ r, safeSub as bs = .ok (r, false) ∧ IrisOnly r ∧ iris r = iris as - iris bs := by
  have hrange : SdkInt.InRange (iris as + iris (negative bs)) := by
    rw [iris_negative, SdkInt.inRange_iff]
    have has' := (SdkInt.inRange_iff.mp h).2
    have := hbs.nonneg
    constructor <;> omega
  obtain ⟨r, hr⟩ := safeAdd_iris_ok has.shape hbs.shape_negative hrange
  have hsum : iris r = iris as - iris bs := by
    rw [iris_safeAdd hr, iris_negative]
    ring
  have hr' : IrisOnly r := by
    refine irisOnly_of_shape (safeAdd_shape has.shape hbs.shape_negative hr) ?_
    omega
  refine ⟨r, ?_, hr', hsum⟩
  simp [safeSub, hr, hr'.none_negative]

lemma IrisOnly.isAllGTE_iff {ds : Coins} (hcs : IrisOnly cs) (hds : IrisOnly ds) :
    isAllGTE cs ds = true ↔ iris ds ≤ iris cs := by
  rcases hds with rfl | ⟨y, hy, rfl⟩
  · simpa [isAllGTE, isZero] using hcs.nonneg
  · rcases hcs with rfl | ⟨x, hx, rfl⟩
    · simp only [isAllGTE, isZero, all_cons, all_nil, Bool.and_true, decide_eq_true_eq,
        iris_single, iris_nil]
      split_ifs with h0 <;> simp <;> omega
    · have hamount : amountOf [⟨irisAtto, x⟩] irisAtto = x := by
        rw [amountOf_eq_denomSum (sorted_singleton _)]
        exact iris_single x
      simp only [isAllGTE, isZero, all_cons, all_nil, Bool.and_true, decide_eq_true_eq,
        iris_single, hamount]
      split_ifs with h0 h1 <;> simp <;> omega

lemma IrisOnly.of_safeSub (has : IrisOnly as) (hbs : IrisOnly bs)
    (h : safeSub as bs = .ok (r, false)) : IrisOnly r ∧ iris r = iris as - iris bs := by
  obtain ⟨r', hr, h⟩ := bind_ok.mp h
  simp only [pure_eq_ok, Prod.mk.injEq] at h
  obtain ⟨rfl, hneg⟩ := h
  have hsum : iris r' = iris as - iris bs := by
    rw [iris_safeAdd hr, iris_negative]
    ring
  refine ⟨?_, hsum⟩
  rcases safeAdd_shape has.shape hbs.shape_negative hr with h | h
  · exact Or.inl h
  · refine Or.inr ⟨iris r', ?_, h⟩
    rw [h] at hneg
    simpa [isAnyNegative] using hneg

end
end Coins
end Irishub
