import Irishub.Service.Keeper
import Irishub.Types.IrisCoins

/-!
# Service: min deposits and shares

`getMinDeposit` of iris prices is the sum of the prices times the deposit multiple,
and it is computed exactly when that sum is in the range of an `sdk.Int`
(`getMinDeposit_ok_iff`). `shareOf`, the loop behind the tax and the slash, takes a
smaller iris coin from an iris coin.
-/

namespace Irishub.Service
open Lib Coins SdkInt

section

def pricesSum (prices : List Coin) : ℤ := prices.foldr (fun p sum => p.amount + sum) 0

/-- Min deposit of the prices is an `sdk.Int`. -/
def MinDepositInRange (params : Params) (prices : List Coin) : Prop :=
  pricesSum prices * params.minDepositMultiple < 2 ^ 255

variable {params : Params} {prices : List Coin} {r acc : Coins} {price : Coin}

lemma bitLen_add_le {x y : ℤ} (hx : 0 < x) (hy : 0 < y) (h : x * y < 2 ^ 255) :
    bitLen x + bitLen y - 1 ≤ 255 := by
  have hsize : ∀ {z : ℤ}, 0 < z → 2 ^ (bitLen z - 1) ≤ z.natAbs := by
    intro z hz
    have hpos : 0 < bitLen z := Nat.size_pos.mpr (by omega)
    exact Nat.lt_size.mp (show bitLen z - 1 < bitLen z by omega)
  have hprod : 2 ^ (bitLen x - 1 + (bitLen y - 1)) < 2 ^ 255 := by
    calc 2 ^ (bitLen x - 1 + (bitLen y - 1))
        = 2 ^ (bitLen x - 1) * 2 ^ (bitLen y - 1) := pow_add _ _ _
      _ ≤ x.natAbs * y.natAbs := Nat.mul_le_mul (hsize hx) (hsize hy)
      _ = (x * y).natAbs := (Int.natAbs_mul x y).symm
      _ < 2 ^ 255 := by
          have hnn : 0 ≤ x * y := (Int.mul_pos hx hy).le
          have hcast : ((x * y).natAbs : ℤ) < 2 ^ 255 := by omega
          exact_mod_cast hcast
  have hexp := (Nat.pow_lt_pow_iff_right (by decide : 1 < 2)).mp hprod
  have hposx : 0 < bitLen x := Nat.size_pos.mpr (by omega)
  have hposy : 0 < bitLen y := Nat.size_pos.mpr (by omega)
  omega

/-- One iteration of `getMinDeposit`. -/
def addMinDeposit (params : Params) (minDeposit : Coins) (price : Coin) : Outcome Coins := do
  require (bitLen price.amount + bitLen params.minDepositMultiple - 1 ≤ 255) .codeIntOverflow
  let minInt ← SdkInt.mul price.amount params.minDepositMultiple
  let coin ← Coin.newCoin price.denom minInt
  minDeposit.add [coin]

lemma getMinDeposit_eq : getMinDeposit params prices = prices.foldlM (addMinDeposit params) [] :=
  rfl

lemma iris_add_lt {as bs : Coins} (has : as.IrisOnly) (hbs : bs.IrisOnly)
    (has' : as.iris < 2 ^ 255) (hbs' : bs.iris < 2 ^ 255) (h : Coins.add as bs = .ok r) :
    as.iris + bs.iris < 2 ^ 255 := by
  obtain ⟨r', hr', -⟩ := bind_ok.mp h
  rcases has with rfl | ⟨x, _, rfl⟩
  · simpa using hbs'
  · rcases hbs with rfl | ⟨y, _, rfl⟩
    · simpa using has'
    · simp only [Coins.safeAdd, Coins.mergeHead, lt_irrefl, if_false, if_true] at hr'
      obtain ⟨c, hc, -⟩ := bind_ok.mp hr'
      simp only [Coin.add, ne_eq, not_true_eq_false, if_false] at hc
      obtain ⟨z, hz, -⟩ := bind_ok.mp hc
      obtain ⟨rfl, hrange⟩ := add_eq_ok.mp hz
      rw [iris_single, iris_single]
      exact (inRange_iff.mp hrange).2

lemma addMinDeposit_ok (hmul : 0 < params.minDepositMultiple)
    (hacc : acc.IrisOnly) (hprice : price.isValidIrisAtto = true)
    (hlt : acc.iris + price.amount * params.minDepositMultiple < 2 ^ 255) :
    ∃ r, addMinDeposit params acc price = .ok r ∧ r.IrisOnly ∧
      r.iris = acc.iris + price.amount * params.minDepositMultiple := by
  obtain ⟨denom, x⟩ := price
  simp only [Coin.isValidIrisAtto, Coin.isPositive, Bool.and_eq_true, beq_iff_eq,
    decide_eq_true_eq] at hprice
  obtain ⟨rfl, hx⟩ := hprice
  have hprod : 0 < x * params.minDepositMultiple := Int.mul_pos hx hmul
  have hnn := hacc.nonneg
  dsimp only at hlt ⊢
  have hlen := bitLen_add_le hx hmul (by omega)
  have hmulok : SdkInt.mul x params.minDepositMultiple =
      .ok (x * params.minDepositMultiple) := by
    unfold SdkInt.mul SdkInt.maxBitLen
    rw [if_neg (by omega)]
    refine checked_ok.mpr ⟨rfl, inRange_iff.mpr ⟨by omega, by omega⟩⟩
  have hcoin : Coin.newCoin irisAtto (x * params.minDepositMultiple) =
      .ok ⟨irisAtto, x * params.minDepositMultiple⟩ := by
    rw [Coin.newCoin_ok]
    exact ⟨rfl, hprod.le⟩
  obtain ⟨r, hr, hiris, hsum⟩ := hacc.add_ok (Coins.IrisOnly.single hprod.le)
    (inRange_iff.mpr (by rw [iris_single]; omega))
  rw [iris_single] at hsum
  refine ⟨r, ?_, hiris, hsum⟩
  simp [addMinDeposit, hlen, hmulok, hcoin, hr, require]

lemma addMinDeposit_lt (hacc : acc.IrisOnly)
    (hacc' : acc.iris < 2 ^ 255) (hprice : price.isValidIrisAtto = true)
    (h : addMinDeposit params acc price = .ok r) :
    acc.iris + price.amount * params.minDepositMultiple < 2 ^ 255 := by
  simp only [addMinDeposit, bind_ok, require_ok, Coin.newCoin_ok] at h
  obtain ⟨_, -, y, hy, c, ⟨rfl, hnn⟩, hadd⟩ := h
  obtain ⟨rfl, hrange⟩ := eq_of_mul_ok hy
  obtain ⟨denom, x⟩ := price
  simp only [Coin.isValidIrisAtto, Coin.isPositive, Bool.and_eq_true, beq_iff_eq,
    decide_eq_true_eq] at hprice
  obtain ⟨rfl, hx⟩ := hprice
  have hlt := iris_add_lt hacc (Coins.IrisOnly.single hnn) hacc'
    (by rw [iris_single]; exact (inRange_iff.mp hrange).2) hadd
  rw [iris_single] at hlt
  exact hlt

lemma pricesSum_nonneg (hprices : ∀ p ∈ prices, p.isValidIrisAtto = true) :
    0 ≤ pricesSum prices := by
  induction prices with
  | nil => exact le_rfl
  | cons p prices ih =>
    have hp := hprices p (by simp)
    simp only [Coin.isValidIrisAtto, Coin.isPositive, Bool.and_eq_true, decide_eq_true_eq] at hp
    have htail := ih (fun q hq => hprices q (List.mem_cons_of_mem _ hq))
    simp only [pricesSum, List.foldr_cons] at htail ⊢
    omega

lemma pricesSum_cons (p : Coin) (prices : List Coin) (m : ℤ) :
    pricesSum (p :: prices) * m = p.amount * m + pricesSum prices * m := by
  simp only [pricesSum, List.foldr_cons]
  ring

/-- Loop of `getMinDeposit` returns when the whole sum is in range. -/
lemma foldlM_addMinDeposit_ok (hmul : 0 < params.minDepositMultiple)
    (hacc : acc.IrisOnly) (hprices : ∀ p ∈ prices, p.isValidIrisAtto = true)
    (hlt : acc.iris + pricesSum prices * params.minDepositMultiple < 2 ^ 255) :
    ∃ r, prices.foldlM (addMinDeposit params) acc = .ok r ∧ r.IrisOnly ∧
      r.iris = acc.iris + pricesSum prices * params.minDepositMultiple := by
  induction prices generalizing acc with
  | nil => exact ⟨acc, rfl, hacc, by simp [pricesSum]⟩
  | cons p prices ih =>
    have htail : ∀ q ∈ prices, q.isValidIrisAtto = true :=
      fun q hq => hprices q (List.mem_cons_of_mem _ hq)
    have hrest : 0 ≤ pricesSum prices * params.minDepositMultiple :=
      mul_nonneg (pricesSum_nonneg htail) hmul.le
    rw [pricesSum_cons] at hlt ⊢
    obtain ⟨acc', hfirst, hiris, hacc'⟩ :=
      addMinDeposit_ok hmul hacc (hprices p (by simp)) (by omega)
    obtain ⟨r, hr, hiris', hsum⟩ := ih hiris htail (by omega)
    refine ⟨r, ?_, hiris', by omega⟩
    rw [List.foldlM_cons, hfirst, ok_bind, hr]

lemma foldlM_addMinDeposit_lt (hmul : 0 < params.minDepositMultiple)
    (hacc : acc.IrisOnly) (hacc' : acc.iris < 2 ^ 255)
    (hprices : ∀ p ∈ prices, p.isValidIrisAtto = true)
    (h : prices.foldlM (addMinDeposit params) acc = .ok r) :
    acc.iris + pricesSum prices * params.minDepositMultiple < 2 ^ 255 := by
  induction prices generalizing acc with
  | nil => simpa [pricesSum] using hacc'
  | cons p prices ih =>
    rw [List.foldlM_cons] at h
    obtain ⟨acc', hfirst, h⟩ := bind_ok.mp h
    have hp := hprices p (by simp)
    have hlt := addMinDeposit_lt hacc hacc' hp hfirst
    obtain ⟨acc'', hfirst', hiris, hsum⟩ := addMinDeposit_ok hmul hacc hp hlt
    cases hfirst.symm.trans hfirst'
    have := ih hiris (by omega) (fun q hq => hprices q (List.mem_cons_of_mem _ hq)) h
    rw [pricesSum_cons]
    omega

lemma getMinDeposit_ok_iff (hmul : 0 < params.minDepositMultiple)
    (hprices : ∀ p ∈ prices, p.isValidIrisAtto = true) :
    (∃ r, getMinDeposit params prices = .ok r) ↔ MinDepositInRange params prices := by
  rw [getMinDeposit_eq, MinDepositInRange]
  constructor
  · rintro ⟨r, hr⟩
    simpa using foldlM_addMinDeposit_lt hmul Coins.IrisOnly.nil (by simp) hprices hr
  · intro hlt
    obtain ⟨r, hr, _⟩ :=
      foldlM_addMinDeposit_ok hmul Coins.IrisOnly.nil hprices (by simpa using hlt)
    exact ⟨r, hr⟩

lemma getMinDeposit_ok (hmul : 0 < params.minDepositMultiple)
    (hprices : ∀ p ∈ prices, p.isValidIrisAtto = true) (h : getMinDeposit params prices = .ok r) :
    r.IrisOnly ∧ r.iris = pricesSum prices * params.minDepositMultiple := by
  have hlt := (getMinDeposit_ok_iff hmul hprices).mp ⟨r, h⟩
  obtain ⟨r', hr', hiris, hsum⟩ :=
    foldlM_addMinDeposit_ok hmul Coins.IrisOnly.nil hprices (by simpa [MinDepositInRange] using hlt)
  rw [← getMinDeposit_eq] at hr'
  cases h.symm.trans hr'
  exact ⟨hiris, by simpa using hsum⟩

end

lemma shareOf_ok {fraction : Dec} {cs : Coins} (h0 : 0 ≤ fraction.raw)
    (h1 : fraction.raw ≤ 2 * 10 ^ 9) (hcs : cs.IrisOnly) (hmax : cs.iris < 2 ^ 255) :
    ∃ r, shareOf fraction cs = .ok r ∧ r.IrisOnly ∧ r.iris ≤ cs.iris := by
  rcases hcs with rfl | ⟨x, hx, rfl⟩
  · exact ⟨[], rfl, .nil, le_rfl⟩
  · rw [iris_single] at hmax ⊢
    have hchop : Dec.chopPrecisionAndRound (x * Dec.precision * fraction.raw) =
        x * fraction.raw := by
      refine le_antisymm (Dec.chopPrecisionAndRound_le ?_) (Dec.le_chopPrecisionAndRound ?_)
      · exact le_of_eq (by ring)
      · exact le_of_eq (by ring)
    have hlow : 0 ≤ x * fraction.raw := mul_nonneg hx h0
    have hhigh : x * fraction.raw ≤ x * (2 * 10 ^ 9) := mul_le_mul_of_nonneg_left h1 hx
    have hmul : (Dec.newDecFromInt x).mul fraction = .ok ⟨x * fraction.raw⟩ := by
      unfold Dec.mul
      rw [Dec.newDecFromInt_raw, hchop, Dec.checked_ok]
      exact ⟨rfl, Dec.inRange_iff.mpr (by omega)⟩
    have hquo : 0 ≤ (x * fraction.raw).tdiv Dec.precision ∧
        (x * fraction.raw).tdiv Dec.precision ≤ x := by
      rw [Int.tdiv_eq_ediv_of_nonneg hlow]
      unfold Dec.precision
      omega
    have htrunc : Dec.truncateInt ⟨x * fraction.raw⟩ =
        .ok ((x * fraction.raw).tdiv Dec.precision) := by
      refine newIntFromBigInt_ok.mpr ⟨rfl, inRange_iff.mpr ?_⟩
      dsimp only [Dec.chopPrecisionAndTruncate]
      omega
    have hcoin : Coin.newCoin irisAtto ((x * fraction.raw).tdiv Dec.precision) =
        .ok ⟨irisAtto, (x * fraction.raw).tdiv Dec.precision⟩ := by
      rw [Coin.newCoin_ok]
      exact ⟨rfl, hquo.1⟩
    refine ⟨[⟨irisAtto, (x * fraction.raw).tdiv Dec.precision⟩], ?_, .single hquo.1, ?_⟩
    · simp [shareOf, hmul, htrunc, hcoin]
    · rw [iris_single]
      exact hquo.2

end Irishub.Service
