import Irishub.Coinswap.PoolValue
import Irishub.Types.IntRange

/-!
# Coinswap: there and back

The two prices of a swap are inverse to each other up to one unit: the input quoted for an
output buys it, and it exceeds every input that buys it by at most one. The prices are
computed in `sdk.Int`, so that the quotes exist exactly when the products on the way fit into
255 bits (`InputFits`, `OutputFits`).

A deposit of liquidity that is withdrawn in the next message returns at most what was paid in.
-/

namespace Irishub.Coinswap
open Lib Lib.Reserves SdkInt Coin

section

/-- Integers `getInputPrice` computes are in range. -/
def InputFits (inputAmt inputReserve outputReserve : ℤ) (fee : ℚ) : Prop :=
  SdkInt.InRange (inputAmt * (1 - fee).num * outputReserve) ∧
    SdkInt.InRange (inputReserve * (1 - fee).den + inputAmt * (1 - fee).num)

/-- Integers `getOutputPrice` computes are in range. -/
def OutputFits (outputAmt inputReserve outputReserve : ℤ) (fee : ℚ) : Prop :=
  SdkInt.InRange (inputReserve * outputAmt * (1 - fee).den) ∧
    SdkInt.InRange ((outputReserve - outputAmt) * (1 - fee).num) ∧
    SdkInt.InRange (outputPrice inputReserve outputReserve (1 - fee).num (1 - fee).den outputAmt)

instance (dx x y : ℤ) (fee : ℚ) : Decidable (InputFits dx x y fee) :=
  inferInstanceAs (Decidable (_ ∧ _))

instance (dy x y : ℤ) (fee : ℚ) : Decidable (OutputFits dy x y fee) :=
  inferInstanceAs (Decidable (_ ∧ _ ∧ _))

variable {x y dx dy r : ℤ} {fee : ℚ} {i : ℤ}

lemma inRange_of_le {j : ℤ} (hi : 0 ≤ i) (hle : i ≤ j) (h : InRange j) : InRange i := by
  rw [inRange_iff] at h ⊢
  constructor <;> linarith [h.1, h.2]

lemma mul_eq_ok_of_inRange {i2 : ℤ} (hi : 0 ≤ i) (hi2 : 0 < i2) (hin : InRange i2)
    (h : InRange (i * i2)) : mul i i2 = .ok (i * i2) := by
  have hle : i ≤ i * i2 := le_mul_of_one_le_right hi hi2
  have hexact := exact_mul (inRange_of_le hi hle h) hin
  rw [Exact, if_pos h] at hexact
  exact hexact

lemma inputFits_of_getInputPrice (h : getInputPrice dx x y fee = .ok r) : InputFits dx x y fee := by
  simp only [getInputPrice, bind_ok, newIntFromBigInt_ok] at h
  obtain ⟨_, ⟨rfl, _⟩, _, h1, _, h2, _, ⟨rfl, _⟩, _, h3, _, h4, _⟩ := h
  obtain ⟨rfl, _⟩ := eq_of_mul_ok h1
  obtain ⟨rfl, hnumerator⟩ := eq_of_mul_ok h2
  obtain ⟨rfl, _⟩ := eq_of_mul_ok h3
  obtain ⟨rfl, hdenominator⟩ := add_eq_ok.mp h4
  exact ⟨hnumerator, hdenominator⟩

lemma outputFits_of_getOutputPrice (h : getOutputPrice dy x y fee = .ok r) :
    OutputFits dy x y fee := by
  have hr := eq_of_getOutputPrice h
  simp only [getOutputPrice, bind_ok, newIntFromBigInt_ok] at h
  obtain ⟨_, h1, _, ⟨rfl, _⟩, _, h2, _, h3, _, ⟨rfl, _⟩, _, h4, _, _, h6⟩ := h
  obtain ⟨rfl, _⟩ := eq_of_mul_ok h1
  obtain ⟨rfl, hnumerator⟩ := eq_of_mul_ok h2
  obtain ⟨rfl, _⟩ := sub_eq_ok.mp h3
  obtain ⟨rfl, hdenominator⟩ := eq_of_mul_ok h4
  obtain ⟨hsum, hin⟩ := add_eq_ok.mp h6
  rw [← hsum, hr] at hin
  exact ⟨hnumerator, hdenominator, hin⟩

lemma getInputPrice_of_fits (hfee : validateFee fee) (hx : 0 < x) (hy : 0 < y) (hdx : 0 < dx)
    (h : InputFits dx x y fee) :
    getInputPrice dx x y fee = .ok (inputPrice x y (1 - fee).num (1 - fee).den dx) := by
  obtain ⟨hnum, hle⟩ := feeFactor_bounds hfee
  have hden : 0 < ((1 - fee).den : ℤ) := lt_of_lt_of_le hnum hle
  obtain ⟨hnumerator, hdenominator⟩ := h
  have hpaid : 0 < dx * (1 - fee).num := mul_pos hdx hnum
  have hfull : 0 < x * ((1 - fee).den : ℤ) := mul_pos hx hden
  have hpaidIn : InRange (dx * (1 - fee).num) :=
    inRange_of_le hpaid.le (le_mul_of_one_le_right hpaid.le hy) hnumerator
  have hfullIn : InRange (x * ((1 - fee).den : ℤ)) :=
    inRange_of_le hfull.le (by linarith) hdenominator
  have hnumIn := inRange_of_le hnum.le (le_mul_of_one_le_left hnum.le hdx) hpaidIn
  have hdenIn := inRange_of_le hden.le (le_mul_of_one_le_left hden.le hx) hfullIn
  have hyIn := inRange_of_le hy.le (le_mul_of_one_le_left hy.le hpaid) hnumerator
  have hpos : x * ((1 - fee).den : ℤ) + dx * (1 - fee).num ≠ 0 := (add_pos hfull hpaid).ne'
  simp only [getInputPrice, bind_ok, newIntFromBigInt_ok]
  refine ⟨_, ⟨rfl, hnumIn⟩, _, mul_eq_ok_of_inRange hdx.le hnum hnumIn hpaidIn, _,
    mul_eq_ok_of_inRange hpaid.le hy hyIn hnumerator, _, ⟨rfl, hdenIn⟩, _,
    mul_eq_ok_of_inRange hx.le hden hdenIn hfullIn, _, add_eq_ok.mpr ⟨rfl, hdenominator⟩, ?_⟩
  rw [div, if_neg hpos]
  rfl

lemma getOutputPrice_of_fits (hfee : validateFee fee) (hx : 0 < x) (hxIn : InRange x)
    (hdenIn : InRange ((1 - fee).den : ℤ)) (hdy : 0 ≤ dy) (hlt : dy < y)
    (h : OutputFits dy x y fee) :
    getOutputPrice dy x y fee = .ok (outputPrice x y (1 - fee).num (1 - fee).den dy) := by
  obtain ⟨hnum, hle⟩ := feeFactor_bounds hfee
  have hden : 0 < ((1 - fee).den : ℤ) := lt_of_lt_of_le hnum hle
  obtain ⟨hnumerator, hdenominator, hprice⟩ := h
  have hrest : 0 < y - dy := by linarith
  have hsold : 0 ≤ x * dy := mul_nonneg hx.le hdy
  have hsoldIn : InRange (x * dy) :=
    inRange_of_le hsold (le_mul_of_one_le_right hsold hden) hnumerator
  have hdyIn : InRange dy := inRange_of_le hdy (le_mul_of_one_le_left hdy hx) hsoldIn
  have hrestIn := inRange_of_le hrest.le (le_mul_of_one_le_right hrest.le hnum) hdenominator
  have hnumIn := inRange_of_le hnum.le (le_mul_of_one_le_left hnum.le hrest) hdenominator
  have hmul : mul x dy = .ok (x * dy) := by
    have hexact := exact_mul hxIn hdyIn
    rw [Exact, if_pos hsoldIn] at hexact
    exact hexact
  have hpos : (y - dy) * (1 - fee).num ≠ 0 := (mul_pos hrest hnum).ne'
  simp only [getOutputPrice, bind_ok, newIntFromBigInt_ok]
  refine ⟨_, hmul, _, ⟨rfl, hdenIn⟩, _, mul_eq_ok_of_inRange hsold hden hdenIn hnumerator, _,
    sub_eq_ok.mpr ⟨rfl, hrestIn⟩, _, ⟨rfl, hnumIn⟩, _,
    mul_eq_ok_of_inRange hrest.le hnum hnumIn hdenominator, _,
    if_neg hpos, add_eq_ok.mpr ⟨rfl, hprice⟩⟩

end

section
variable {x y dx dy : ℤ} {fee : ℚ}

/-- Exactly when all integers fit, the input quoted for an output is computed and buys it, and
the input quoted for what an input buys is computed and exceeds that input by at most one. A
quoted input never exceeds an input that buys the output by more than one. -/
theorem prices_adjoint (hfee : validateFee fee) (hx : 0 < x) (hy : 0 < y) (hdx : 0 < dx)
    (hdy : 0 < dy) (hlt : dy < y) :
    ((∃ s r, getOutputPrice dy x y fee = .ok s ∧ getInputPrice s x y fee = .ok r ∧ dy ≤ r) ↔
      OutputFits dy x y fee ∧ InputFits (outputPrice x y (1 - fee).num (1 - fee).den dy) x y fee) ∧
    ((∃ r s, getInputPrice dx x y fee = .ok r ∧ getOutputPrice r x y fee = .ok s ∧ s ≤ dx + 1) ↔
      InputFits dx x y fee ∧ OutputFits (inputPrice x y (1 - fee).num (1 - fee).den dx) x y fee) ∧
    ∀ s r, getOutputPrice dy x y fee = .ok s → getInputPrice dx x y fee = .ok r → dy ≤ r →
      s ≤ dx + 1 := by
  obtain ⟨hnum, hle⟩ := feeFactor_bounds hfee
  have hden : 0 < ((1 - fee).den : ℤ) := lt_of_lt_of_le hnum hle
  refine ⟨⟨?_, ?_⟩, ⟨?_, ?_⟩, ?_⟩
  · rintro ⟨s, r, hs, hr, -⟩
    have hprice := eq_of_getOutputPrice hs
    exact ⟨outputFits_of_getOutputPrice hs, hprice ▸ inputFits_of_getInputPrice hr⟩
  · rintro ⟨hout, hin⟩
    have hxdy : x ≤ x * dy := le_mul_of_one_le_right hx.le hdy
    have hfull : x * dy ≤ x * dy * (1 - fee).den :=
      le_mul_of_one_le_right (mul_pos hx hdy).le hden
    have hxIn := inRange_of_le hx.le (hxdy.trans hfull) hout.1
    have hdenIn := inRange_of_le hden.le (le_mul_of_one_le_left hden.le (mul_pos hx hdy)) hout.1
    have hs := getOutputPrice_of_fits hfee hx hxIn hdenIn hdy.le hlt hout
    have hspos := outputPrice_pos hx hnum hle hdy.le hlt
    exact ⟨_, _, hs, getInputPrice_of_fits hfee hx hy hspos hin,
      le_inputPrice_outputPrice hx hnum hle hdy.le hlt⟩
  · rintro ⟨r, s, hr, hs, -⟩
    have hprice := eq_of_getInputPrice hr
    exact ⟨inputFits_of_getInputPrice hr, hprice ▸ outputFits_of_getOutputPrice hs⟩
  · rintro ⟨hin, hout⟩
    have hpaid : 0 < dx * (1 - fee).num := mul_pos hdx hnum
    have hfull : 0 < x * ((1 - fee).den : ℤ) := mul_pos hx hden
    have hfullIn := inRange_of_le hfull.le (by linarith) hin.2
    have hxIn := inRange_of_le hx.le (le_mul_of_one_le_right hx.le hden) hfullIn
    have hdenIn := inRange_of_le hden.le (le_mul_of_one_le_left hden.le hx) hfullIn
    obtain ⟨hr0, hry⟩ := inputPrice_bounds hx hy hnum hle hdx.le
    exact ⟨_, _, getInputPrice_of_fits hfee hx hy hdx hin,
      getOutputPrice_of_fits hfee hx hxIn hdenIn hr0 hry hout,
      outputPrice_le_of_le_inputPrice hx hnum hden hdx.le hry le_rfl⟩
  · intro s r hs hr hbuys
    rw [eq_of_getOutputPrice hs]
    rw [eq_of_getInputPrice hr] at hbuys
    exact outputPrice_le_of_le_inputPrice hx hnum hden hdx.le hlt hbuys

/-- Reserves of a thousand each and a fee of 0.3 %. -/
theorem thousand_quotes : ∃ s r, getOutputPrice 90 1000 1000 (3 / 1000) = .ok s ∧
      getInputPrice s 1000 1000 (3 / 1000) = .ok r ∧ 90 ≤ r := by
  have hadjoint := @prices_adjoint 1000 1000 100 90 (3 / 1000) ⟨by norm_num, by norm_num⟩
    (by norm_num) (by norm_num) (by norm_num) (by norm_num) (by norm_num)
  exact hadjoint.1.mpr (by decide +kernel)

/-- Reserves of `2 ^ 100` each: all but one unit has a quote, but the price of the quoted input
overflows. -/
theorem quoted_input_overflows :
    ∃ s, getOutputPrice (2 ^ 100 - 1) (2 ^ 100) (2 ^ 100) (3 / 1000) = .ok s ∧
      getInputPrice s (2 ^ 100) (2 ^ 100) (3 / 1000) = raise .intOverflow := by
  obtain ⟨s, hs, hoverflow⟩ := of_returns
    (p := fun s => decide (getInputPrice s (2 ^ 100) (2 ^ 100) (3 / 1000) = raise .intOverflow))
    (x := getOutputPrice (2 ^ 100 - 1) (2 ^ 100) (2 ^ 100) (3 / 1000)) (by decide +kernel)
  exact ⟨s, hs, of_decide_eq_true hoverflow⟩

end

section
variable {env : Env} {b b₁ b₂ : Bank}

lemma checkUniDenom_of_handleRemoveLiquidity {msg : MsgRemoveLiquidity}
    (h : handleRemoveLiquidity env b msg = .ok b₁) :
    checkUniDenom msg.withdrawLiquidity.denom = .ok () := by
  unfold handleRemoveLiquidity at h
  simp only at h
  split at h
  · simp at h
  · simp only [getCoinMinDenomFromUniDenom, bind_ok] at h
    obtain ⟨_, ⟨⟨⟩, hcheck, _⟩, _⟩ := h
    exact hcheck

lemma deposit_bounds {msg : MsgAddLiquidity} {x y shares mint : ℤ} {token : Coin} (hx : 0 < x)
    (hs : 0 < shares) (h : liquidityAmounts msg x y shares = .ok (mint, token)) :
    mint * x ≤ shares * msg.exactIrisAmt ∧ y * msg.exactIrisAmt ≤ token.amount * x := by
  obtain ⟨rfl, rfl⟩ := eq_of_liquidityAmounts hs.ne' h
  exact ⟨Int.ediv_mul_le _ hx.ne', (Int.lt_ediv_add_one_mul_self _ hx).le⟩

/-- Vouchers that are withdrawn right after the deposit that minted them return at most the iris
and the tokens that were deposited. -/
theorem deposit_withdrawn_le {add : MsgAddLiquidity} {remove : MsgRemoveLiquidity}
    (hv : add.validateBasic = .ok ()) (hpos : (poolView env b add.maxToken.denom).Positive)
    (hadd : handleAddLiquidity env b add = .ok b₁) (hsender : remove.sender = add.sender)
    (hminted : remove.withdrawLiquidity = ⟨uniDenom add.maxToken.denom,
      b₁.balance add.sender (uniDenom add.maxToken.denom) -
        b.balance add.sender (uniDenom add.maxToken.denom)⟩)
    (hremove : handleRemoveLiquidity env b₁ remove = .ok b₂) :
    b₂.balance add.sender irisAtto - b₁.balance add.sender irisAtto ≤
        b.balance add.sender irisAtto - b₁.balance add.sender irisAtto ∧
      b₂.balance add.sender add.maxToken.denom - b₁.balance add.sender add.maxToken.denom ≤
        b.balance add.sender add.maxToken.denom - b₁.balance add.sender add.maxToken.denom := by
  obtain ⟨htoken, hdx, -⟩ := token_of_validateBasic hv
  obtain ⟨mint, amount, hamounts, haddLiquidity⟩ := eq_of_handleAddLiquidity hv hadd
  set t := add.maxToken.denom with ht
  have hdenom : remove.withdrawLiquidity.denom = uniDenom t := by rw [hminted]
  have htrim : t = trimPrefix remove.withdrawLiquidity.denom formatUniABSPrefix := by
    rw [hdenom, uniDenom, trimPrefix_append]
  obtain ⟨-, hremoveLiquidity⟩ := eq_of_handleRemoveLiquidity htrim
    (checkUniDenom_of_handleRemoveLiquidity hremove) hremove
  have hback := balance_removeLiquidity hremoveLiquidity
  obtain ⟨u, hu, hmint, hpaid⟩ := balance_addLiquidity haddLiquidity
  obtain rfl := eq_of_getUniDenom htoken hu
  have hpool : getReservePoolAddr env (uniId t) = poolAddr env t := rfl
  rw [hpool] at hpaid
  rw [hsender] at hback
  have htokenUni : uniDenom t ≠ t := uniDenom_ne htoken.not_uni
  have hirisUni : uniDenom t ≠ irisAtto := uniDenom_ne (by decide)
  have hvoucher : ∀ d, uniDenom t ≠ d → remove.withdrawLiquidity.amountIn d = 0 := fun d hd =>
    amountIn_of_ne (by rw [hdenom]; exact hd)
  by_cases hself : add.sender = poolAddr env t
  · -- the pool itself deposits: neither message moves iris or tokens
    have hfixed : ∀ d, uniDenom t ≠ d → b₂.balance add.sender d = b.balance add.sender d := by
      intro d hd
      simp only [hback, hpaid, hself, if_true, hvoucher d hd, amountIn_mk_of_ne hd.symm]
      ring
    rw [hfixed _ hirisUni, hfixed _ htokenUni]
    exact ⟨le_rfl, le_rfl⟩
  · obtain ⟨hx, hy, hs⟩ := hpos
    obtain ⟨hmx, hask⟩ := deposit_bounds hx hs hamounts
    obtain ⟨-, hview⟩ := poolView_addLiquidity htoken hself haddLiquidity
    have hgain : remove.withdrawLiquidity.amount = mint := by
      rw [hminted]
      simp only [hpaid, if_true, if_neg hself, amountIn_mk_self,
        amountIn_mk_of_ne hirisUni, amountIn_mk_of_ne htokenUni]
      ring
    have hreturned := withdrawn_le_deposited hx hs hmint hy.le hmx hask
    rw [hgain, hview] at hback
    -- what comes back for a coin of the pool, against what was paid of it
    have hdiff : ∀ d, uniDenom t ≠ d → b₂.balance add.sender d - b.balance add.sender d =
        (⟨irisAtto, mint * ((poolView env b t).x + add.exactIrisAmt) /
            ((poolView env b t).shares + mint)⟩ : Coin).amountIn d +
          (⟨t, mint * ((poolView env b t).y + amount) /
            ((poolView env b t).shares + mint)⟩ : Coin).amountIn d -
        ((⟨irisAtto, add.exactIrisAmt⟩ : Coin).amountIn d + (⟨t, amount⟩ : Coin).amountIn d) := by
      intro d hd
      simp only [hback, hpaid, if_true, if_neg hself, hvoucher d hd, amountIn_mk_of_ne hd.symm]
      ring
    have hiris := hdiff irisAtto hirisUni
    have htok := hdiff t htokenUni
    rw [amountIn_mk_self, amountIn_mk_self, amountIn_mk_of_ne htoken.ne_iris.symm,
      amountIn_mk_of_ne htoken.ne_iris.symm] at hiris
    rw [amountIn_mk_self, amountIn_mk_self, amountIn_mk_of_ne htoken.ne_iris,
      amountIn_mk_of_ne htoken.ne_iris] at htok
    constructor
    · linarith [hreturned.1]
    · linarith [hreturned.2]

def sampleDeposit : MsgAddLiquidity := ⟨⟨"btc-min", 200⟩, 100, 1, 1, 1⟩

def sampleWithdrawal : MsgRemoveLiquidity := ⟨1, ⟨"uni:btc-min", 100⟩, 1, 1, 1⟩

theorem sampleDeposit_withdrawn_le :
    ∃ b₁ b₂, handleAddLiquidity sampleEnv sampleBank sampleDeposit = .ok b₁ ∧
      handleRemoveLiquidity sampleEnv b₁ sampleWithdrawal = .ok b₂ ∧
      b₂.balance 1 irisAtto - b₁.balance 1 irisAtto ≤
        sampleBank.balance 1 irisAtto - b₁.balance 1 irisAtto := by
  obtain ⟨b₁, hadd, hnext⟩ := of_returns
    (p := fun b₁ =>
      decide (b₁.balance 1 "uni:btc-min" - sampleBank.balance 1 "uni:btc-min" = 100) &&
        returns (fun _ => true) (handleRemoveLiquidity sampleEnv b₁ sampleWithdrawal))
    (x := handleAddLiquidity sampleEnv sampleBank sampleDeposit) (by decide +kernel)
  rw [Bool.and_eq_true, decide_eq_true_eq] at hnext
  obtain ⟨b₂, hremove, -⟩ := of_returns hnext.2
  have hminted : sampleWithdrawal.withdrawLiquidity = ⟨uniDenom "btc-min",
      b₁.balance 1 (uniDenom "btc-min") - sampleBank.balance 1 (uniDenom "btc-min")⟩ :=
    congrArg (Coin.mk "uni:btc-min") hnext.1.symm
  have hpos : (poolView sampleEnv sampleBank "btc-min").Positive :=
    ⟨by decide +kernel, by decide +kernel, by decide +kernel⟩
  have hvalid : sampleDeposit.validateBasic = .ok () := by decide +kernel
  have hle := deposit_withdrawn_le hvalid hpos hadd rfl hminted hremove
  exact ⟨b₁, b₂, hadd, hremove, hle.1⟩

end
end Irishub.Coinswap
