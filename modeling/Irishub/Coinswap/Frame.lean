import Irishub.Coinswap.Keeper

/-!
# Coinswap: the frame of a token-for-token swap

A swap between two tokens runs through two pools. `SwapFrame` is what it is meant to do
to the balances: the sender pays the input token, the recipient receives the output
token, and the same iris amount leaves the first pool and enters the second.

Both legs are run with the sender and the recipient of the order, so the first
leg pays the iris to the recipient while the second takes it from the sender.
`handleSwap_double` states the resulting balances, and
`handleSwap_frame_iff` that the frame is met exactly when the recipient is the
sender.
-/

namespace Irishub.Coinswap
open Lib

def MsgSwapOrder.recipient (msg : MsgSwapOrder) : Address :=
  msg.output.address.getD msg.input.address

def MsgSwapOrder.firstPool (env : Env) (msg : MsgSwapOrder) : Address :=
  getReservePoolAddr env (uniId msg.input.coin.denom)

def MsgSwapOrder.secondPool (env : Env) (msg : MsgSwapOrder) : Address :=
  getReservePoolAddr env (uniId msg.output.coin.denom)

/-- Intended effect of an order between two tokens that sells `sold`, buys `bought` and moves
`native` between the pools: the sender loses `sold`, the recipient gains `bought`, the pools change
by the matching amounts, and no other balance changes. -/
def intendedBalance (env : Env) (b : Bank) (msg : MsgSwapOrder) (sold native bought : Coin)
    (a : Address) (d : String) : ℤ :=
  b.balance a d
    - (if a = msg.input.address then sold.amountIn d else 0)
    + (if a = msg.firstPool env then sold.amountIn d - native.amountIn d else 0)
    + (if a = msg.secondPool env then native.amountIn d - bought.amountIn d else 0)
    + (if a = msg.recipient then bought.amountIn d else 0)

/-- Frame of an order between two tokens: at most the stated input is sold, at least the stated
output is bought, and every balance of every account is the intended one. -/
def SwapFrame (env : Env) (b b' : Bank) (msg : MsgSwapOrder) : Prop :=
  ∃ sold native bought : ℤ,
    0 ≤ sold ∧ sold ≤ msg.input.coin.amount ∧ msg.output.coin.amount ≤ bought ∧ 0 ≤ native ∧
      ∀ a d, b'.balance a d = intendedBalance env b msg ⟨msg.input.coin.denom, sold⟩
        ⟨irisAtto, native⟩ ⟨msg.output.coin.denom, bought⟩ a d

section

lemma ite_sub_zero {p : Prop} [Decidable p] (x y : ℤ) :
    (if p then x - y else 0) = (if p then x else 0) - if p then y else 0 := by
  by_cases hp : p
  · simp [hp]
  · simp [hp]

variable {env : Env} {b b' : Bank} {msg : MsgSwapOrder}

lemma isToken_of_validateBasic (hv : msg.validateBasic = .ok ()) (hd : msg.isDoubleSwap = true) :
    IsToken msg.input.coin.denom ∧ IsToken msg.output.coin.denom ∧
      0 < msg.input.coin.amount ∧ 0 < msg.output.coin.amount := by
  simp only [MsgSwapOrder.validateBasic, bind_ok, require_ok, Coin.isValid, Coin.isPositive,
    Bool.and_eq_true, decide_eq_true_eq, Bool.not_eq_true'] at hv
  obtain ⟨_, hin, _, hinUni, _, hout, _, houtUni, _⟩ := hv
  simp only [MsgSwapOrder.isDoubleSwap, Bool.and_eq_true, decide_eq_true_eq] at hd
  exact ⟨⟨hin.1.2, hd.1, hinUni⟩, ⟨hout.1.2, hd.2, houtUni⟩, hin.2, hout.2⟩

lemma balance_two_legs {b1 : Bank} {sold native bought : ℤ}
    (hin : IsToken msg.input.coin.denom) (hout : IsToken msg.output.coin.denom)
    (h1 : swapCoins env b msg.input.address msg.output.address ⟨msg.input.coin.denom, sold⟩
      ⟨irisAtto, native⟩ = .ok b1)
    (h2 : swapCoins env b1 msg.input.address msg.output.address ⟨irisAtto, native⟩
      ⟨msg.output.coin.denom, bought⟩ = .ok b') (a : Address) (d : String) :
    b'.balance a d = intendedBalance env b msg ⟨msg.input.coin.denom, sold⟩ ⟨irisAtto, native⟩
        ⟨msg.output.coin.denom, bought⟩ a d
      - (if a = msg.input.address then (⟨irisAtto, native⟩ : Coin).amountIn d else 0)
      + (if a = msg.recipient then (⟨irisAtto, native⟩ : Coin).amountIn d else 0) := by
  obtain ⟨uid1, hu1, hbal1⟩ := balance_swapCoins h1
  obtain ⟨uid2, hu2, hbal2⟩ := balance_swapCoins h2
  rw [getUniId_iris_right hin, Except.ok.injEq] at hu1
  rw [getUniId_iris_left hout, Except.ok.injEq] at hu2
  subst hu1 hu2
  rw [hbal2 a d, hbal1 a d]
  unfold intendedBalance MsgSwapOrder.firstPool MsgSwapOrder.secondPool MsgSwapOrder.recipient
  rw [ite_sub_zero, ite_sub_zero]
  ring

/-- An order between two tokens keeps to its limits and moves iris through both legs. -/
lemma handleSwap_double (hfee : validateFee env.fee) (hv : msg.validateBasic = .ok ())
    (hd : msg.isDoubleSwap = true) (h : handleSwap env b msg = .ok b') :
    ∃ (b1 : Bank) (sold native bought : ℤ),
      0 ≤ sold ∧ sold ≤ msg.input.coin.amount ∧ msg.output.coin.amount ≤ bought ∧ 0 < native ∧
      swapCoins env b msg.input.address msg.output.address ⟨msg.input.coin.denom, sold⟩
        ⟨irisAtto, native⟩ = .ok b1 ∧
      swapCoins env b1 msg.input.address msg.output.address ⟨irisAtto, native⟩
        ⟨msg.output.coin.denom, bought⟩ = .ok b' := by
  obtain ⟨hin, hout, hinPos, houtPos⟩ := isToken_of_validateBasic hv hd
  obtain ⟨hnum, hle⟩ := feeFactor_bounds hfee
  cases trades_of_handleSwap h with
  | @doubleExactOutput b1 native sold _ hnative _ _ hsold hmax h1 h2 =>
    obtain ⟨uid, _, hres, hlt, hprice⟩ := eq_of_calculateWithExactOutput hnative
    have hpos : 0 < native := by
      rw [hprice]
      exact outputPrice_pos hres hnum hle houtPos.le hlt
    exact ⟨b1, sold, native, msg.output.coin.amount, hsold, hmax, le_rfl, hpos, h1, h2⟩
  | @doubleExactInput b1 native bought _ _ hnonneg h1 hbought _ hmin h2 =>
    have hpos : 0 < native := by
      -- no iris bought in the first leg would buy nothing in the second
      rcases hnonneg.lt_or_eq with hpos | hzero
      · exact hpos
      · obtain ⟨uid, _, _, _, hprice⟩ := eq_of_calculateWithExactInput hbought
        simp only [inputPrice, ← hzero, zero_mul, Int.zero_ediv] at hprice
        omega
    exact ⟨b1, msg.input.coin.amount, native, bought, hinPos.le, le_rfl, hmin, hpos, h1, h2⟩
  | exactOutput hsingle | exactInput hsingle => exact absurd hd (by simp [hsingle])

lemma SwapFrame.iris_of_sender (hframe : SwapFrame env b b' msg)
    (hin : msg.input.coin.denom ≠ irisAtto) (hout : msg.output.coin.denom ≠ irisAtto)
    (hfirst : msg.input.address ≠ msg.firstPool env)
    (hsecond : msg.input.address ≠ msg.secondPool env) :
    b'.balance msg.input.address irisAtto = b.balance msg.input.address irisAtto := by
  obtain ⟨sold, native, bought, _, _, _, _, hbal⟩ := hframe
  rw [hbal, intendedBalance, if_neg hfirst, if_neg hsecond]
  simp [Coin.amountIn, hin, hout]

/-- An order between two tokens meets its frame exactly when its recipient is its sender. -/
theorem handleSwap_frame_iff (hfee : validateFee env.fee) (hv : msg.validateBasic = .ok ())
    (hd : msg.isDoubleSwap = true) (hfirst : msg.input.address ≠ msg.firstPool env)
    (hsecond : msg.input.address ≠ msg.secondPool env) (h : handleSwap env b msg = .ok b') :
    SwapFrame env b b' msg ↔
      msg.output.address = none ∨ msg.output.address = some msg.input.address := by
  obtain ⟨hin, hout, _, _⟩ := isToken_of_validateBasic hv hd
  obtain ⟨b1, sold, native, bought, hsold, hmax, hmin, hpos, h1, h2⟩ :=
    handleSwap_double hfee hv hd h
  have hbal := balance_two_legs hin hout h1 h2
  have hrecipient : msg.output.address = none ∨ msg.output.address = some msg.input.address ↔
      msg.input.address = msg.recipient := by
    simp only [MsgSwapOrder.recipient]
    cases msg.output.address with
    | none => simp
    | some r => simp [eq_comm]
  rw [hrecipient]
  constructor
  · intro hframe
    by_contra hne
    -- the sender's iris balance falls by the amount of the first leg
    have hiris := hbal msg.input.address irisAtto
    rw [hframe.iris_of_sender hin.ne_iris hout.ne_iris hfirst hsecond, intendedBalance,
      if_neg hfirst, if_neg hsecond, if_neg hne, if_neg hne] at hiris
    simp only [if_true, Coin.amountIn, if_neg hin.ne_iris] at hiris
    omega
  · intro heq
    refine ⟨sold, native, bought, hsold, hmax, hmin, hpos.le, fun a d => ?_⟩
    rw [hbal a d, ← heq]
    ring

end

/-- Two pools, at the hashes of `uni:btc` and `uni:eth`, and the default fee. -/
def sampleEnv : Env where
  addressHash := fun id =>
    if id = "uni:btc" then 0x69b812591c735ec5763c705fab8c383292a83f90
    else if id = "uni:eth" then 0x32c31487cabbb365a6b6e8f44315d5a1382715e9
    else 0
  fee := 3 / 1000

/-- Account 1 holds iris and btc; the pools hold a thousand of each side. -/
def sampleBank : Bank where
  accounts := Store.empty
    |>.set 1 ⟨[⟨"btc-min", 500⟩, ⟨"iris-atto", 500⟩], by decide, by decide⟩
    |>.set 0x69b812591c735ec5763c705fab8c383292a83f90
      ⟨[⟨"btc-min", 1000⟩, ⟨"iris-atto", 1000⟩, ⟨"uni:btc-min", 1000⟩], by decide, by decide⟩
    |>.set 0x32c31487cabbb365a6b6e8f44315d5a1382715e9
      ⟨[⟨"eth-min", 1000⟩, ⟨"iris-atto", 1000⟩, ⟨"uni:eth-min", 1000⟩], by decide, by decide⟩
  totalLoosenToken := ⟨[⟨"iris-atto", 2500⟩], by decide, by decide⟩
  totalSupply := Store.empty

def sampleOrder (recipient : Option Address) : MsgSwapOrder where
  input := ⟨1, ⟨"btc-min", 100⟩⟩
  output := ⟨recipient, ⟨"eth-min", 1⟩⟩
  deadline := 1
  isBuyOrder := false

/-- Order sent to account 2 succeeds, and account 1 pays iris for it. -/
theorem sampleOrder_breaks_frame :
    (sampleOrder (some 2)).validateBasic = .ok () ∧ (sampleOrder (some 2)).isDoubleSwap = true ∧
      ∃ b', handleSwap sampleEnv sampleBank (sampleOrder (some 2)) = .ok b' ∧
        ¬ SwapFrame sampleEnv sampleBank b' (sampleOrder (some 2)) := by
  refine ⟨by decide +kernel, by decide, ?_⟩
  obtain ⟨b', hb', hpaid⟩ := of_returns
    (p := fun b' => decide (b'.balance 1 irisAtto < sampleBank.balance 1 irisAtto))
    (x := handleSwap sampleEnv sampleBank (sampleOrder (some 2))) (by decide +kernel)
  refine ⟨b', hb', fun hframe => ?_⟩
  have hsame := hframe.iris_of_sender (by decide) (by decide) (by decide) (by decide)
  exact absurd hsame (ne_of_lt (of_decide_eq_true hpaid))

/-- Order without recipient meets its frame. -/
theorem sampleOrder_meets_frame :
    ∃ b', handleSwap sampleEnv sampleBank (sampleOrder none) = .ok b' ∧
      SwapFrame sampleEnv sampleBank b' (sampleOrder none) := by
  obtain ⟨b', hb', -⟩ := of_returns (p := fun _ => true)
    (x := handleSwap sampleEnv sampleBank (sampleOrder none)) (by decide +kernel)
  exact ⟨b', hb', (handleSwap_frame_iff (by decide +kernel) (by decide +kernel) (by decide)
    (by decide) (by decide) hb').mpr (Or.inl rfl)⟩

end Irishub.Coinswap
