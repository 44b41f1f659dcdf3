import Irishub.Coinswap.Types
import Irishub.Lib.ConstantProduct

/-!
# Coinswap: swaps and liquidity

`coinswap/internal/keeper`: the price functions, the four trade functions, and
the handling of the three messages, on the state of the bank. A reserve pool is
the account at the hash of its liquidity id.

The hash function of the address library is the parameter `addressHash`, the
fee of the module's parameters is `fee`.
-/

namespace Irishub.Coinswap
open Lib SdkInt

/-- What the keeper reads besides the bank. -/
structure Env where
  addressHash : String → Address
  fee : ℚ

def getInputPrice (inputAmt inputReserve outputReserve : ℤ) (fee : ℚ) : Outcome ℤ := do
  let deltaFee := 1 - fee
  let inputAmtWithFee ← SdkInt.mul inputAmt (← SdkInt.newIntFromBigInt deltaFee.num)
  let numerator ← SdkInt.mul inputAmtWithFee outputReserve
  let denominator ← SdkInt.add
    (← SdkInt.mul inputReserve (← SdkInt.newIntFromBigInt deltaFee.den)) inputAmtWithFee
  SdkInt.div numerator denominator

def getOutputPrice (outputAmt inputReserve outputReserve : ℤ) (fee : ℚ) : Outcome ℤ := do
  let deltaFee := 1 - fee
  let numerator ← SdkInt.mul (← SdkInt.mul inputReserve outputAmt)
    (← SdkInt.newIntFromBigInt deltaFee.den)
  let denominator ← SdkInt.mul (← SdkInt.sub outputReserve outputAmt)
    (← SdkInt.newIntFromBigInt deltaFee.num)
  SdkInt.add (← SdkInt.div numerator denominator) 1

variable (env : Env)

def getReservePoolAddr (uniId : String) : Address := env.addressHash uniId

/-- `GetReservePool`; `none` stands for nil, which is returned if the account does not exist, and
also if it has no coins, since no coins are stored as nothing and read as nil. -/
def getReservePool (b : Bank) (uniId : String) : Option StoredCoins :=
  (b.accounts.get (getReservePoolAddr env uniId)).filter (fun pool => pool.coins ≠ [])

def swapCoins (b : Bank) (sender : Address) (recipient : Option Address)
    (coinSold coinBought : Coin) : Outcome Bank := do
  let uniId ← getUniId coinSold.denom coinBought.denom
  let poolAddr := getReservePoolAddr env uniId
  let b ← b.sendCoins sender poolAddr (← Coins.newCoins [coinSold])
  b.sendCoins poolAddr (recipient.getD sender) (← Coins.newCoins [coinBought])

def calculateWithExactInput (b : Bank) (exactSoldCoin : Coin) (boughtTokenDenom : String) :
    Outcome ℤ := do
  let uniId ← getUniId exactSoldCoin.denom boughtTokenDenom
  match getReservePool env b uniId with
  | none => fail .errReservePoolNotExists
  | some reservePool =>
    let inputReserve := reservePool.amountOf exactSoldCoin.denom
    let outputReserve := reservePool.amountOf boughtTokenDenom
    require (0 < inputReserve) .errInsufficientFunds
    require (0 < outputReserve) .errInsufficientFunds
    getInputPrice exactSoldCoin.amount inputReserve outputReserve env.fee

def calculateWithExactOutput (b : Bank) (exactBoughtCoin : Coin) (soldTokenDenom : String) :
    Outcome ℤ :=
  match getUniId exactBoughtCoin.denom soldTokenDenom with
  | .error _ => fail .errReservePoolNotExists
  | .ok uniId =>
    match getReservePool env b uniId with
    | none => fail .errReservePoolNotExists
    | some reservePool => do
      let outputReserve := reservePool.amountOf exactBoughtCoin.denom
      let inputReserve := reservePool.amountOf soldTokenDenom
      require (0 < inputReserve) .errInsufficientFunds
      require (0 < outputReserve) .errInsufficientFunds
      require (exactBoughtCoin.amount < outputReserve) .errInsufficientFunds
      getOutputPrice exactBoughtCoin.amount inputReserve outputReserve env.fee

def tradeExactInputForOutput (b : Bank) (input : Input) (output : Output) :
    Outcome (Bank × ℤ) := do
  let boughtTokenAmt ← calculateWithExactInput env b input.coin output.coin.denom
  require (output.coin.amount ≤ boughtTokenAmt) .errConstraintNotMet
  let boughtToken ← Coin.newCoin output.coin.denom boughtTokenAmt
  let b ← swapCoins env b input.address output.address input.coin boughtToken
  return (b, boughtTokenAmt)

def doubleTradeExactInputForOutput (b : Bank) (input : Input) (output : Output) :
    Outcome (Bank × ℤ) := do
  let nativeAmount ← calculateWithExactInput env b input.coin irisAtto
  let nativeCoin ← Coin.newCoin irisAtto nativeAmount
  let b ← swapCoins env b input.address output.address input.coin nativeCoin
  let boughtAmt ← calculateWithExactInput env b nativeCoin output.coin.denom
  let boughtToken ← Coin.newCoin output.coin.denom boughtAmt
  require (output.coin.amount ≤ boughtAmt) .errConstraintNotMet
  let b ← swapCoins env b input.address output.address nativeCoin boughtToken
  return (b, boughtAmt)

def tradeInputForExactOutput (b : Bank) (input : Input) (output : Output) :
    Outcome (Bank × ℤ) := do
  let soldTokenAmt ← calculateWithExactOutput env b output.coin input.coin.denom
  require (soldTokenAmt ≤ input.coin.amount) .errConstraintNotMet
  let soldToken ← Coin.newCoin input.coin.denom soldTokenAmt
  let b ← swapCoins env b input.address output.address soldToken output.coin
  return (b, soldTokenAmt)

def doubleTradeInputForExactOutput (b : Bank) (input : Input) (output : Output) :
    Outcome (Bank × ℤ) := do
  let soldIrisAmount ← calculateWithExactOutput env b output.coin irisAtto
  let soldIrisCoin ← Coin.newCoin irisAtto soldIrisAmount
  let soldTokenAmt ← calculateWithExactOutput env b soldIrisCoin input.coin.denom
  let soldTokenCoin ← Coin.newCoin input.coin.denom soldTokenAmt
  require (soldTokenAmt ≤ input.coin.amount) .errConstraintNotMet
  let b ← swapCoins env b input.address output.address soldTokenCoin soldIrisCoin
  let b ← swapCoins env b input.address output.address soldIrisCoin output.coin
  return (b, soldTokenAmt)

/-- `getTokenPairByDenom`, computed for the tags of the result; it panics on a denomination
without a coin name. -/
def getTokenPairByDenom (inputDenom outputDenom : String) : Outcome String :=
  match getCoinNameByDenom inputDenom, getCoinNameByDenom outputDenom with
  | some inputToken, some outputToken => .ok (outputToken ++ "-" ++ inputToken)
  | _, _ => raise .invalidTokenPair

def MsgSwapOrder.isDoubleSwap (msg : MsgSwapOrder) : Bool :=
  msg.input.coin.denom ≠ irisAtto && msg.output.coin.denom ≠ irisAtto

/-- Trade function `HandleSwap` selects for an order. -/
def trade (b : Bank) (msg : MsgSwapOrder) : Outcome (Bank × ℤ) :=
  if msg.isBuyOrder && msg.isDoubleSwap then
    doubleTradeInputForExactOutput env b msg.input msg.output
  else if msg.isBuyOrder then tradeInputForExactOutput env b msg.input msg.output
  else if msg.isDoubleSwap then doubleTradeExactInputForOutput env b msg.input msg.output
  else tradeExactInputForOutput env b msg.input msg.output

def handleSwap (b : Bank) (msg : MsgSwapOrder) : Outcome Bank := do
  let (b, _) ← trade env b msg
  let _ ← getTokenPairByDenom msg.input.coin.denom msg.output.coin.denom
  return b

def addLiquidity (b : Bank) (sender : Address) (irisCoin token : Coin) (uniId : String)
    (mintLiquidityAmt : ℤ) : Outcome Bank := do
  let poolAddr := getReservePoolAddr env uniId
  let b ← b.sendCoins sender poolAddr (← Coins.newCoins [irisCoin, token])
  let uniDenom ← getUniDenom uniId
  let mintToken ← Coins.newCoins [← Coin.newCoin uniDenom mintLiquidityAmt]
  let b ← b.addCoins poolAddr mintToken
  b.addCoins sender mintToken

/-- Amounts of `HandleAddLiquidity`: vouchers to mint and tokens to deposit. -/
def liquidityAmounts (msg : MsgAddLiquidity) (irisReserveAmt tokenReserveAmt liquidity : ℤ) :
    Outcome (ℤ × Coin) :=
  if liquidity = 0 then do
    let depositToken ← Coin.newCoin msg.maxToken.denom msg.maxToken.amount
    return (msg.exactIrisAmt, depositToken)
  else do
    let mintLiquidityAmt ← SdkInt.div (← SdkInt.mul liquidity msg.exactIrisAmt) irisReserveAmt
    require (msg.minLiquidity ≤ mintLiquidityAmt) .errConstraintNotMet
    let depositAmt ← SdkInt.add
      (← SdkInt.div (← SdkInt.mul tokenReserveAmt msg.exactIrisAmt) irisReserveAmt) 1
    let depositToken ← Coin.newCoin msg.maxToken.denom depositAmt
    require (depositAmt ≤ msg.maxToken.amount) .errConstraintNotMet
    return (mintLiquidityAmt, depositToken)

def handleAddLiquidity (b : Bank) (msg : MsgAddLiquidity) : Outcome Bank := do
  let uniId ← getUniId irisAtto msg.maxToken.denom
  let uniDenom ← getUniDenom uniId
  let reservePool := (getReservePool env b uniId).getD .empty
  let irisCoin ← Coin.newCoin irisAtto msg.exactIrisAmt
  let (mintLiquidityAmt, depositToken) ← liquidityAmounts msg
    (reservePool.amountOf irisAtto) (reservePool.amountOf msg.maxToken.denom)
    (reservePool.amountOf uniDenom)
  let _ ← getTokenPairByDenom msg.maxToken.denom irisAtto
  addLiquidity env b msg.sender irisCoin depositToken uniId mintLiquidityAmt

def removeLiquidity (b : Bank) (poolAddr sender : Address)
    (deductUniCoin irisWithdrawCoin tokenWithdrawCoin : Coin) : Outcome Bank := do
  let deltaCoins ← Coins.newCoins [deductUniCoin]
  let b ← b.subtractCoins poolAddr deltaCoins
  let b ← b.subtractCoins sender deltaCoins
  b.sendCoins poolAddr sender (← Coins.newCoins [irisWithdrawCoin, tokenWithdrawCoin])

def handleRemoveLiquidity (b : Bank) (msg : MsgRemoveLiquidity) : Outcome Bank := do
  let uniDenom := msg.withdrawLiquidity.denom
  match getCoinNameByDenom uniDenom with
  | none => fail .errIllegalDenom
  | some uniId =>
    let minTokenDenom ← getCoinMinDenomFromUniDenom uniDenom
    match getReservePool env b uniId with
    | none => fail .errReservePoolNotExists
    | some reservePool =>
      let irisReserveAmt := reservePool.amountOf irisAtto
      let tokenReserveAmt := reservePool.amountOf minTokenDenom
      let liquidityReserve := reservePool.amountOf uniDenom
      require (msg.minIrisAmt ≤ irisReserveAmt) .errInsufficientFunds
      require (msg.minToken ≤ tokenReserveAmt) .errInsufficientFunds
      require (msg.withdrawLiquidity.amount ≤ liquidityReserve) .errInsufficientFunds
      let irisWithdrawnAmt ← SdkInt.div
        (← SdkInt.mul msg.withdrawLiquidity.amount irisReserveAmt) liquidityReserve
      let tokenWithdrawnAmt ← SdkInt.div
        (← SdkInt.mul msg.withdrawLiquidity.amount tokenReserveAmt) liquidityReserve
      let irisWithdrawCoin ← Coin.newCoin irisAtto irisWithdrawnAmt
      let tokenWithdrawCoin ← Coin.newCoin minTokenDenom tokenWithdrawnAmt
      require (msg.minIrisAmt ≤ irisWithdrawCoin.amount) .errConstraintNotMet
      require (msg.minToken ≤ tokenWithdrawCoin.amount) .errConstraintNotMet
      let _ ← getTokenPairByDenom minTokenDenom irisAtto
      removeLiquidity b (getReservePoolAddr env uniId) msg.sender msg.withdrawLiquidity
        irisWithdrawCoin tokenWithdrawCoin

section
variable {env} {b b' : Bank} {fee : ℚ} {inputReserve outputReserve : ℤ} {c : Coin}

lemma feeFactor_bounds (h : validateFee fee) :
    0 < (1 - fee).num ∧ (1 - fee).num ≤ ((1 - fee).den : ℤ) := by
  obtain ⟨hpos, hlt⟩ := h
  have hpos' : 0 < 1 - fee := by linarith
  have hle : 1 - fee ≤ 1 := by linarith
  refine ⟨Rat.num_pos.mpr hpos', ?_⟩
  have hden : (0 : ℚ) < (1 - fee).den := by exact_mod_cast (1 - fee).den_pos
  have hfrac : ((1 - fee).num : ℚ) / ((1 - fee).den : ℚ) ≤ 1 := by
    rw [Rat.num_div_den]
    exact hle
  have hnum := (div_le_one hden).mp hfrac
  exact_mod_cast hnum

lemma eq_of_getInputPrice {inputAmt r : ℤ}
    (h : getInputPrice inputAmt inputReserve outputReserve fee = .ok r) :
    r = inputPrice inputReserve outputReserve (1 - fee).num (1 - fee).den inputAmt := by
  simp only [getInputPrice, bind_ok, newIntFromBigInt_ok] at h
  obtain ⟨_, ⟨rfl, _⟩, _, h1, _, h2, _, ⟨rfl, _⟩, _, h3, _, h4, h5⟩ := h
  obtain ⟨rfl, _⟩ := eq_of_mul_ok h1
  obtain ⟨rfl, _⟩ := eq_of_mul_ok h2
  obtain ⟨rfl, _⟩ := eq_of_mul_ok h3
  obtain ⟨rfl, _⟩ := add_eq_ok.mp h4
  exact (eq_of_div_ok h5).1

lemma eq_of_getOutputPrice {outputAmt r : ℤ}
    (h : getOutputPrice outputAmt inputReserve outputReserve fee = .ok r) :
    r = outputPrice inputReserve outputReserve (1 - fee).num (1 - fee).den outputAmt := by
  simp only [getOutputPrice, bind_ok, newIntFromBigInt_ok] at h
  obtain ⟨_, h1, _, ⟨rfl, _⟩, _, h2, _, h3, _, ⟨rfl, _⟩, _, h4, _, h5, h6⟩ := h
  obtain ⟨rfl, _⟩ := eq_of_mul_ok h1
  obtain ⟨rfl, _⟩ := eq_of_mul_ok h2
  obtain ⟨rfl, _⟩ := sub_eq_ok.mp h3
  obtain ⟨rfl, _⟩ := eq_of_mul_ok h4
  obtain ⟨rfl, _⟩ := eq_of_div_ok h5
  exact (add_eq_ok.mp h6).1

/-- A pool that is not found has no coins. -/
lemma amountOf_getReservePool (b : Bank) (uid d : String) :
    ((getReservePool env b uid).getD .empty).amountOf d =
      b.balance (getReservePoolAddr env uid) d := by
  simp only [getReservePool, Bank.balance, Bank.getCoins]
  cases hget : b.accounts.get (getReservePoolAddr env uid) with
  | none => rfl
  | some pool =>
    by_cases hempty : pool.coins = []
    · simp [Option.filter, hempty, StoredCoins.amountOf_eq, StoredCoins.empty]
    · simp [Option.filter, hempty]

lemma balance_of_getReservePool {uid : String} {pool : StoredCoins}
    (h : getReservePool env b uid = some pool) (d : String) :
    b.balance (getReservePoolAddr env uid) d = pool.amountOf d := by
  rw [← amountOf_getReservePool, h, Option.getD_some]

lemma denomSum_newCoins_singleton {r : Coins} (h : Coins.newCoins [c] = .ok r)
    (d : String) : Coins.denomSum d r = c.amountIn d := by
  rw [(Coins.newCoins_ok h).2 d]
  simp

lemma denomSum_newCoins_pair {c' : Coin} {r : Coins} (h : Coins.newCoins [c, c'] = .ok r)
    (d : String) : Coins.denomSum d r = c.amountIn d + c'.amountIn d := by
  rw [(Coins.newCoins_ok h).2 d]
  simp

lemma balance_swapCoins {sender : Address} {recipient : Option Address} {sold bought : Coin}
    (h : swapCoins env b sender recipient sold bought = .ok b') :
    ∃ uid, getUniId sold.denom bought.denom = .ok uid ∧ ∀ a d, b'.balance a d = b.balance a d
        - (if a = sender then sold.amountIn d else 0)
        + (if a = getReservePoolAddr env uid then sold.amountIn d else 0)
        - (if a = getReservePoolAddr env uid then bought.amountIn d else 0)
        + (if a = recipient.getD sender then bought.amountIn d else 0) := by
  simp only [swapCoins, bind_ok] at h
  obtain ⟨uid, hu, soldCoins, hs, b₁, h1, boughtCoins, hb, h2⟩ := h
  refine ⟨uid, hu, fun a d => ?_⟩
  rw [Bank.balance_sendCoins h2, Bank.balance_sendCoins h1, denomSum_newCoins_singleton hs,
    denomSum_newCoins_singleton hb]

lemma eq_of_calculateWithExactInput {sold : Coin} {bought : String} {r : ℤ}
    (h : calculateWithExactInput env b sold bought = .ok r) :
    ∃ uid, getUniId sold.denom bought = .ok uid ∧
      0 < b.balance (getReservePoolAddr env uid) sold.denom ∧
      0 < b.balance (getReservePoolAddr env uid) bought ∧
      r = inputPrice (b.balance (getReservePoolAddr env uid) sold.denom)
        (b.balance (getReservePoolAddr env uid) bought) (1 - env.fee).num (1 - env.fee).den
        sold.amount := by
  simp only [calculateWithExactInput, bind_ok] at h
  obtain ⟨uid, hu, h⟩ := h
  refine ⟨uid, hu, ?_⟩
  split at h
  · simp at h
  · rename_i pool hpool
    simp only [bind_ok, require_ok, decide_eq_true_eq] at h
    obtain ⟨_, hin, _, hout, h⟩ := h
    rw [balance_of_getReservePool hpool, balance_of_getReservePool hpool]
    exact ⟨hin, hout, eq_of_getInputPrice h⟩

lemma eq_of_calculateWithExactOutput {bought : Coin} {sold : String} {r : ℤ}
    (h : calculateWithExactOutput env b bought sold = .ok r) :
    ∃ uid, getUniId bought.denom sold = .ok uid ∧ 0 < b.balance (getReservePoolAddr env uid) sold ∧
      bought.amount < b.balance (getReservePoolAddr env uid) bought.denom ∧
      r = outputPrice (b.balance (getReservePoolAddr env uid) sold)
        (b.balance (getReservePoolAddr env uid) bought.denom) (1 - env.fee).num (1 - env.fee).den
        bought.amount := by
  simp only [calculateWithExactOutput] at h
  split at h
  · simp at h
  · rename_i uid hu
    refine ⟨uid, hu, ?_⟩
    split at h
    · simp at h
    · rename_i pool hpool
      simp only [bind_ok, require_ok, decide_eq_true_eq] at h
      obtain ⟨_, hin, _, _, _, hlt, h⟩ := h
      rw [balance_of_getReservePool hpool, balance_of_getReservePool hpool]
      exact ⟨hin, hlt, eq_of_getOutputPrice h⟩

/-- Ways in which an order is carried out: with the pool of its pair, or, between two tokens,
with the pools of both, and for an exact input or for an exact output. -/
inductive Trades (env : Env) (b : Bank) (msg : MsgSwapOrder) (b' : Bank) : Prop
  | doubleExactOutput {b₁ : Bank} {native sold : ℤ} (hdouble : msg.isDoubleSwap = true)
      (hnative : calculateWithExactOutput env b msg.output.coin irisAtto = .ok native)
      (hnonneg : 0 ≤ native)
      (hcalc : calculateWithExactOutput env b ⟨irisAtto, native⟩ msg.input.coin.denom = .ok sold)
      (hsold : 0 ≤ sold) (hmax : sold ≤ msg.input.coin.amount)
      (hfirst : swapCoins env b msg.input.address msg.output.address
        ⟨msg.input.coin.denom, sold⟩ ⟨irisAtto, native⟩ = .ok b₁)
      (hsecond : swapCoins env b₁ msg.input.address msg.output.address ⟨irisAtto, native⟩
        msg.output.coin = .ok b') : Trades env b msg b'
  | exactOutput {sold : ℤ} (hsingle : msg.isDoubleSwap = false)
      (hcalc : calculateWithExactOutput env b msg.output.coin msg.input.coin.denom = .ok sold)
      (hsold : 0 ≤ sold)
      (h : swapCoins env b msg.input.address msg.output.address ⟨msg.input.coin.denom, sold⟩
        msg.output.coin = .ok b') : Trades env b msg b'
  | doubleExactInput {b₁ : Bank} {native bought : ℤ} (hdouble : msg.isDoubleSwap = true)
      (hnative : calculateWithExactInput env b msg.input.coin irisAtto = .ok native)
      (hnonneg : 0 ≤ native)
      (hfirst : swapCoins env b msg.input.address msg.output.address msg.input.coin
        ⟨irisAtto, native⟩ = .ok b₁)
      (hcalc : calculateWithExactInput env b₁ ⟨irisAtto, native⟩ msg.output.coin.denom =
        .ok bought)
      (hbought : 0 ≤ bought) (hmin : msg.output.coin.amount ≤ bought)
      (hsecond : swapCoins env b₁ msg.input.address msg.output.address ⟨irisAtto, native⟩
        ⟨msg.output.coin.denom, bought⟩ = .ok b') : Trades env b msg b'
  | exactInput {bought : ℤ} (hsingle : msg.isDoubleSwap = false)
      (hcalc : calculateWithExactInput env b msg.input.coin msg.output.coin.denom = .ok bought)
      (hbought : 0 ≤ bought)
      (h : swapCoins env b msg.input.address msg.output.address msg.input.coin
        ⟨msg.output.coin.denom, bought⟩ = .ok b') : Trades env b msg b'

lemma trades_of_handleSwap {msg : MsgSwapOrder} (h : handleSwap env b msg = .ok b') :
    Trades env b msg b' := by
  simp only [handleSwap, bind_ok, pure_eq_ok] at h
  obtain ⟨⟨b'', amount⟩, htrade, _, _, hr⟩ := h
  subst hr
  unfold trade at htrade
  split_ifs at htrade with hbuyDouble hbuy hdouble
  · simp only [doubleTradeInputForExactOutput, bind_ok, Coin.newCoin_ok, require_ok,
      decide_eq_true_eq, pure_eq_ok, Prod.mk.injEq] at htrade
    obtain ⟨native, hnative, _, ⟨rfl, hnonneg⟩, sold, hcalc, _, ⟨rfl, hsold⟩, _, hmax, b₁, h1, b2,
      h2, rfl, _⟩ := htrade
    rw [Bool.and_eq_true] at hbuyDouble
    exact .doubleExactOutput hbuyDouble.2 hnative hnonneg hcalc hsold hmax h1 h2
  · simp only [tradeInputForExactOutput, bind_ok, Coin.newCoin_ok, pure_eq_ok,
      Prod.mk.injEq] at htrade
    obtain ⟨sold, hcalc, _, _, _, ⟨rfl, hsold⟩, b₁, h1, rfl, _⟩ := htrade
    exact .exactOutput (by simpa [hbuy] using hbuyDouble) hcalc hsold h1
  · simp only [doubleTradeExactInputForOutput, bind_ok, Coin.newCoin_ok, require_ok,
      decide_eq_true_eq, pure_eq_ok, Prod.mk.injEq] at htrade
    obtain ⟨native, hnative, _, ⟨rfl, hnonneg⟩, b₁, h1, bought, hcalc, _, ⟨rfl, hbought⟩, _, hmin,
      b2, h2, rfl, _⟩ := htrade
    exact .doubleExactInput hdouble hnative hnonneg h1 hcalc hbought hmin h2
  · simp only [tradeExactInputForOutput, bind_ok, Coin.newCoin_ok, pure_eq_ok,
      Prod.mk.injEq] at htrade
    obtain ⟨bought, hcalc, _, _, _, ⟨rfl, hbought⟩, b₁, h1, rfl, _⟩ := htrade
    exact .exactInput (by simpa using hdouble) hcalc hbought h1

end
end Irishub.Coinswap
