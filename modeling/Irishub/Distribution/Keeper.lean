import Irishub.Stake.State

/-!
# Distribution: withdrawals, hooks and allocation

The keeper functions of `distribution/keeper`. A delegation's reward is settled
by one computation, `withdrawDelegationReward`, whose results the callers write
back; the hooks settle rewards before stake changes a power or a number of
shares.
-/

namespace Irishub.Stake
open Lib Irishub.Distribution

namespace State
variable (s : State)

def setFeePool (feePool : FeePool) : State :=
  { s with distr := { s.distr with feePool := feePool } }

def getValidatorDistInfo (operatorAddr : Address) : Outcome ValidatorDistInfo :=
  deref (s.distr.validatorDistInfos.get operatorAddr) .validatorDistInfoNil

def setValidatorDistInfo (operatorAddr : Address) (vdi : ValidatorDistInfo) : State :=
  { s with distr := { s.distr with
      validatorDistInfos := s.distr.validatorDistInfos.set operatorAddr vdi } }

def removeValidatorDistInfo (valAddr : Address) : Outcome State := do
  let vdi ← s.getValidatorDistInfo valAddr
  assert (!vdi.delAccum.accum.isPositive) .unwithdrawnDelegatorAccum
  assert vdi.valCommission.isZero .unwithdrawnValidatorCommission
  return { s with distr := { s.distr with
    validatorDistInfos := s.distr.validatorDistInfos.delete valAddr } }

def getDelegationDistInfo (delAddr valOperatorAddr : Address) : Outcome DelegationDistInfo :=
  deref (s.distr.delegationDistInfos.get (toLex (delAddr, valOperatorAddr)))
    .delegationDistInfoNil

def setDelegationDistInfo (delAddr valOperatorAddr : Address) (ddi : DelegationDistInfo) : State :=
  { s with distr := { s.distr with
      delegationDistInfos :=
        s.distr.delegationDistInfos.set (toLex (delAddr, valOperatorAddr)) ddi } }

def removeDelegationDistInfo (delAddr valOperatorAddr : Address) : State :=
  { s with distr := { s.distr with
      delegationDistInfos :=
        s.distr.delegationDistInfos.delete (toLex (delAddr, valOperatorAddr)) } }

def getDelegatorWithdrawAddr (delAddr : Address) : Address :=
  (s.distr.delegatorWithdrawAddrs.get delAddr).getD delAddr

def setDelegatorWithdrawAddr (delAddr withdrawAddr : Address) : State :=
  { s with distr := { s.distr with
      delegatorWithdrawAddrs := s.distr.delegatorWithdrawAddrs.set delAddr withdrawAddr } }

def getWithdrawContext (valOperatorAddr : Address) : Outcome WithdrawContext := do
  let validator ← deref (s.getValidator valOperatorAddr) .nilPointer
  return {
    feePool := s.distr.feePool
    height := s.height
    totalPower := .newDecFromInt s.stake.lastTotalPower
    valPower := .newDecFromInt (s.getLastValidatorPower valOperatorAddr)
    commissionRate := validator.commission.rate }

/-- `withdrawDelegationReward`. The truncation is that of the flow tag. -/
def withdrawDelegationReward (delAddr valAddr : Address) :
    Outcome (FeePool × ValidatorDistInfo × DelegationDistInfo × DecCoins) := do
  let wc ← s.getWithdrawContext valAddr
  let valInfo ← s.getValidatorDistInfo valAddr
  let delInfo ← s.getDelegationDistInfo delAddr valAddr
  let validator ← deref (s.getValidator valAddr) .nilPointer
  let delegation ← deref (s.getDelegation delAddr valAddr) .nilPointer
  let (delInfo, valInfo, feePool, withdraw) ←
    delInfo.withdrawRewards wc valInfo validator.delegatorShares delegation.shares
  let _ ← withdraw.truncateDecimal
  return (feePool, valInfo, delInfo, withdraw)

def withdrawToDelegator (feePool : FeePool) (delAddr : Address) (amount : DecCoins) :
    Outcome State := do
  let (coinsToAdd, change) ← amount.truncateDecimal
  let valPool ← feePool.valPool.plus change
  let bank ← panicOnError (s.bank.addCoins (s.getDelegatorWithdrawAddr delAddr) coinsToAdd)
  return { s.setFeePool { feePool with valPool := valPool } with bank := bank }

/-- Writes after `withdrawDelegationReward`. -/
def setWithdrawn (delAddr valAddr : Address) (feePool : FeePool) (valInfo : ValidatorDistInfo)
    (delInfo : DelegationDistInfo) : State :=
  ((s.setFeePool feePool).setValidatorDistInfo valAddr valInfo).setDelegationDistInfo delAddr
    valAddr delInfo

def settleDelegation (delAddr valAddr : Address) : Outcome State := do
  let (feePool, valInfo, delInfo, withdraw) ← s.withdrawDelegationReward delAddr valAddr
  (s.setWithdrawn delAddr valAddr feePool valInfo delInfo).withdrawToDelegator feePool delAddr
    withdraw

/-- `WithdrawDelegationReward`. -/
def withdrawDelegationRewardMsg (delAddr valAddr : Address) : Outcome State := do
  require (s.distr.delegationDistInfos.has (toLex (delAddr, valAddr))) .errNoDelegationDistInfo
  s.settleDelegation delAddr valAddr

/-- `withdrawDelegationRewardsAll`: the state with all delegations of `delAddr` settled, and the
sum of their rewards. -/
def withdrawDelegationRewardsAll (delAddr : Address) : Outcome (State × DecCoins) :=
  (s.delegatorDelegations delAddr).foldlM (fun (acc : State × DecCoins) del => do
    let (feePool, valInfo, delInfo, diWithdraw) ←
      acc.1.withdrawDelegationReward delAddr del.validatorAddr
    let withdraw ← acc.2.plus diWithdraw
    return (acc.1.setWithdrawn delAddr del.validatorAddr feePool valInfo delInfo, withdraw))
    (s, [])

/-- `WithdrawDelegationRewardsAll`. -/
def withdrawDelegationRewardsAllMsg (delAddr : Address) : Outcome State := do
  let (s, withdraw) ← s.withdrawDelegationRewardsAll delAddr
  s.withdrawToDelegator s.distr.feePool delAddr withdraw

/-- `withdrawValidatorCommission`: the fee pool is returned and written by the caller. -/
def withdrawValidatorCommission (operatorAddr : Address) :
    Outcome (State × FeePool × DecCoins) := do
  let valInfo ← s.getValidatorDistInfo operatorAddr
  let wc ← s.getWithdrawContext operatorAddr
  let (valInfo, feePool, commission) ← valInfo.withdrawCommission wc
  return (s.setValidatorDistInfo operatorAddr valInfo, feePool, commission)

def withdrawValidatorRewardsAll (operatorAddr : Address) : Outcome State := do
  require (s.distr.validatorDistInfos.has operatorAddr) .errNoValidatorDistInfo
  let (s, withdraw) ← s.withdrawDelegationRewardsAll operatorAddr
  let (s, feePool, commission) ← s.withdrawValidatorCommission operatorAddr
  let withdraw ← withdraw.plus commission
  let _ ← commission.truncateDecimal
  s.withdrawToDelegator feePool operatorAddr withdraw

def currentDelegationReward (delAddr valAddr : Address) : Outcome DecCoins := do
  let wc ← s.getWithdrawContext valAddr
  let valInfo ← s.getValidatorDistInfo valAddr
  let delInfo ← s.getDelegationDistInfo delAddr valAddr
  let validator ← deref (s.getValidator valAddr) .nilPointer
  let delegation ← deref (s.getDelegation delAddr valAddr) .nilPointer
  delInfo.currentRewards wc valInfo validator.delegatorShares delegation.shares

/-- `CurrentDelegationReward`, the query. -/
def currentDelegationRewardCoins (delAddr valAddr : Address) : Outcome Coins := do
  require (s.distr.delegationDistInfos.has (toLex (delAddr, valAddr))) .errNoDelegationDistInfo
  let estCoins ← s.currentDelegationReward delAddr valAddr
  let (truncated, _) ← estCoins.truncateDecimal
  return truncated

/-- Loop of `takeValidatorFeePoolRewards` over all delegations of a validator. -/
def settleDelegations (delegations : List Delegation) (operatorAddr : Address) : Outcome State :=
  delegations.foldlM (fun s delegation => s.settleDelegation delegation.delegatorAddr operatorAddr)
    s

/-- Branch of `takeValidatorFeePoolRewards` for a validator that nobody delegates to. -/
def touchValidatorDistInfo (operatorAddr : Address) : Outcome State := do
  let vi ← s.getValidatorDistInfo operatorAddr
  return s.setValidatorDistInfo operatorAddr
    { vi with
      delAccum := { vi.delAccum with updateHeight := s.height }
      feePoolWithdrawalHeight := s.height }

/-- First part of `takeValidatorFeePoolRewards`: the operator's own delegation is settled, or
all delegations when the operator has none. -/
def settleForValidator (operatorAddr : Address) : Outcome State :=
  if s.distr.delegationDistInfos.has (toLex (operatorAddr, operatorAddr)) then
    s.settleDelegation operatorAddr operatorAddr
  else
    let delegations := s.getValidatorDelegations operatorAddr
    if delegations = [] then s.touchValidatorDistInfo operatorAddr
    else s.settleDelegations delegations operatorAddr

def takeValidatorFeePoolRewards (operatorAddr : Address) : Outcome State := do
  require (s.distr.validatorDistInfos.has operatorAddr) .errNoValidatorDistInfo
  let s ← s.settleForValidator operatorAddr
  let valInfo ← s.getValidatorDistInfo operatorAddr
  let wc ← s.getWithdrawContext operatorAddr
  let (valInfo, feePool) ← valInfo.takeFeePoolRewards wc
  return (s.setFeePool feePool).setValidatorDistInfo operatorAddr valInfo

/-- `onValidatorCreated`. -/
def distrValidatorCreated (valAddr : Address) : State :=
  s.setValidatorDistInfo valAddr (newValidatorDistInfo s.height)

/-- `onValidatorModified`. -/
def distrValidatorModified (valAddr : Address) : Outcome State :=
  if 0 < s.height then panicOnError (s.takeValidatorFeePoolRewards valAddr) else .ok s

/-- `onValidatorBonded`. -/
def distrValidatorBonded (valAddr : Address) : Outcome State := do
  assert (s.getLastValidatorPower valAddr = 0) .lastPowerNotZero
  s.distrValidatorModified valAddr

/-- `onValidatorPowerDidChange`. -/
def distrValidatorPowerDidChange (valAddr : Address) : Outcome State := do
  let vi ← s.getValidatorDistInfo valAddr
  assert (vi.feePoolWithdrawalHeight = s.height) .withdrawalHeightNotUpdated
  return s

/-- `OnDelegationCreated`. -/
def distrDelegationCreated (delAddr valAddr : Address) : Outcome State := do
  let s ← s.distrValidatorModified valAddr
  return s.setDelegationDistInfo delAddr valAddr ⟨s.height⟩

/-- `OnDelegationSharesModified`. -/
def distrDelegationSharesModified (delAddr valAddr : Address) : Outcome State := do
  let s ← s.distrValidatorModified valAddr
  panicOnError (s.withdrawDelegationRewardMsg delAddr valAddr)

def payOutCommission (delAddr valAddr : Address) : Outcome State :=
  if valAddr = delAddr then do
    let (s, feePool, commission) ← s.withdrawValidatorCommission valAddr
    let _ ← commission.truncateDecimal
    s.withdrawToDelegator feePool delAddr commission
  else .ok s

/-- `onDelegationRemoved`. -/
def distrDelegationRemoved (delAddr valAddr : Address) : Outcome State := do
  let s ← s.payOutCommission delAddr valAddr
  return s.removeDelegationDistInfo delAddr valAddr

/-- The proposer's part in `AllocateTokens`: nothing for a jailed proposer. -/
def rewardProposer (proposerValidator : Validator) (proposerDist : ValidatorDistInfo)
    (feesCollectedDec : DecCoins) (percentVotes : Dec) : Outcome (State × DecCoins) :=
  if proposerValidator.jailed then .ok (s, [])
  else do
    let bonus ← s.distr.bonusProposerReward.mul percentVotes
    let proposerMultiplier ← s.distr.baseProposerReward.add bonus
    let proposerReward ← feesCollectedDec.mulDec proposerMultiplier
    let commission ← proposerReward.mulDec proposerValidator.commission.rate
    let remaining ← proposerReward.minus commission
    let valCommission ← proposerDist.valCommission.plus commission
    let delPool ← proposerDist.delPool.plus remaining
    return (s.setValidatorDistInfo proposerValidator.operatorAddr
      { proposerDist with valCommission := valCommission, delPool := delPool }, proposerReward)

/-- `AddCoins` to the community tax account, whose error is ignored. -/
def addCommunityTax (coins : Coins) : Outcome State := do
  return { s with
    bank := ← s.bank.ignoreError (s.bank.addCoins communityTaxCoinsAccAddr coins) }

/-- `AllocateTokens` when there is a last total power. -/
def allocateShares (proposerValidator : Validator) (proposerDist : ValidatorDistInfo)
    (percentVotes : Dec) : Outcome State := do
  let feesCollectedDec := DecCoins.newDecCoins s.collectedFees
  let feePool := s.distr.feePool
  let (s, proposerReward) ←
    s.rewardProposer proposerValidator proposerDist feesCollectedDec percentVotes
  let communityFunding ← feesCollectedDec.mulDec s.distr.communityTax
  let (fundingCoins, change) ← communityFunding.truncateDecimal
  let s ← s.addCommunityTax fundingCoins
  let received ← feesCollectedDec.minus proposerReward
  let received ← received.minus communityFunding
  let poolReceived ← received.plus change
  let valPool ← feePool.valPool.plus poolReceived
  return { s.setFeePool { feePool with valPool := valPool } with collectedFees := [] }

def allocateTokens (percentVotes : Dec) (proposer : Address) : Outcome State := do
  let proposerValidator ← deref (s.getValidatorByConsAddr proposer) .nilPointer
  let proposerDist ← s.getValidatorDistInfo proposerValidator.operatorAddr
  if s.stake.lastTotalPower = 0 then
    let s ← s.addCommunityTax s.collectedFees
    return { s with collectedFees := [] }
  else s.allocateShares proposerValidator proposerDist percentVotes

/-- `AllocateFeeTax`. What is left of the tax is only reported; a tax that is not burned has a
destination. -/
def allocateFeeTax (destAddr : Option Address) (percent : Dec) (burn : Bool) : Outcome State := do
  let taxDecCoins := DecCoins.newDecCoins (s.bank.getCoins communityTaxCoinsAccAddr).coins
  let allocatedDecCoins ← taxDecCoins.mulDec percent
  let (allocatedCoins, _) ← allocatedDecCoins.truncateDecimal
  let _taxLeftDecCoins ← taxDecCoins.minus allocatedDecCoins
  if burn then
    let bank ← panicOnError (s.bank.burnCoins communityTaxCoinsAccAddr allocatedCoins)
    return { s with bank := bank }
  else
    let destAddr ← deref destAddr .nilPointer
    let bank ← panicOnError (s.bank.sendCoins communityTaxCoinsAccAddr destAddr allocatedCoins)
    return { s with bank := bank }

end State

/-- `distribution/keeper/hooks.go`. -/
def distrHooks : Hooks where
  onValidatorCreated s valAddr := .ok (s.distrValidatorCreated valAddr)
  onValidatorModified s valAddr := s.distrValidatorModified valAddr
  onValidatorRemoved s _ valAddr := s.removeValidatorDistInfo valAddr
  onValidatorBonded s _ valAddr := s.distrValidatorBonded valAddr
  onValidatorPowerDidChange s _ valAddr := s.distrValidatorPowerDidChange valAddr
  onValidatorBeginUnbonding s _ valAddr := s.distrValidatorModified valAddr
  onDelegationCreated s delAddr valAddr := s.distrDelegationCreated delAddr valAddr
  onDelegationSharesModified s delAddr valAddr := s.distrDelegationSharesModified delAddr valAddr
  onDelegationRemoved s delAddr valAddr := s.distrDelegationRemoved delAddr valAddr

end Irishub.Stake
