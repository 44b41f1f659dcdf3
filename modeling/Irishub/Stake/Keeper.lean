import Irishub.Stake.State

/-!
# Stake: delegations and validator records

The functions of `stake/keeper/validator.go` and `stake/keeper/delegation.go` that
change a validator's tokens and shares, and those that create, change and remove
delegations. Where the source returns a changed validator besides writing it to
the store, so do the functions here.
-/

namespace Irishub.Stake
open Lib

namespace State
variable (env : Env) (hooks : Hooks) (s : State)

/-- `DecreaseLoosenToken` of the bank. -/
def decreaseLoosenToken (coins : Coins) : Outcome State := do
  return { s with bank := ← s.bank.decreaseTotalLoosenToken coins }

def addValidatorTokensAndShares (validator : Validator) (tokensToAdd : ℤ) :
    Outcome (State × Validator × Dec) := do
  let pool := s.getPool
  let s ← s.deleteValidatorByPowerIndex validator
  let (validator, pool, addedShares) ← validator.addTokensFromDel pool tokensToAdd
  let s ← ((s.setValidator validator).setPool pool).setValidatorByPowerIndex validator
  return (s, validator, addedShares)

def removeValidatorTokensAndShares (validator : Validator) (sharesToRemove : Dec) :
    Outcome (State × Validator × Dec) := do
  let pool := s.getPool
  let s ← s.deleteValidatorByPowerIndex validator
  let (validator, pool, removedTokens) ← validator.removeDelShares pool sharesToRemove
  let s ← ((s.setValidator validator).setPool pool).setValidatorByPowerIndex validator
  return (s, validator, removedTokens)

def removeValidatorTokens (validator : Validator) (tokensToRemove : Dec) :
    Outcome (State × Validator) := do
  let pool := s.getPool
  let s ← s.deleteValidatorByPowerIndex validator
  let (validator, pool) ← validator.removeTokens pool tokensToRemove
  let s ← ((s.setValidator validator).setPool pool).setValidatorByPowerIndex validator
  return (s, validator)

def updateValidatorCommission (validator : Validator) (newRate : Dec) : Outcome Commission := do
  validator.commission.validateNewRate newRate s.blockTime
  return { validator.commission with rate := newRate, updateTime := s.blockTime }

/-- Deletions of `RemoveValidator`: the record and its two indexes. -/
def deleteValidator (validator : Validator) (key : PowerRank) : State :=
  { s with stake := { s.stake with
      validators := s.stake.validators.delete validator.operatorAddr
      validatorsByConsAddr :=
        s.stake.validatorsByConsAddr.delete (env.consAddress validator.consPubKey)
      validatorsByPowerIndex := s.stake.validatorsByPowerIndex.delete key } }

def removeValidator (address : Address) : Outcome State :=
  match s.getValidator address with
  | none => .ok s
  | some validator => do
    assert (validator.status = .unbonded) .removeBondedValidator
    let key ← getValidatorPowerRank validator
    hooks.onValidatorRemoved (s.deleteValidator env validator key)
      (env.consAddress validator.consPubKey) validator.operatorAddr

def jailValidator (validator : Validator) : Outcome State := do
  assert (!validator.jailed) .alreadyJailed
  let validator := { validator with jailed := true }
  (s.setValidator validator).deleteValidatorByPowerIndex validator

def unjailValidator (validator : Validator) : Outcome State := do
  assert validator.jailed .alreadyUnjailed
  let validator := { validator with jailed := false }
  (s.setValidator validator).setValidatorByPowerIndex validator

def jail (consAddr : Address) : Outcome State := do
  s.jailValidator (← s.mustGetValidatorByConsAddr consAddr)

def unjail (consAddr : Address) : Outcome State := do
  s.unjailValidator (← s.mustGetValidatorByConsAddr consAddr)

def removeDelegation (delegation : Delegation) : Outcome State := do
  let s ← hooks.onDelegationRemoved s delegation.delegatorAddr delegation.validatorAddr
  return { s with stake := { s.stake with
    delegations := s.stake.delegations.delete
      (toLex (delegation.delegatorAddr, delegation.validatorAddr)) } }

/-- Hook that `Delegate` calls. -/
def onDelegate (delAddr valAddr : Address) : Outcome State :=
  if (s.getDelegation delAddr valAddr).isSome then
    hooks.onDelegationSharesModified s delAddr valAddr
  else hooks.onDelegationCreated s delAddr valAddr

/-- Payment in `Delegate`. -/
def payDelegation (delAddr : Address) (bondAmt : Coin) (subtractAccount : Bool) : Outcome State :=
  if subtractAccount then do
    return { s with bank := ← s.bank.subtractCoins delAddr [bondAmt] }
  else .ok s

def delegate (delAddr : Address) (bondAmt : Coin) (validator : Validator)
    (subtractAccount : Bool) : Outcome (State × Dec) := do
  let exRate ← validator.delegatorShareExRate
  require (!exRate.isZero) .errDelegatorShareExRateInvalid
  let delegation := (s.getDelegation delAddr validator.operatorAddr).getD
    { shares := .zero, height := 0, delegatorAddr := delAddr
      validatorAddr := validator.operatorAddr }
  let s ← s.onDelegate hooks delAddr validator.operatorAddr
  let s ← s.payDelegation delAddr bondAmt subtractAccount
  let (s, _, newShares) ← s.addValidatorTokensAndShares validator bondAmt.amount
  let shares ← delegation.shares.add newShares
  return (s.setDelegation { delegation with shares := shares, height := s.height }, newShares)

/-- Jailing in `unbond`: an operator who leaves their own validator. -/
def jailLeavingOperator (delegation : Delegation) (validator : Validator) :
    Outcome (State × Validator) :=
  if delegation.delegatorAddr = validator.operatorAddr ∧ validator.jailed = false then do
    let s ← s.jailValidator validator
    return (s, ← s.mustGetValidator validator.operatorAddr)
  else .ok (s, validator)

/-- Part of `unbond` that stores the delegation with its remaining shares, or removes it when
there are none. -/
def storeRemainder (delegation : Delegation) (validator : Validator) :
    Outcome (State × Validator) :=
  if delegation.shares.isZero then do
    let (s, validator) ← s.jailLeavingOperator delegation validator
    return (← s.removeDelegation hooks delegation, validator)
  else .ok (s.setDelegation { delegation with height := s.height }, validator)

/-- End of `unbond`: an unbonded validator without shares is removed. -/
def removeIfEmpty (validator : Validator) : Outcome State :=
  if validator.delegatorShares.isZero = true ∧ validator.status = .unbonded then
    s.removeValidator env hooks validator.operatorAddr
  else .ok s

def unbond (delAddr valAddr : Address) (shares : Dec) : Outcome (State × Dec) := do
  let delegation ← found (s.getDelegation delAddr valAddr) .errNoDelegatorForAddress
  let s ← hooks.onDelegationSharesModified s delAddr valAddr
  require (shares ≤ delegation.shares) .errNotEnoughDelegationShares
  let validator ← found (s.getValidator valAddr) .errNoValidatorFound
  let remainder ← delegation.shares.sub shares
  let (s, validator) ← s.storeRemainder hooks { delegation with shares := remainder } validator
  let (s, validator, amount) ← s.removeValidatorTokensAndShares validator shares
  return (← s.removeIfEmpty env hooks validator, amount)

def beginUnbonding (delAddr valAddr : Address) (sharesAmount : Dec) : Outcome State := do
  require (s.getUnbondingDelegation delAddr valAddr).isNone .errExistingUnbondingDelegation
  let (s, returnAmount) ← s.unbond env hooks delAddr valAddr sharesAmount
  let rounded ← returnAmount.truncateInt
  let balance ← Coin.newCoin stakeDenom rounded
  let ubd : UnbondingDelegation :=
    { delegatorAddr := delAddr
      validatorAddr := valAddr
      creationHeight := s.height
      minTime := s.blockTime + s.stake.params.unbondingTime
      balance := balance
      initialBalance := balance }
  return (s.setUnbondingDelegation ubd).insertUnbondingQueue ubd

def completeUnbonding (delAddr valAddr : Address) : Outcome State := do
  let ubd ← found (s.getUnbondingDelegation delAddr valAddr) .errNoUnbondingDelegation
  let bank ← s.bank.addCoins ubd.delegatorAddr [ubd.balance]
  return { s with bank := bank }.removeUnbondingDelegation ubd

def beginRedelegation (delAddr valSrcAddr valDstAddr : Address) (sharesAmount : Dec) :
    Outcome State := do
  require (valSrcAddr ≠ valDstAddr) .errSelfRedelegation
  require (s.getRedelegation delAddr valSrcAddr valDstAddr).isNone .errConflictingRedelegation
  require (!s.hasReceivingRedelegation delAddr valSrcAddr) .errTransitiveRedelegation
  let (s, returnAmount) ← s.unbond env hooks delAddr valSrcAddr sharesAmount
  let rounded ← returnAmount.truncateInt
  let returnCoin ← Coin.newCoin stakeDenom rounded
  let dstValidator ← found (s.getValidator valDstAddr) .errBadRedelegationDst
  let (s, sharesCreated) ← s.delegate hooks delAddr returnCoin dstValidator false
  let red : Redelegation :=
    { delegatorAddr := delAddr
      validatorSrcAddr := valSrcAddr
      validatorDstAddr := valDstAddr
      creationHeight := s.height
      minTime := s.blockTime + s.stake.params.unbondingTime
      sharesDst := sharesCreated
      sharesSrc := sharesAmount
      balance := returnCoin
      initialBalance := returnCoin }
  return (s.setRedelegation red).insertRedelegationQueue red

def completeRedelegation (delAddr valSrcAddr valDstAddr : Address) : Outcome State := do
  let red ← found (s.getRedelegation delAddr valSrcAddr valDstAddr) .errNoRedelegation
  require (red.minTime ≤ s.blockTime) .errNotMature
  return s.removeRedelegation red

end State
end Irishub.Stake
