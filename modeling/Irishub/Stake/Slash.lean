import Irishub.Stake.Keeper

/-!
# Stake: slashing

`stake/keeper/slash.go`. A slash for an infraction at a past height goes first
through the unbonding delegations and redelegations that have left the validator
since, and takes what remains from the validator itself.
-/

namespace Irishub.Stake
open Lib

namespace State
variable (env : Env) (hooks : Hooks) (s : State)

/-- Update of an unbonding delegation in `slashUnbondingDelegation`. -/
def burnUnbonding (unbondingDelegation : UnbondingDelegation) (unbondingSlashAmount : ℤ) :
    Outcome State :=
  if unbondingSlashAmount = 0 then .ok s
  else do
    let amount ← SdkInt.sub unbondingDelegation.balance.amount unbondingSlashAmount
    let s := s.setUnbondingDelegation
      { unbondingDelegation with balance := ⟨unbondingDelegation.balance.denom, amount⟩ }
    let coin ← Coin.newCoin stakeDenom unbondingSlashAmount
    s.decreaseLoosenToken [coin]

def slashUnbondingDelegation (unbondingDelegation : UnbondingDelegation) (infractionHeight : ℤ)
    (slashFactor : Dec) : Outcome (State × Dec) :=
  if unbondingDelegation.creationHeight < infractionHeight then .ok (s, .zero)
  else if unbondingDelegation.minTime < s.blockTime then .ok (s, .zero)
  else do
    let slashAmount ← slashFactor.mulInt unbondingDelegation.initialBalance.amount
    let rounded ← slashAmount.roundInt
    let s ← s.burnUnbonding unbondingDelegation (min rounded unbondingDelegation.balance.amount)
    return (s, slashAmount)

/-- Update of a redelegation in `slashRedelegation`. -/
def burnRedelegation (redelegation : Redelegation) (redelegationSlashAmount : ℤ) : Outcome State :=
  if redelegationSlashAmount = 0 then .ok s
  else do
    let amount ← SdkInt.sub redelegation.balance.amount redelegationSlashAmount
    return s.setRedelegation
      { redelegation with balance := ⟨redelegation.balance.denom, amount⟩ }

/-- Unbonding from the target validator in `slashRedelegation`. -/
def unbondTarget (redelegation : Redelegation) (sharesToUnbond : Dec) : Outcome State :=
  if sharesToUnbond.isZero then .ok s
  else
    match s.getDelegation redelegation.delegatorAddr redelegation.validatorDstAddr with
    | none => .ok s
    | some delegation => do
      let (s, tokensToBurn) ← panicOnError (s.unbond env hooks redelegation.delegatorAddr
        redelegation.validatorDstAddr (Dec.minDec sharesToUnbond delegation.shares))
      let amount ← tokensToBurn.truncateInt
      let coin ← Coin.newCoin stakeDenom amount
      s.decreaseLoosenToken [coin]

def slashRedelegation (redelegation : Redelegation) (infractionHeight : ℤ)
    (slashFactor : Dec) : Outcome (State × Dec) :=
  if redelegation.creationHeight < infractionHeight then .ok (s, .zero)
  else if redelegation.minTime < s.blockTime then .ok (s, .zero)
  else do
    let slashAmount ← slashFactor.mulInt redelegation.initialBalance.amount
    let rounded ← slashAmount.roundInt
    let s ← s.burnRedelegation redelegation (min rounded redelegation.balance.amount)
    let sharesToUnbond ← slashFactor.mul redelegation.sharesDst
    let s ← s.unbondTarget env hooks redelegation sharesToUnbond
    return (s, slashAmount)

/-- Remaining slash amount after `amountSlashed` has been taken elsewhere. -/
def deduct (remainingSlashAmount amountSlashed : Dec) : Outcome Dec :=
  if amountSlashed.isZero then .ok remainingSlashAmount else remainingSlashAmount.sub amountSlashed

/-- Loop of `Slash` over unbonding delegations. -/
def slashUnbondingDelegations (unbondingDelegations : List UnbondingDelegation)
    (infractionHeight : ℤ) (slashFactor remainingSlashAmount : Dec) : Outcome (State × Dec) :=
  unbondingDelegations.foldlM (fun (acc : State × Dec) unbondingDelegation => do
    let (s, amountSlashed) ←
      acc.1.slashUnbondingDelegation unbondingDelegation infractionHeight slashFactor
    return (s, ← deduct acc.2 amountSlashed)) (s, remainingSlashAmount)

/-- Loop of `Slash` over redelegations. -/
def slashRedelegations (redelegations : List Redelegation) (infractionHeight : ℤ)
    (slashFactor remainingSlashAmount : Dec) : Outcome (State × Dec) :=
  redelegations.foldlM (fun (acc : State × Dec) redelegation => do
    let (s, amountSlashed) ←
      acc.1.slashRedelegation env hooks redelegation infractionHeight slashFactor
    return (s, ← deduct acc.2 amountSlashed)) (s, remainingSlashAmount)

/-- Switch of `Slash` over the infraction height. -/
def slashStakeSince (operatorAddress : Address) (infractionHeight : ℤ)
    (slashFactor slashAmount : Dec) : Outcome (State × Dec) :=
  if s.height < infractionHeight then raise .slashFutureInfraction
  else if infractionHeight = s.height then .ok (s, slashAmount)
  else do
    let (s, remaining) ← s.slashUnbondingDelegations
      (s.getUnbondingDelegationsFromValidator operatorAddress) infractionHeight slashFactor
      slashAmount
    s.slashRedelegations env hooks (s.getRedelegationsFromValidator operatorAddress)
      infractionHeight slashFactor remaining

/-- End of `Slash`: the tokens that leave the pool are whole and are not loose any more. -/
def burnSlashed (tokensToBurn : Dec) : Outcome State := do
  let truncated ← tokensToBurn.truncateDec
  let fraction ← tokensToBurn.sub truncated
  assert fraction.isZero .slashDecimalToken
  let amount ← tokensToBurn.truncateInt
  let coin ← Coin.newCoin stakeDenom amount
  s.decreaseLoosenToken [coin]

/-- `Slash` after the validator has been found. -/
def slashValidator (validator : Validator) (infractionHeight : ℤ)
    (slashFactor slashAmount : Dec) : Outcome State := do
  assert (validator.status ≠ .unbonded) .slashUnbondedValidator
  let s ← hooks.onValidatorModified s validator.operatorAddr
  let (s, remaining) ←
    s.slashStakeSince env hooks validator.operatorAddr infractionHeight slashFactor slashAmount
  let tokensToBurn := Dec.maxDec (Dec.minDec remaining validator.tokens) .zero
  let (s, _) ← s.removeValidatorTokens validator tokensToBurn
  s.burnSlashed tokensToBurn

def slash (consAddr : Address) (infractionHeight power : ℤ) (slashFactor : Dec) :
    Outcome State := do
  assert (Dec.zero ≤ slashFactor) .negativeSlashFactor
  let product ← (Dec.newDecFromInt power).mul slashFactor
  let scaled ← product.mulInt attoScaleFactor
  let slashAmount ← scaled.truncateDec
  match s.getValidatorByConsAddr consAddr with
  | none => return s
  | some validator => s.slashValidator env hooks validator infractionHeight slashFactor slashAmount

end State
end Irishub.Stake
