import Irishub.Distribution.Types
import Irishub.Stake.Types

/-!
# Stake: the stores

The state read and written by the stake, distribution and slashing keepers, and
the hooks through which stake calls the two others.

A store of the source that is keyed by addresses, times or powers is a `Store`
with those keys; byte order of the keys is the order here. The two secondary
indexes of unbonding delegations and redelegations are written together with the
records they index, so iterating them is filtering the records.
-/

namespace Irishub.Stake
open Lib

/-- Parameters of the stake module. -/
structure Params where
  unbondingTime : ℤ
  maxValidators : ℕ
  deriving DecidableEq

abbrev DVKey := Address ×ₗ Address

abbrev DVVKey := Address ×ₗ Address ×ₗ Address

/-- Key of the power index: the power as a `uint64`, then the inverted operator address. -/
abbrev PowerRank := ℕ ×ₗ ℤ

/-- Store of the stake keeper. -/
structure StakeStore where
  params : Params
  bondedTokens : Dec
  lastTotalPower : ℤ
  lastValidatorPowers : Store Address ℤ
  validators : Store Address ValidatorValue
  validatorsByConsAddr : Store Address Address
  validatorsByPowerIndex : Store PowerRank Address
  delegations : Store DVKey DelegationValue
  unbondingDelegations : Store DVKey UbdValue
  redelegations : Store DVVKey RedValue
  unbondingQueue : Store ℤ (List DVPair)
  redelegationQueue : Store ℤ (List DVVTriplet)
  validatorQueue : Store ℤ (List Address)

/-- Store of the distribution keeper, with its parameters. -/
structure DistrStore where
  feePool : Distribution.FeePool
  validatorDistInfos : Store Address Distribution.ValidatorDistInfo
  delegationDistInfos : Store DVKey Distribution.DelegationDistInfo
  delegatorWithdrawAddrs : Store Address Address
  communityTax : Dec
  baseProposerReward : Dec
  bonusProposerReward : Dec

structure ValidatorSigningInfo where
  startHeight : ℤ
  indexOffset : ℤ
  jailedUntil : ℤ
  missedBlocksCounter : ℤ
  deriving DecidableEq

/-- `ValidatorSlashingPeriodValue`. -/
structure SlashingPeriodValue where
  endHeight : ℤ
  slashedSoFar : Dec
  deriving DecidableEq

/-- Store of the slashing keeper. The key of a slashing period is the consensus address and
its start height, moved by `ValidatorUpdateDelay`, as a `uint64`. -/
structure SlashingStore where
  signingInfos : Store Address ValidatorSigningInfo
  slashingPeriods : Store (Address ×ₗ ℕ) SlashingPeriodValue
  addrPubkeys : Store Address PubKey

structure State where
  bank : Bank
  collectedFees : Coins
  stake : StakeStore
  distr : DistrStore
  slashing : SlashingStore
  height : ℤ
  blockTime : ℤ

/-- What the keepers read besides the state: the address of a consensus key, and the key types
of the consensus parameters, if these are set. -/
structure Env where
  consAddress : PubKey → Address
  pubKeyTypes : Option (List String)

/-- `sdk.StakingHooks`. -/
structure Hooks where
  onValidatorCreated : State → Address → Outcome State
  onValidatorModified : State → Address → Outcome State
  onValidatorRemoved : State → (consAddr valAddr : Address) → Outcome State
  onValidatorBonded : State → (consAddr valAddr : Address) → Outcome State
  onValidatorPowerDidChange : State → (consAddr valAddr : Address) → Outcome State
  onValidatorBeginUnbonding : State → (consAddr valAddr : Address) → Outcome State
  onDelegationCreated : State → (delAddr valAddr : Address) → Outcome State
  onDelegationSharesModified : State → (delAddr valAddr : Address) → Outcome State
  onDelegationRemoved : State → (delAddr valAddr : Address) → Outcome State

/-- A keeper whose hooks are nil. -/
def noHooks : Hooks where
  onValidatorCreated s _ := .ok s
  onValidatorModified s _ := .ok s
  onValidatorRemoved s _ _ := .ok s
  onValidatorBonded s _ _ := .ok s
  onValidatorPowerDidChange s _ _ := .ok s
  onValidatorBeginUnbonding s _ _ := .ok s
  onDelegationCreated s _ _ := .ok s
  onDelegationSharesModified s _ _ := .ok s
  onDelegationRemoved s _ _ := .ok s

/-- The `uint64` with the bits of an `int64`. -/
def uint64OfInt64 (i : ℤ) : ℕ := (i % 2 ^ 64).toNat

namespace State
variable (s : State)

def getPool : Pool := ⟨s.stake.bondedTokens, s.bank⟩

/-- `SetPool`; the bank of the handle is the bank the handle has written to. -/
def setPool (pool : Pool) : State :=
  { s with bank := pool.bank, stake := { s.stake with bondedTokens := pool.bondedTokens } }

def getLastValidatorPower (operator : Address) : ℤ :=
  (s.stake.lastValidatorPowers.get operator).getD 0

def setLastValidatorPower (operator : Address) (power : ℤ) : State :=
  { s with stake := { s.stake with
      lastValidatorPowers := s.stake.lastValidatorPowers.set operator power } }

def deleteLastValidatorPower (operator : Address) : State :=
  { s with stake := { s.stake with
      lastValidatorPowers := s.stake.lastValidatorPowers.delete operator } }

def setLastTotalPower (power : ℤ) : State :=
  { s with stake := { s.stake with lastTotalPower := power } }

def getValidator (addr : Address) : Option Validator :=
  (s.stake.validators.get addr).map (fun value => { value with operatorAddr := addr })

def mustGetValidator (addr : Address) : Outcome Validator :=
  deref (s.getValidator addr) .validatorRecordNotFound

def getValidatorByConsAddr (consAddr : Address) : Option Validator :=
  (s.stake.validatorsByConsAddr.get consAddr).bind s.getValidator

def mustGetValidatorByConsAddr (consAddr : Address) : Outcome Validator :=
  deref (s.getValidatorByConsAddr consAddr) .validatorRecordNotFound

def setValidator (validator : Validator) : State :=
  { s with stake := { s.stake with
      validators := s.stake.validators.set validator.operatorAddr validator.toValidatorValue } }

def getValidatorPowerRank (validator : Validator) : Outcome PowerRank := do
  let tendermintPower ← validator.getPotentialPower.roundInt64
  return toLex (uint64OfInt64 tendermintPower, 2 ^ 160 - 1 - validator.operatorAddr)

def setValidatorByPowerIndex (validator : Validator) : Outcome State :=
  if validator.jailed then .ok s
  else do
    let key ← getValidatorPowerRank validator
    return { s with stake := { s.stake with
      validatorsByPowerIndex := s.stake.validatorsByPowerIndex.set key validator.operatorAddr } }

def setNewValidatorByPowerIndex (validator : Validator) : Outcome State := do
  let key ← getValidatorPowerRank validator
  return { s with stake := { s.stake with
    validatorsByPowerIndex := s.stake.validatorsByPowerIndex.set key validator.operatorAddr } }

def deleteValidatorByPowerIndex (validator : Validator) : Outcome State := do
  let key ← getValidatorPowerRank validator
  return { s with stake := { s.stake with
    validatorsByPowerIndex := s.stake.validatorsByPowerIndex.delete key } }

def insertValidatorQueue (val : Validator) : State :=
  let timeSlice := (s.stake.validatorQueue.get val.unbondingMinTime).getD []
  { s with stake := { s.stake with
      validatorQueue :=
        s.stake.validatorQueue.set val.unbondingMinTime (timeSlice ++ [val.operatorAddr]) } }

def deleteValidatorQueue (val : Validator) : State :=
  let timeSlice := (s.stake.validatorQueue.get val.unbondingMinTime).getD []
  let newTimeSlice := timeSlice.filter (fun addr => addr ≠ val.operatorAddr)
  { s with stake := { s.stake with
      validatorQueue :=
        if newTimeSlice = [] then s.stake.validatorQueue.delete val.unbondingMinTime
        else s.stake.validatorQueue.set val.unbondingMinTime newTimeSlice } }

section

def getDelegation (delAddr valAddr : Address) : Option Delegation :=
  (s.stake.delegations.get (toLex (delAddr, valAddr))).map
    (fun value => { value with delegatorAddr := delAddr, validatorAddr := valAddr })

def setDelegation (delegation : Delegation) : State :=
  { s with stake := { s.stake with
      delegations := s.stake.delegations.set
        (toLex (delegation.delegatorAddr, delegation.validatorAddr))
        delegation.toDelegationValue } }

def allDelegations : List Delegation :=
  s.stake.delegations.entries.map (fun e =>
    { e.2 with delegatorAddr := (ofLex e.1).1, validatorAddr := (ofLex e.1).2 })

def getValidatorDelegations (valAddr : Address) : List Delegation :=
  s.allDelegations.filter (fun delegation => delegation.validatorAddr = valAddr)

/-- Delegations visited by `IterateDelegations`. -/
def delegatorDelegations (delAddr : Address) : List Delegation :=
  s.allDelegations.filter (fun delegation => delegation.delegatorAddr = delAddr)

def getUnbondingDelegation (delAddr valAddr : Address) : Option UnbondingDelegation :=
  (s.stake.unbondingDelegations.get (toLex (delAddr, valAddr))).map
    (fun value => { value with delegatorAddr := delAddr, validatorAddr := valAddr })

def setUnbondingDelegation (ubd : UnbondingDelegation) : State :=
  { s with stake := { s.stake with
      unbondingDelegations := s.stake.unbondingDelegations.set
        (toLex (ubd.delegatorAddr, ubd.validatorAddr)) ubd.toUbdValue } }

def removeUnbondingDelegation (ubd : UnbondingDelegation) : State :=
  { s with stake := { s.stake with
      unbondingDelegations := s.stake.unbondingDelegations.delete
        (toLex (ubd.delegatorAddr, ubd.validatorAddr)) } }

def getUnbondingDelegationsFromValidator (valAddr : Address) : List UnbondingDelegation :=
  (s.stake.unbondingDelegations.entries.map (fun e =>
    { e.2 with delegatorAddr := (ofLex e.1).1, validatorAddr := (ofLex e.1).2 })).filter
      (fun ubd => ubd.validatorAddr = valAddr)

def insertUnbondingQueue (ubd : UnbondingDelegation) : State :=
  let timeSlice := (s.stake.unbondingQueue.get ubd.minTime).getD []
  { s with stake := { s.stake with
      unbondingQueue := s.stake.unbondingQueue.set ubd.minTime
        (timeSlice ++ [⟨ubd.delegatorAddr, ubd.validatorAddr⟩]) } }

def getRedelegation (delAddr valSrcAddr valDstAddr : Address) : Option Redelegation :=
  (s.stake.redelegations.get (toLex (delAddr, toLex (valSrcAddr, valDstAddr)))).map
    (fun value => { value with
      delegatorAddr := delAddr, validatorSrcAddr := valSrcAddr, validatorDstAddr := valDstAddr })

def allRedelegations : List Redelegation :=
  s.stake.redelegations.entries.map (fun e =>
    { e.2 with
      delegatorAddr := (ofLex e.1).1
      validatorSrcAddr := (ofLex (ofLex e.1).2).1
      validatorDstAddr := (ofLex (ofLex e.1).2).2 })

def getRedelegationsFromValidator (valAddr : Address) : List Redelegation :=
  s.allRedelegations.filter (fun red => red.validatorSrcAddr = valAddr)

def hasReceivingRedelegation (delAddr valDstAddr : Address) : Bool :=
  s.allRedelegations.any
    (fun red => red.delegatorAddr = delAddr && red.validatorDstAddr = valDstAddr)

def setRedelegation (red : Redelegation) : State :=
  { s with stake := { s.stake with
      redelegations := s.stake.redelegations.set
        (toLex (red.delegatorAddr, toLex (red.validatorSrcAddr, red.validatorDstAddr)))
        red.toRedValue } }

def removeRedelegation (red : Redelegation) : State :=
  { s with stake := { s.stake with
      redelegations := s.stake.redelegations.delete
        (toLex (red.delegatorAddr, toLex (red.validatorSrcAddr, red.validatorDstAddr))) } }

def insertRedelegationQueue (red : Redelegation) : State :=
  let timeSlice := (s.stake.redelegationQueue.get red.minTime).getD []
  { s with stake := { s.stake with
      redelegationQueue := s.stake.redelegationQueue.set red.minTime
        (timeSlice ++ [⟨red.delegatorAddr, red.validatorSrcAddr, red.validatorDstAddr⟩]) } }

end
end State
end Irishub.Stake
