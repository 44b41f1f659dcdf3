import Irishub.Stake.Keeper

/-!
# Stake: the validator set

`stake/keeper/val_state_change.go`, the validator queue of
`stake/keeper/validator.go`, and the end blocker of `stake/abci.go`.
-/

namespace Irishub.Stake
open Lib

structure ValidatorUpdate where
  pubKey : PubKey
  power : ℤ
  deriving DecidableEq

namespace State
variable (env : Env) (hooks : Hooks) (s : State)

def bondValidator (validator : Validator) : Outcome (State × Validator) := do
  let pool := s.getPool
  let s ← s.deleteValidatorByPowerIndex validator
  let (validator, pool) ← { validator with bondHeight := s.height }.updateStatus pool .bonded
  let s ← ((s.setPool pool).setValidator validator).setValidatorByPowerIndex validator
  let s ← hooks.onValidatorBonded (s.deleteValidatorQueue validator)
    (env.consAddress validator.consPubKey) validator.operatorAddr
  return (s, validator)

def beginUnbondingValidator (validator : Validator) : Outcome State := do
  let pool := s.getPool
  let s ← s.deleteValidatorByPowerIndex validator
  assert (validator.status = .bonded) .badStateTransition
  let (validator, pool) ← validator.updateStatus pool .unbonding
  let validator := { validator with
    unbondingMinTime := s.blockTime + s.stake.params.unbondingTime
    unbondingHeight := s.height }
  let s ← ((s.setPool pool).setValidator validator).setValidatorByPowerIndex validator
  hooks.onValidatorBeginUnbonding (s.insertValidatorQueue validator)
    (env.consAddress validator.consPubKey) validator.operatorAddr

def completeUnbondingValidator (validator : Validator) : Outcome State := do
  let (validator, pool) ← validator.updateStatus s.getPool .unbonded
  return (s.setPool pool).setValidator validator

def unbondedToBonded (validator : Validator) : Outcome (State × Validator) := do
  assert (validator.status = .unbonded) .badStateTransition
  s.bondValidator env hooks validator

def unbondingToBonded (validator : Validator) : Outcome (State × Validator) := do
  assert (validator.status = .unbonding) .badStateTransition
  s.bondValidator env hooks validator

def bondedToUnbonding (validator : Validator) : Outcome State := do
  assert (validator.status = .bonded) .badStateTransition
  s.beginUnbondingValidator env hooks validator

def unbondingToUnbonded (validator : Validator) : Outcome State := do
  assert (validator.status = .unbonding) .badStateTransition
  s.completeUnbondingValidator validator

def toBonded (validator : Validator) : Outcome (State × Validator) :=
  match validator.status with
  | .unbonded => s.unbondedToBonded env hooks validator
  | .unbonding => s.unbondingToBonded env hooks validator
  | .bonded => .ok (s, validator)

/-- Variables of the first loop of `ApplyAndReturnValidatorSetUpdates`: `last` are the last
powers of the validators not met so far. -/
structure UpdateLoop where
  state : State
  last : Store Address ℤ
  count : ℕ
  totalPower : ℤ
  updates : List ValidatorUpdate

/-- Update of the last power in the first loop: nothing when the power is unchanged. -/
def UpdateLoop.updatePower (l : UpdateLoop) (validator : Validator) (newPower : ℤ) :
    Outcome UpdateLoop :=
  if l.last.get validator.operatorAddr = some newPower then .ok l
  else do
    let s ← hooks.onValidatorPowerDidChange l.state (env.consAddress validator.consPubKey)
      validator.operatorAddr
    return { l with
      state := s.setLastValidatorPower validator.operatorAddr newPower
      updates := l.updates ++ [⟨validator.consPubKey, newPower⟩] }

/-- Body of the first loop for a validator that has power. -/
def UpdateLoop.keep (l : UpdateLoop) (validator : Validator) : Outcome UpdateLoop := do
  let (s, validator) ← l.state.toBonded env hooks validator
  let newPower ← validator.getPower.roundInt64
  let l ← { l with state := s }.updatePower env hooks validator newPower
  let totalPower ← SdkInt.add l.totalPower newPower
  return { l with
    last := l.last.delete validator.operatorAddr
    count := l.count + 1
    totalPower := totalPower }

/-- First loop, over the addresses of the power index from the highest power down. -/
def UpdateLoop.run (maxValidators : ℕ) : List Address → UpdateLoop → Outcome UpdateLoop
  | [], l => .ok l
  | valAddr :: addrs, l =>
    if l.count < maxValidators then do
      let validator ← l.state.mustGetValidator valAddr
      assert (!validator.jailed) .jailedInPowerStore
      let potentialPower ← validator.getPotentialPower.roundInt64
      -- the first validator without power ends the loop
      if potentialPower = 0 then return l
      else
        let l ← l.keep env hooks validator
        UpdateLoop.run maxValidators addrs l
    else .ok l

/-- One iteration of the second loop, over the validators that are no longer bonded. -/
def dropValidator (acc : State × List ValidatorUpdate) (valAddr : Address) :
    Outcome (State × List ValidatorUpdate) := do
  let validator ← acc.1.mustGetValidator valAddr
  let s ← acc.1.bondedToUnbonding env hooks validator
  return (s.deleteLastValidatorPower valAddr, acc.2 ++ [⟨validator.consPubKey, 0⟩])

def applyAndReturnValidatorSetUpdates : Outcome (State × List ValidatorUpdate) := do
  let l ← UpdateLoop.run env hooks s.stake.params.maxValidators
    s.stake.validatorsByPowerIndex.values.reverse
    { state := s, last := s.stake.lastValidatorPowers, count := 0, totalPower := 0, updates := [] }
  let noLongerBonded := l.last.entries.map Prod.fst
  let (s, updates) ← noLongerBonded.foldlM (dropValidator env hooks) (l.state, l.updates)
  return (if updates = [] then s else s.setLastTotalPower l.totalPower, updates)

/-- One address of a mature time slice in `UnbondAllMatureValidatorQueue`. -/
def unbondMature (valAddr : Address) : Outcome State :=
  match s.getValidator valAddr with
  | none => .ok s
  | some val => do
    assert (val.status = .unbonding) .unexpectedInValidatorQueue
    let s ← s.unbondingToUnbonded val
    if val.delegatorShares.isZero then s.removeValidator env hooks val.operatorAddr
    else return s

/-- One mature time slice in `UnbondAllMatureValidatorQueue`. -/
def unbondTimeSlice (slice : ℤ × List Address) : Outcome State := do
  let s ← slice.2.foldlM (fun s valAddr => s.unbondMature env hooks valAddr) s
  return { s with stake := { s.stake with
    validatorQueue := s.stake.validatorQueue.delete slice.1 } }

def unbondAllMatureValidatorQueue : Outcome State :=
  (s.stake.validatorQueue.entries.filter (fun e => e.1 ≤ s.blockTime)).foldlM
    (fun s slice => s.unbondTimeSlice env hooks slice) s

/-- `DequeueAllMatureUnbondingQueue`: the pairs, and the state without their time slices. -/
def dequeueAllMatureUnbondingQueue : List DVPair × State :=
  let mature := s.stake.unbondingQueue.entries.filter (fun e => e.1 ≤ s.blockTime)
  (mature.flatMap Prod.snd,
    { s with stake := { s.stake with
        unbondingQueue := mature.foldl (fun q e => q.delete e.1) s.stake.unbondingQueue } })

def dequeueAllMatureRedelegationQueue : List DVVTriplet × State :=
  let mature := s.stake.redelegationQueue.entries.filter (fun e => e.1 ≤ s.blockTime)
  (mature.flatMap Prod.snd,
    { s with stake := { s.stake with
        redelegationQueue := mature.foldl (fun q e => q.delete e.1) s.stake.redelegationQueue } })

def skipError (r : Outcome State) : Outcome State :=
  match r with
  | .error (.error _) => .ok s
  | r => r

def endBlocker : Outcome (State × List ValidatorUpdate) := do
  let (s, validatorUpdates) ← s.applyAndReturnValidatorSetUpdates env hooks
  let s ← s.unbondAllMatureValidatorQueue env hooks
  let (matureUnbonds, s) := s.dequeueAllMatureUnbondingQueue
  let s ← matureUnbonds.foldlM (fun s dvPair =>
    s.skipError (s.completeUnbonding dvPair.delegatorAddr dvPair.validatorAddr)) s
  let (matureRedelegations, s) := s.dequeueAllMatureRedelegationQueue
  let s ← matureRedelegations.foldlM (fun s dvvTriplet =>
    s.skipError (s.completeRedelegation dvvTriplet.delegatorAddr dvvTriplet.validatorSrcAddr
      dvvTriplet.validatorDstAddr)) s
  return (s, validatorUpdates)

end State
end Irishub.Stake
