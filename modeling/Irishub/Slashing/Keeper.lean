import Irishub.Stake.Keeper

/-!
# Slashing: hooks and unjailing

The hooks of `slashing/hooks.go` and the unjail message of `slashing/handler.go`.
-/

namespace Irishub.Stake
open Lib

namespace State
variable (env : Env) (s : State)

def setValidatorSigningInfo (address : Address) (info : ValidatorSigningInfo) : State :=
  { s with slashing := { s.slashing with
      signingInfos := s.slashing.signingInfos.set address info } }

/-- `GetValidatorSlashingPeriodKey`. -/
def slashingPeriodKey (address : Address) (startHeight : ℤ) : Address ×ₗ ℕ :=
  toLex (address, uint64OfInt64 (startHeight + validatorUpdateDelay))

/-- `SetValidatorSlashingPeriod`, by the key of the period. -/
def setValidatorSlashingPeriod (key : Address ×ₗ ℕ) (value : SlashingPeriodValue) : State :=
  { s with slashing := { s.slashing with
      slashingPeriods := s.slashing.slashingPeriods.set key value } }

/-- `getValidatorSlashingPeriodForHeight`: the newest period that starts at or before `height`,
with its key. -/
def getValidatorSlashingPeriodForHeight (address : Address) (height : ℤ) :
    Outcome ((Address ×ₗ ℕ) × SlashingPeriodValue) :=
  let candidates := s.slashing.slashingPeriods.entries.filter
    (fun e => (ofLex e.1).1 = address && e.1 ≤ slashingPeriodKey address height)
  deref candidates.getLast? .noSlashingPeriod

/-- `onValidatorBonded`. -/
def slashingValidatorBonded (address : Address) : State :=
  let s :=
    if (s.slashing.signingInfos.get address).isSome then s
    else s.setValidatorSigningInfo address ⟨s.height, 0, 0, 0⟩
  s.setValidatorSlashingPeriod (slashingPeriodKey address s.height) ⟨0, .zero⟩

/-- `onValidatorBeginUnbonding`. -/
def slashingValidatorBeginUnbonding (address : Address) : Outcome State := do
  let (key, period) ← s.getValidatorSlashingPeriodForHeight address s.height
  return s.setValidatorSlashingPeriod key { period with endHeight := s.height }

/-- `onValidatorCreated`. -/
def slashingValidatorCreated (valAddr : Address) : Outcome State := do
  let validator ← deref (s.getValidator valAddr) .nilPointer
  return { s with slashing := { s.slashing with
    addrPubkeys := s.slashing.addrPubkeys.set (env.consAddress validator.consPubKey)
      validator.consPubKey } }

/-- `onValidatorRemoved`. -/
def slashingValidatorRemoved (address : Address) : State :=
  { s with slashing := { s.slashing with
      addrPubkeys := s.slashing.addrPubkeys.delete address } }

def handleMsgUnjail (validatorAddr : Address) : Outcome State := do
  let validator ← found (s.getValidator validatorAddr) .errNoValidatorForAddress
  require (s.getDelegation validatorAddr validatorAddr).isSome .errMissingSelfDelegation
  require validator.jailed .errValidatorNotJailed
  let consAddr := env.consAddress validator.consPubKey
  let info ← found (s.slashing.signingInfos.get consAddr) .errNoValidatorForAddress
  require (info.jailedUntil ≤ s.blockTime) .errValidatorJailed
  s.unjail consAddr

end State

/-- `slashing/hooks.go`. -/
def slashingHooks (env : Env) : Hooks := { noHooks with
  onValidatorCreated := fun s valAddr => s.slashingValidatorCreated env valAddr
  onValidatorRemoved := fun s consAddr _ => .ok (s.slashingValidatorRemoved consAddr)
  onValidatorBonded := fun s consAddr _ => .ok (s.slashingValidatorBonded consAddr)
  onValidatorBeginUnbonding := fun s consAddr _ => s.slashingValidatorBeginUnbonding consAddr }

end Irishub.Stake
