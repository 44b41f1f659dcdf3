import Irishub.Stake.Keeper

/-!
# Stake: message handlers

`stake/handler.go`, each handler after the `ValidateBasic` of its message.
-/

namespace Irishub.Stake
open Lib

namespace State
variable (env : Env) (hooks : Hooks) (s : State)

def pubKeyTypeSupported (pubKey : PubKey) : Bool :=
  match env.pubKeyTypes with
  | none => true
  | some types => types.contains pubKey.keyType

def setValidatorByConsAddr (validator : Validator) : State :=
  { s with stake := { s.stake with
      validatorsByConsAddr := s.stake.validatorsByConsAddr.set
        (env.consAddress validator.consPubKey) validator.operatorAddr } }

def handleMsgCreateValidator (msg : MsgCreateValidator) : Outcome State := do
  require (s.getValidator msg.validatorAddr).isNone .errValidatorOwnerExists
  require (s.getValidatorByConsAddr (env.consAddress msg.pubKey)).isNone .errValidatorPubKeyExists
  require (pubKeyTypeSupported env msg.pubKey) .errValidatorPubKeyTypeUnsupported
  let rate ← deref msg.commission.rate .nilPointer
  let validator ← (newValidator msg.validatorAddr msg.pubKey msg.description).setInitialCommission
    ⟨rate, .one, .one, s.blockTime⟩
  let s ← ((s.setValidator validator).setValidatorByConsAddr env
    validator).setNewValidatorByPowerIndex validator
  let s ← hooks.onValidatorCreated s validator.operatorAddr
  let (s, _) ← s.delegate hooks msg.delegatorAddr msg.delegation validator true
  return s

/-- Commission and the hook of `handleMsgEditValidator`. -/
def editCommission (validator : Validator) (commissionRate : Option Dec) :
    Outcome (State × Validator) :=
  match commissionRate with
  | none => .ok (s, validator)
  | some rate => do
    let commission ← s.updateValidatorCommission validator rate
    let s ← hooks.onValidatorModified s validator.operatorAddr
    return (s, { validator with commission := commission })

def handleMsgEditValidator (msg : MsgEditValidator) : Outcome State := do
  let validator ← found (s.getValidator msg.validatorAddr) .errNoValidatorFound
  let description ← validator.description.updateDescription msg.description
  let (s, validator) ←
    s.editCommission hooks { validator with description := description } msg.commissionRate
  return s.setValidator validator

def handleMsgDelegate (msg : MsgDelegate) : Outcome State := do
  let validator ← found (s.getValidator msg.validatorAddr) .errNoValidatorFound
  require (!validator.jailed || validator.operatorAddr = msg.delegatorAddr) .errValidatorJailed
  let (s, _) ← s.delegate hooks msg.delegatorAddr msg.delegation validator true
  return s

def handleMsgBeginUnbonding (msg : MsgBeginUnbonding) : Outcome State :=
  s.beginUnbonding env hooks msg.delegatorAddr msg.validatorAddr msg.sharesAmount

def handleMsgBeginRedelegate (msg : MsgBeginRedelegate) : Outcome State :=
  s.beginRedelegation env hooks msg.delegatorAddr msg.validatorSrcAddr msg.validatorDstAddr
    msg.sharesAmount

end State
end Irishub.Stake
