import Irishub.Distribution.Keeper
import Irishub.Slashing.Keeper
import Irishub.Stake.Handler
import Irishub.Stake.Slash
import Irishub.Stake.ValSet

/-!
# Stake: runs

The operations of a chain that reach the stake and distribution keepers: the
messages, the calls made by the slashing module in a begin or end blocker, the
collection and allocation of fees, and the end of a block. A run starts from a
state without validators at height zero, in which the genesis transactions create
the first ones; an operation that fails leaves no trace.
-/

namespace Irishub.Stake
open Lib

/-- Hooks of the application: those of distribution, then those of slashing. -/
def appHooks (env : Env) : Hooks where
  onValidatorCreated s valAddr := do
    (slashingHooks env).onValidatorCreated (← distrHooks.onValidatorCreated s valAddr) valAddr
  onValidatorModified s valAddr := do
    (slashingHooks env).onValidatorModified (← distrHooks.onValidatorModified s valAddr) valAddr
  onValidatorRemoved s consAddr valAddr := do
    (slashingHooks env).onValidatorRemoved (← distrHooks.onValidatorRemoved s consAddr valAddr)
      consAddr valAddr
  onValidatorBonded s consAddr valAddr := do
    (slashingHooks env).onValidatorBonded (← distrHooks.onValidatorBonded s consAddr valAddr)
      consAddr valAddr
  onValidatorPowerDidChange s consAddr valAddr := do
    (slashingHooks env).onValidatorPowerDidChange
      (← distrHooks.onValidatorPowerDidChange s consAddr valAddr) consAddr valAddr
  onValidatorBeginUnbonding s consAddr valAddr := do
    (slashingHooks env).onValidatorBeginUnbonding
      (← distrHooks.onValidatorBeginUnbonding s consAddr valAddr) consAddr valAddr
  onDelegationCreated s delAddr valAddr := do
    (slashingHooks env).onDelegationCreated (← distrHooks.onDelegationCreated s delAddr valAddr)
      delAddr valAddr
  onDelegationSharesModified s delAddr valAddr := do
    (slashingHooks env).onDelegationSharesModified
      (← distrHooks.onDelegationSharesModified s delAddr valAddr) delAddr valAddr
  onDelegationRemoved s delAddr valAddr := do
    (slashingHooks env).onDelegationRemoved (← distrHooks.onDelegationRemoved s delAddr valAddr)
      delAddr valAddr

inductive Op
  | createValidator (msg : MsgCreateValidator)
  | editValidator (msg : MsgEditValidator)
  | delegate (msg : MsgDelegate)
  | beginUnbonding (msg : MsgBeginUnbonding)
  | beginRedelegate (msg : MsgBeginRedelegate)
  -- the slashing module
  | unjail (validatorAddr : Address)
  | jail (consAddr : Address)
  | slash (consAddr : Address) (infractionHeight power : ℤ) (slashFactor : Dec)
  | setSigningInfo (consAddr : Address) (info : ValidatorSigningInfo)
  -- the distribution module
  | setWithdrawAddress (delAddr withdrawAddr : Address)
  | withdrawDelegatorRewardsAll (delAddr : Address)
  | withdrawDelegatorReward (delAddr valAddr : Address)
  | withdrawValidatorRewardsAll (valAddr : Address)
  | collectFees (payer : Address) (fee : Coins)
  | allocateTokens (percentVotes : Dec) (proposer : Address)
  -- the end of a block; the next one has the given time
  | endBlock (nextTime : ℤ)
  deriving DecidableEq

def State.collectFees (s : State) (payer : Address) (fee : Coins) : Outcome State := do
  let bank ← s.bank.subtractCoins payer fee
  return { s with bank := bank, collectedFees := ← s.collectedFees.add fee }

def State.endBlock (env : Env) (hooks : Hooks) (s : State) (nextTime : ℤ) : Outcome State := do
  let (s, _) ← s.endBlocker env hooks
  return { s with height := s.height + 1, blockTime := nextTime }

/-- State after an operation. -/
def Op.run (env : Env) (hooks : Hooks) (s : State) : Op → Outcome State
  | createValidator msg => do
    msg.validateBasic
    s.handleMsgCreateValidator env hooks msg
  | editValidator msg => do
    msg.validateBasic
    s.handleMsgEditValidator hooks msg
  | delegate msg => do
    msg.validateBasic
    s.handleMsgDelegate hooks msg
  | beginUnbonding msg => do
    msg.validateBasic
    s.handleMsgBeginUnbonding env hooks msg
  | beginRedelegate msg => do
    msg.validateBasic
    s.handleMsgBeginRedelegate env hooks msg
  | unjail validatorAddr => s.handleMsgUnjail env validatorAddr
  | jail consAddr => s.jail consAddr
  | slash consAddr infractionHeight power slashFactor =>
    s.slash env hooks consAddr infractionHeight power slashFactor
  | setSigningInfo consAddr info => .ok (s.setValidatorSigningInfo consAddr info)
  | setWithdrawAddress delAddr withdrawAddr => .ok (s.setDelegatorWithdrawAddr delAddr withdrawAddr)
  | withdrawDelegatorRewardsAll delAddr => s.withdrawDelegationRewardsAllMsg delAddr
  | withdrawDelegatorReward delAddr valAddr => s.withdrawDelegationRewardMsg delAddr valAddr
  | withdrawValidatorRewardsAll valAddr => s.withdrawValidatorRewardsAll valAddr
  | collectFees payer fee => s.collectFees payer fee
  | allocateTokens percentVotes proposer => s.allocateTokens percentVotes proposer
  | endBlock nextTime => s.endBlock env hooks nextTime

def run (env : Env) (s : State) (ops : List Op) : Outcome State :=
  ops.foldlM (fun s op => op.run env (appHooks env) s) s

/-- State of a chain before its genesis transactions: nothing is staked. -/
structure State.Genesis (s : State) : Prop where
  height : s.height = 0
  bondedTokens : s.stake.bondedTokens = .zero
  lastTotalPower : s.stake.lastTotalPower = 0
  lastValidatorPowers : s.stake.lastValidatorPowers = Store.empty
  validators : s.stake.validators = Store.empty
  validatorsByConsAddr : s.stake.validatorsByConsAddr = Store.empty
  validatorsByPowerIndex : s.stake.validatorsByPowerIndex = Store.empty
  delegations : s.stake.delegations = Store.empty
  unbondingDelegations : s.stake.unbondingDelegations = Store.empty
  redelegations : s.stake.redelegations = Store.empty
  unbondingQueue : s.stake.unbondingQueue = Store.empty
  redelegationQueue : s.stake.redelegationQueue = Store.empty
  validatorQueue : s.stake.validatorQueue = Store.empty
  feePool : s.distr.feePool = Distribution.initialFeePool
  validatorDistInfos : s.distr.validatorDistInfos = Store.empty
  delegationDistInfos : s.distr.delegationDistInfos = Store.empty

def sampleEnv : Env where
  consAddress key := key.bytes
  pubKeyTypes := none

lemma sampleAccount_nonneg (amount : ℕ) : ∀ c ∈ ([⟨irisAtto, amount⟩] : Coins), 0 ≤ c.amount := by
  simp

def sampleAccount (amount : ℕ) : StoredCoins where
  coins := [⟨irisAtto, amount⟩]
  sorted := Coins.sorted_singleton ⟨irisAtto, amount⟩
  nonneg := sampleAccount_nonneg amount

/-- Accounts 1 and 2 hold all tokens; one second is the unbonding time. -/
def sampleGenesis : State where
  bank :=
    { accounts := (Store.empty.set 1 (sampleAccount (10 ^ 21))).set 2 (sampleAccount (10 ^ 21))
      totalLoosenToken := sampleAccount (2 * 10 ^ 21)
      totalSupply := Store.empty }
  collectedFees := []
  stake :=
    { params := ⟨10 ^ 9, 100⟩
      bondedTokens := .zero
      lastTotalPower := 0
      lastValidatorPowers := Store.empty
      validators := Store.empty
      validatorsByConsAddr := Store.empty
      validatorsByPowerIndex := Store.empty
      delegations := Store.empty
      unbondingDelegations := Store.empty
      redelegations := Store.empty
      unbondingQueue := Store.empty
      redelegationQueue := Store.empty
      validatorQueue := Store.empty }
  distr :=
    { feePool := Distribution.initialFeePool
      validatorDistInfos := Store.empty
      delegationDistInfos := Store.empty
      delegatorWithdrawAddrs := Store.empty
      communityTax := .zero
      baseProposerReward := .zero
      bonusProposerReward := .zero }
  slashing := ⟨Store.empty, Store.empty, Store.empty⟩
  height := 0
  blockTime := 0

lemma sampleGenesis_genesis : sampleGenesis.Genesis :=
  ⟨rfl, rfl, rfl, rfl, rfl, rfl, rfl, rfl, rfl, rfl, rfl, rfl, rfl, rfl, rfl, rfl⟩

def sampleCreation (operator amount : ℕ) : Op :=
  .createValidator
    { description := ⟨"validator", "", "", ""⟩
      commission := ⟨some .zero, none, none⟩
      delegatorAddr := operator
      validatorAddr := operator
      pubKey := ⟨"", operator⟩
      delegation := ⟨irisAtto, amount⟩ }

/-- Two validators are created and bonded. One is jailed, its operator delegates to the other,
which is then slashed, and the operator of the latter unbonds; the last block has the time at which
it is paid. -/
def sampleOps : List Op :=
  [sampleCreation 1 (10 ^ 20), sampleCreation 2 (5 * 10 ^ 19), .endBlock 0, .jail 2,
    .delegate ⟨2, 1, ⟨irisAtto, 3 * 10 ^ 19⟩⟩, .slash 1 1 100 ⟨10 ^ 9⟩,
    .beginUnbonding ⟨1, 1, ⟨3 * 10 ^ 29⟩⟩, .endBlock 10, .endBlock (10 ^ 10)]

end Irishub.Stake
