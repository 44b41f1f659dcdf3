import Irishub.Distribution.Rewards
import Irishub.Stake.Rewrites

/-!
# Stake: the steps of an operation

What the stake keeper does to the state, as a relation between the states in the
middle of an operation. `Effect` has one constructor for each kind of write that
any operation may make as far as its actor allows it; a validator whose record
exists is always rewritten in one way (`Stake.Rewrites`). `Write` adds the writes
that only one kind of operation makes: a new validator, what the slashing and the
distribution module are told, and the release of what has become mature.

Every function of the keeper is shown to be a sequence of such steps.
-/

namespace Irishub.Stake
open Lib Relation Irishub.Distribution State Bool

section
variable {s : State} {v : Address} {validator : Validator}

lemma getValidator_eq_some : s.getValidator v = some validator ↔
      s.stake.validators.get v = some validator.toValidatorValue ∧ validator.operatorAddr = v := by
  simp only [getValidator, Option.map_eq_some_iff]
  constructor
  · rintro ⟨val, hval, rfl⟩
    exact ⟨hval, rfl⟩
  · rintro ⟨hval, rfl⟩
    exact ⟨_, hval, rfl⟩

lemma getValidator_eq_none : s.getValidator v = none ↔ s.stake.validators.get v = none := by
  simp [getValidator]

lemma getDelegation_eq_some {d : Address} {delegation : Delegation} :
    s.getDelegation d v = some delegation ↔
      s.stake.delegations.get (toLex (d, v)) = some delegation.toDelegationValue ∧
        delegation.delegatorAddr = d ∧ delegation.validatorAddr = v := by
  simp only [getDelegation, Option.map_eq_some_iff]
  constructor
  · rintro ⟨del, hdel, rfl⟩
    exact ⟨hdel, rfl, rfl⟩
  · rintro ⟨hdel, rfl, rfl⟩
    exact ⟨_, hdel, rfl⟩

end

section

def State.rest (s : State) : Transit := ⟨s, [], 0⟩

def UnbondingDelegation.key (ubd : UnbondingDelegation) : DVKey :=
  toLex (ubd.delegatorAddr, ubd.validatorAddr)

def State.KeepsInfos (s : State) (slashing : SlashingStore) : Prop :=
  ∀ addr, slashing.signingInfos.get addr = s.slashing.signingInfos.get addr ∨
    s.slashing.signingInfos.get addr = none ∧
      slashing.signingInfos.get addr = some ⟨s.height, 0, 0, 0⟩

/-- A write that any operation may make, as far as its actor allows it. -/
inductive Effect (env : Env) (actor : Actor) : Transit → Transit → Prop
  | reward {t t' : Transit} (h : Reward t t') : Effect env actor t t'
  -- the slashing module and the queue of redelegations
  | aside {s : State} {rewards : DecCoins} {x : ℤ} (slashing : SlashingStore)
      (redelegationQueue : Store ℤ (List DVVTriplet)) (hinfos : s.KeepsInfos slashing) :
      Effect env actor ⟨s, rewards, x⟩
        ⟨{ s with
            slashing := slashing
            stake := { s.stake with redelegationQueue := redelegationQueue } }, rewards, x⟩
  | rewrite {s s' : State} {x x' amount : ℤ} {v : Address} {val : ValidatorValue}
      (h : Revised actor s v val amount s') (hx : x' = x + amount) :
      Effect env actor ⟨s, [], x⟩ ⟨s', [], x'⟩
  | removeValidator {s : State} {x : ℤ} {v : Address} {val : ValidatorValue} {key : PowerRank}
      (hval : s.stake.validators.get v = some val) (hshares : val.delegatorShares.raw = 0)
      (hstatus : val.status = .unbonded) (hkey : getValidatorPowerRank ⟨val, v⟩ = .ok key) :
      Effect env actor ⟨s, [], x⟩
        ⟨{ s.deleteValidator env ⟨val, v⟩ key with distr := { s.distr with
            validatorDistInfos := s.distr.validatorDistInfos.delete v } }, [], x⟩
  -- tokens on their way: a fraction is dropped, the rest becomes an unbonding delegation or is
  -- burned
  | truncate {s : State} {x : ℤ} :
      Effect env actor ⟨s, [], x⟩ ⟨s, [], x.tdiv Dec.precision * Dec.precision⟩
  | park {s : State} {x : ℤ} (ubd : UnbondingDelegation)
      (hactor : actor = .account ubd.delegatorAddr)
      (hnone : s.stake.unbondingDelegations.get ubd.key = none)
      (hx : x = ubd.balance.amount * Dec.precision) :
      Effect env actor ⟨s, [], x⟩ ((s.setUnbondingDelegation ubd).insertUnbondingQueue ubd).rest
  | burn {s : State} {bank : Bank} {amount : ℤ} (hactor : actor = .slashing) (hamount : 0 ≤ amount)
      (h : s.bank.decreaseTotalLoosenToken [⟨stakeDenom, amount⟩] = .ok bank) :
      Effect env actor ⟨s, [], amount * Dec.precision⟩ { s with bank := bank }.rest
  | burnUnbonding {s : State} {x amount : ℤ} {bank : Bank} (ubd : UnbondingDelegation)
      (hactor : actor = .slashing)
      (hubd : s.stake.unbondingDelegations.get ubd.key = some ubd.toUbdValue) (hamount : 0 ≤ amount)
      (h : s.bank.decreaseTotalLoosenToken [⟨stakeDenom, amount⟩] = .ok bank) :
      Effect env actor ⟨s, [], x⟩
        ⟨{ s.setUnbondingDelegation { ubd with
            balance := { ubd.balance with amount := ubd.balance.amount - amount } } with
            bank := bank }, [], x⟩
  | redelegation {s : State} {x : ℤ} (red : Redelegation)
      (hne : red.validatorSrcAddr ≠ red.validatorDstAddr) :
      Effect env actor ⟨s, [], x⟩ ⟨s.setRedelegation red, [], x⟩
  | pay {s : State} {x : ℤ} {d : Address} {coin : Coin} {bank : Bank} (hactor : actor = .account d)
      (hcoin : coin.isValidIrisAtto = true) (h : s.bank.subtractCoins d [coin] = .ok bank) :
      Effect env actor ⟨s, [], x⟩ ⟨{ s with bank := bank }, [], x + coin.amount * Dec.precision⟩
  | collect {s s' : State} {x : ℤ} {payer : Address} {fee : Coins}
      (h : s.collectFees payer fee = .ok s') : Effect env actor ⟨s, [], x⟩ ⟨s', [], x⟩
  | allocate {s s' : State} {x : ℤ} {percentVotes : Dec} {proposer : Address}
      (h : s.allocateTokens percentVotes proposer = .ok s') :
      Effect env actor ⟨s, [], x⟩ ⟨s', [], x⟩
  | powers {s : State} {x : ℤ} (lastValidatorPowers : Store Address ℤ) (lastTotalPower : ℤ) :
      Effect env actor ⟨s, [], x⟩
        ⟨{ s with stake := { s.stake with
            lastValidatorPowers := lastValidatorPowers
            lastTotalPower := lastTotalPower } }, [], x⟩

/-- Who makes the writes of an operation. -/
def Op.actor : Op → Actor
  | createValidator msg => .account msg.delegatorAddr
  | editValidator msg => .account msg.validatorAddr
  | delegate msg => .account msg.delegatorAddr
  | beginUnbonding msg => .account msg.delegatorAddr
  | beginRedelegate msg => .account msg.delegatorAddr
  | unjail validatorAddr => .account validatorAddr
  | slash _ _ _ _ => .slashing
  | setWithdrawAddress delAddr _ => .account delAddr
  | withdrawDelegatorRewardsAll delAddr => .account delAddr
  | withdrawDelegatorReward delAddr _ => .account delAddr
  | withdrawValidatorRewardsAll valAddr => .account valAddr
  | collectFees payer _ => .account payer
  | jail _ | setSigningInfo _ _ | allocateTokens _ _ | endBlock _ => .chain

/-- Who signs an operation: the signers of a message, the payer of a fee. -/
def Op.signers : Op → List Address
  | createValidator msg => [msg.delegatorAddr, msg.validatorAddr]
  | editValidator msg => [msg.validatorAddr]
  | delegate msg => [msg.delegatorAddr]
  | beginUnbonding msg => [msg.delegatorAddr]
  | beginRedelegate msg => [msg.delegatorAddr]
  | unjail validatorAddr => [validatorAddr]
  | setWithdrawAddress delAddr _ => [delAddr]
  | withdrawDelegatorRewardsAll delAddr => [delAddr]
  | withdrawDelegatorReward delAddr _ => [delAddr]
  | withdrawValidatorRewardsAll valAddr => [valAddr]
  | collectFees payer _ => [payer]
  | jail _ | slash _ _ _ _ | setSigningInfo _ _ | allocateTokens _ _ | endBlock _ => []

lemma Op.mem_signers_of_actor {op : Op} {addr : Address} (h : op.actor = .account addr) :
    addr ∈ op.signers := by cases op <;> simp_all [Op.actor, Op.signers]

def Op.Ends (op : Op) : Prop := ∃ nextTime, op = .endBlock nextTime

/-- A validator that is new to the store. -/
structure State.Admits (s : State) (validator : Validator) (rank : PowerRank) : Prop where
  none : s.stake.validators.get validator.operatorAddr = none
  tokens : validator.tokens = .zero
  delegatorShares : validator.delegatorShares = .zero
  status : validator.status = .unbonded
  jailed : validator.jailed = false
  rank : getValidatorPowerRank validator = .ok rank

/-- A new validator with its records in the distribution and slashing modules. -/
def State.created (env : Env) (s : State) (validator : Validator) (rank : PowerRank)
    (slashing : SlashingStore) : State :=
  { ((s.setValidator validator).setValidatorByConsAddr env validator).distrValidatorCreated
      validator.operatorAddr with
    slashing := slashing
    stake := { ((s.setValidator validator).setValidatorByConsAddr env validator).stake with
      validatorsByPowerIndex :=
        s.stake.validatorsByPowerIndex.set rank validator.operatorAddr } }

/-- A write of the operation `op`. -/
inductive Write (env : Env) (op : Op) : Transit → Transit → Prop
  | effect {t t' : Transit} (h : Effect env op.actor t t') : Write env op t t'
  | create {s : State} {validator : Validator} {rank : PowerRank} {msg : MsgCreateValidator}
      (hop : op = .createValidator msg) (haddr : validator.operatorAddr = msg.validatorAddr)
      (slashing : SlashingStore) (h : s.Admits validator rank)
      (hinfos : slashing.signingInfos = s.slashing.signingInfos) :
      Write env op s.rest (s.created env validator rank slashing).rest
  | withdrawAddr {s : State} {d withdrawAddr : Address}
      (hop : op = .setWithdrawAddress d withdrawAddr) :
      Write env op s.rest (s.setDelegatorWithdrawAddr d withdrawAddr).rest
  | signingInfo {s : State} {consAddr : Address} {info : ValidatorSigningInfo}
      (hop : op = .setSigningInfo consAddr info) :
      Write env op s.rest (s.setValidatorSigningInfo consAddr info).rest
  -- the end of a block
  | complete {s : State} {v : Address} {val : ValidatorValue} (hop : op.Ends)
      (hval : s.stake.validators.get v = some val) (hstatus : val.status = .unbonding) :
      Write env op s.rest (s.setValidator ⟨{ val with status := .unbonded }, v⟩).rest
  | dequeue {s : State} (hop : op.Ends) (unbondingQueue : Store ℤ (List DVPair))
      (redelegationQueue : Store ℤ (List DVVTriplet)) (validatorQueue : Store ℤ (List Address)) :
      Write env op s.rest
        { s with stake := { s.stake with
            unbondingQueue := unbondingQueue
            redelegationQueue := redelegationQueue
            validatorQueue := validatorQueue } }.rest
  | completeUnbonding {s s' : State} {d v : Address} (hop : op.Ends)
      (h : s.completeUnbonding d v = .ok s') : Write env op s.rest s'.rest
  | completeRedelegation {s : State} (hop : op.Ends) (red : Redelegation) :
      Write env op s.rest (s.removeRedelegation red).rest
  | nextBlock {s : State} {nextTime : ℤ} (hop : op.Ends) :
      Write env op s.rest { s with height := s.height + 1, blockTime := nextTime }.rest

variable {env : Env} {actor : Actor} {op : Op} {t t' : Transit}

lemma effects_of_rewards (h : ReflTransGen Reward t t') : ReflTransGen (Effect env actor) t t' :=
  ReflTransGen.mono (fun _ _ h => .reward h) t t' h

lemma writes_of_effects (h : ReflTransGen (Effect env op.actor) t t') :
    ReflTransGen (Write env op) t t' :=
  ReflTransGen.mono (fun _ _ h => .effect h) t t' h

end

section
variable {α : Type} (env : Env) (s : State) (d v : Address)

lemma bind_ok_self (c : Outcome α) : (do let a ← c; .ok a) = c := by cases c <;> rfl

lemma appHooks_validatorModified :
    (appHooks env).onValidatorModified s v = s.distrValidatorModified v :=
  bind_ok_self _

lemma appHooks_delegationCreated :
    (appHooks env).onDelegationCreated s d v = s.distrDelegationCreated d v :=
  bind_ok_self _

lemma appHooks_delegationSharesModified :
    (appHooks env).onDelegationSharesModified s d v = s.distrDelegationSharesModified d v :=
  bind_ok_self _

lemma appHooks_delegationRemoved :
    (appHooks env).onDelegationRemoved s d v = s.distrDelegationRemoved d v :=
  bind_ok_self _

lemma appHooks_validatorPowerDidChange (consAddr : Address) :
    (appHooks env).onValidatorPowerDidChange s consAddr v = s.distrValidatorPowerDidChange v :=
  bind_ok_self _

end

section

/-- What is not changed by an operation on the validator `v` and its delegations. -/
structure Away (v : Address) (s s' : State) : Prop where
  validators : ∀ u, u ≠ v → s'.stake.validators.get u = s.stake.validators.get u
  unbondingDelegations : s'.stake.unbondingDelegations = s.stake.unbondingDelegations

variable {v : Address} {s s' s'' : State}

lemma Away.refl (v : Address) (s : State) : Away v s s := ⟨fun _ _ => rfl, rfl⟩

lemma Away.trans (h : Away v s s') (h' : Away v s' s'') : Away v s s'' where
  validators u hu := (h'.validators u hu).trans (h.validators u hu)
  unbondingDelegations := h'.unbondingDelegations.trans h.unbondingDelegations

lemma Away.of_rewards {r r' : DecCoins} {x x' : ℤ} (v : Address)
    (h : ReflTransGen Reward ⟨s, r, x⟩ ⟨s', r', x'⟩) : Away v s s' := by
  have hsame : SameStake s s' := sameStake_of_rewards h
  exact ⟨by simp [hsame.stake], by simp [hsame.stake]⟩

lemma Away.of_revised {actor : Actor} {val : ValidatorValue} {amount : ℤ}
    (h : Revised actor s v val amount s') : Away v s s' := by
  cases h with
  | mk => exact ⟨fun u hu => Store.get_set_ne _ _ hu, rfl⟩

end

section
variable {env : Env} {actor : Actor} {op : Op} {s s' : State} {d v : Address} {x : ℤ}
  {delegation : Delegation} {validator validator' : Validator} {shares : Dec} {bondAmt : Coin}
  {subtractAccount : Bool} {rounded : ℤ}

lemma jailLeavingOperator_effects (env : Env) (actor : Actor)
    (hval : s.getValidator v = some validator)
    (h : s.jailLeavingOperator delegation validator = .ok (s', validator')) :
    ReflTransGen (Effect env actor) ⟨s, [], x⟩ ⟨s', [], x⟩ ∧ Away v s s' ∧
      s'.stake.delegations = s.stake.delegations ∧ s'.getValidator v = some validator' := by
  obtain ⟨hget, rfl⟩ := getValidator_eq_some.mp hval
  unfold jailLeavingOperator at h
  split_ifs at h with hleave
  · simp only [mustGetValidator, bind_ok, deref_ok, pure_eq_ok, Prod.mk.injEq] at h
    obtain ⟨s₁, hjail, validator1, hval1, rfl, rfl⟩ := h
    obtain ⟨hrevised, hdels⟩ := jailValidator_revised actor hget hjail
    exact ⟨.single (.rewrite hrevised (add_zero x).symm), .of_revised hrevised, hdels, hval1⟩
  · cases h
    exact ⟨.refl, .refl _ s, rfl, hval⟩

lemma removeDelegation_rewards (h : s.removeDelegation (appHooks env) delegation = .ok s') :
    ∃ s₁, ReflTransGen Reward ⟨s, [], x⟩ ⟨s₁, [], x⟩ ∧
      s' = s₁.withRemainder delegation.delegatorAddr delegation.validatorAddr .zero := by
  simp only [removeDelegation, appHooks_delegationRemoved, distrDelegationRemoved,
    bind_ok, pure_eq_ok] at h
  obtain ⟨_, ⟨s₁, hpay, rfl⟩, rfl⟩ := h
  exact ⟨s₁, payOutCommission_rewards hpay, rfl⟩

/-- What `storeRemainder` does before it writes the delegation. -/
lemma storeRemainder_effects (actor : Actor)
    (h : s.storeRemainder (appHooks env) delegation validator = .ok (s', validator'))
    (hval : s.getValidator delegation.validatorAddr = some validator) :
    ∃ s₁, ReflTransGen (Effect env actor) ⟨s, [], x⟩ ⟨s₁, [], x⟩ ∧
      Away delegation.validatorAddr s s₁ ∧ s₁.stake.delegations = s.stake.delegations ∧
      s₁.getValidator delegation.validatorAddr = some validator' ∧
      s' = s₁.withRemainder delegation.delegatorAddr delegation.validatorAddr
        delegation.shares := by
  unfold storeRemainder at h
  split_ifs at h with hzero
  · simp only [bind_ok, pure_eq_ok, Prod.mk.injEq, Prod.exists] at h
    obtain ⟨s₁, validator1, hjail, _, hremove, rfl, rfl⟩ := h
    obtain ⟨hsteps, haway, hdels, hval1⟩ :=
      jailLeavingOperator_effects env actor (x := x) hval hjail
    obtain ⟨s2, hsteps2, rfl⟩ := removeDelegation_rewards (x := x) hremove
    have hsame : SameStake s₁ s2 := sameStake_of_rewards hsteps2
    refine ⟨s2, hsteps.trans (effects_of_rewards hsteps2), haway.trans (.of_rewards _ hsteps2),
      ?_, ?_, ?_⟩
    · rw [hsame.stake, hdels]
    · rw [getValidator, hsame.stake]
      exact hval1
    · have hshares : delegation.shares = .zero := Dec.ext (by simpa using hzero)
      rw [hshares]
  · cases h
    refine ⟨s, .refl, .refl _ s, rfl, hval, ?_⟩
    rw [withRemainder, if_neg hzero]

lemma removeValidatorDistInfo_ok (h : s.removeValidatorDistInfo v = .ok s') :
    s' = { s with distr := { s.distr with
      validatorDistInfos := s.distr.validatorDistInfos.delete v } } := by
  simp only [removeValidatorDistInfo, bind_ok, pure_eq_ok] at h
  obtain ⟨_, _, _, _, _, _, rfl⟩ := h
  rfl

lemma removeValidator_effects {val : ValidatorValue} (hval : s.stake.validators.get v = some val)
    (hshares : val.delegatorShares.raw = 0) (h : s.removeValidator env (appHooks env) v = .ok s') :
    ReflTransGen (Effect env actor) ⟨s, [], x⟩ ⟨s', [], x⟩ ∧ Away v s s' := by
  have hget : s.getValidator v = some ⟨val, v⟩ := getValidator_eq_some.mpr ⟨hval, rfl⟩
  simp only [removeValidator, hget, bind_ok, assert_ok, decide_eq_true_eq] at h
  obtain ⟨_, hstatus, key, hkey, h⟩ := h
  obtain ⟨s₁, hremove, h⟩ := bind_ok.mp h
  cases removeValidatorDistInfo_ok hremove
  cases h
  exact ⟨.tail (.single (.removeValidator hval hshares hstatus hkey))
    (.aside _ _ (fun _ => .inl rfl)), fun u hu => Store.get_delete_ne _ hu, rfl⟩

lemma removeIfEmpty_effects (actor : Actor) (hval : s.getValidator v = some validator)
    (h : s.removeIfEmpty env (appHooks env) validator = .ok s') :
    ReflTransGen (Effect env actor) ⟨s, [], x⟩ ⟨s', [], x⟩ ∧ Away v s s' := by
  obtain ⟨hget, rfl⟩ := getValidator_eq_some.mp hval
  unfold removeIfEmpty at h
  split_ifs at h with hempty
  · exact removeValidator_effects hget (by simpa using hempty.1) h
  · cases h
    exact ⟨.refl, .refl _ s⟩

lemma unbond_effects (actor : Actor) {amount : Dec}
    (h : s.unbond env (appHooks env) d v shares = .ok (s', amount)) :
    ReflTransGen (Effect env actor) ⟨s, [], x⟩ ⟨s', [], x + amount.raw⟩ ∧ Away v s s' := by
  simp only [unbond, appHooks_delegationSharesModified, bind_ok, found_ok,
    require_ok, decide_eq_true_eq, pure_eq_ok, Prod.mk.injEq, Prod.exists] at h
  obtain ⟨delegation, hdelegation, s₁, hmodified, _, hle, validator, hvalidator, remainder,
    hremainder, _, ⟨val2, u⟩, hstore, s3, validator3, amount, hremove, _, hempty, rfl, rfl⟩ := h
  obtain ⟨del, d, v⟩ := delegation
  obtain ⟨hdel, rfl, rfl⟩ := getDelegation_eq_some.mp hdelegation
  have hsteps1 := distrDelegationSharesModified_rewards (x := x) hmodified
  have hsame : SameStake s s₁ := sameStake_of_rewards hsteps1
  obtain ⟨s2, hsteps2, haway2, hdels2, hval2, rfl⟩ :=
    storeRemainder_effects actor (x := x) hstore hvalidator
  obtain ⟨hget2, rfl⟩ := getValidator_eq_some.mp hval2
  have hdel2 : s2.stake.delegations.get (toLex (d, u)) = some del := by
    rw [hdels2, hsame.stake]
    exact hdel
  obtain ⟨hrevised, hval3⟩ := removeShares_revised actor hget2 hdel2 hle hremainder hremove
  obtain ⟨hsteps4, haway4⟩ := removeIfEmpty_effects actor (x := x + amount.raw) hval3 hempty
  refine ⟨(((effects_of_rewards hsteps1).trans hsteps2).tail (.rewrite hrevised rfl)).trans hsteps4,
    ?_⟩
  exact (((Away.of_rewards _ hsteps1).trans haway2).trans (.of_revised hrevised)).trans haway4

lemma onDelegate_rewards (h : s.onDelegate (appHooks env) d v = .ok s') :
    ReflTransGen Reward ⟨s, [], x⟩ ⟨s', [], x⟩ := by
  simp only [onDelegate, appHooks_delegationSharesModified, appHooks_delegationCreated] at h
  split_ifs at h
  · exact distrDelegationSharesModified_rewards h
  · exact distrDelegationCreated_rewards h

lemma payDelegation_effects (env : Env)
    (hcoin : subtractAccount = true → bondAmt.isValidIrisAtto = true)
    (h : s.payDelegation d bondAmt subtractAccount = .ok s') :
    ReflTransGen (Effect env (.account d)) ⟨s, [], x⟩
        ⟨s', [], if subtractAccount then x + bondAmt.amount * Dec.precision else x⟩ ∧
      s'.stake = s.stake := by
  cases subtractAccount with
  | false =>
    cases h
    exact ⟨.refl, rfl⟩
  | true =>
    obtain ⟨bank, hbank, h⟩ := bind_ok.mp h
    cases h
    exact ⟨.single (.pay rfl (hcoin rfl) hbank), rfl⟩

/-- `Delegate` settles rewards, may take the tokens from the account, and issues shares. -/
lemma delegate_effects {newShares : Dec} (hval : s.getValidator v = some validator)
    (hnonneg : 0 ≤ bondAmt.amount) (hcoin : subtractAccount = true → bondAmt.isValidIrisAtto = true)
    (h : s.delegate (appHooks env) d bondAmt validator subtractAccount = .ok (s', newShares)) :
    ReflTransGen (Effect env (.account d)) ⟨s, [], x⟩
      ⟨s', [], (if subtractAccount then x + bondAmt.amount * Dec.precision else x) -
        bondAmt.amount * Dec.precision⟩ := by
  obtain ⟨val, u⟩ := validator
  obtain ⟨hget, rfl⟩ := getValidator_eq_some.mp hval
  simp only [delegate, getDelegation, bind_ok, require_ok, pure_eq_ok,
    Prod.mk.injEq, Prod.exists] at h
  obtain ⟨_, _, _, _, s₁, hhook, s2, hpay, s3, validator', newShares, hadd, shares, hshares, rfl,
    rfl⟩ := h
  have hsteps1 := onDelegate_rewards (x := x) hhook
  obtain ⟨hsteps2, hstake⟩ := payDelegation_effects env (x := x) hcoin hpay
  have hsame : s2.stake = s.stake := hstake.trans (sameStake_of_rewards hsteps1).stake
  have hget2 : s2.stake.validators.get u = some val := by rw [hsame, hget]
  have hsum : shares.raw = sharesAt s2.stake.delegations (toLex (d, u)) + newShares.raw := by
    rw [(Dec.add_eq_ok.mp hshares).1, hsame, sharesAt]
    cases s.stake.delegations.get (toLex (d, u)) <;> rfl
  have hrevised := addShares_revised hnonneg hget2 hadd hsum
  refine ((effects_of_rewards hsteps1).trans hsteps2).tail ?_
  cases hdel : s.stake.delegations.get (toLex (d, u)) with
  | none | some del => exact .rewrite hrevised (sub_eq_add_neg _ _)

lemma truncateInt_ok {amount : Dec} (h : amount.truncateInt = .ok rounded) :
    rounded = amount.raw.tdiv Dec.precision := by
  simp only [Dec.truncateInt, SdkInt.newIntFromBigInt_ok] at h
  exact h.1

lemma effect_truncate {amount : Dec} (h : amount.truncateInt = .ok rounded) :
    Effect env actor ⟨s, [], 0 + amount.raw⟩ ⟨s, [], rounded * Dec.precision⟩ := by
  rw [truncateInt_ok h, zero_add]
  exact .truncate

lemma beginUnbonding_effects (h : s.beginUnbonding env (appHooks env) d v shares = .ok s') :
    ReflTransGen (Effect env (.account d)) s.rest s'.rest := by
  simp only [beginUnbonding, getUnbondingDelegation, bind_ok, require_ok,
    Coin.newCoin_ok, pure_eq_ok, Prod.exists] at h
  obtain ⟨_, hnone, s₁, amount, hunbond, rounded, hrounded, _, ⟨rfl, hnonneg⟩, rfl⟩ := h
  obtain ⟨hsteps, haway⟩ := unbond_effects (.account d) (x := 0) hunbond
  have hfresh : s₁.stake.unbondingDelegations.get (toLex (d, v)) = none := by
    rw [haway.unbondingDelegations]
    simpa using hnone
  exact (hsteps.tail (effect_truncate hrounded)).tail (.park _ rfl hfresh rfl)

/-- A redelegation unbonds, issues shares of the destination and is entered in the store. -/
lemma beginRedelegation_effects {u : Address}
    (h : s.beginRedelegation env (appHooks env) d v u shares = .ok s') :
    ReflTransGen (Effect env (.account d)) s.rest s'.rest := by
  simp only [beginRedelegation, bind_ok, require_ok, found_ok, Coin.newCoin_ok,
    decide_eq_true_eq, pure_eq_ok, Prod.exists] at h
  obtain ⟨_, hne, _, _, _, _, s₁, amount, hunbond, rounded, hrounded, _, ⟨rfl, hnonneg⟩, dst, hdst,
    s2, sharesCreated, hdelegate, rfl⟩ := h
  obtain ⟨hsteps, _⟩ := unbond_effects (.account d) (x := 0) hunbond
  have hadd := delegate_effects (x := rounded * Dec.precision) hdst hnonneg
    (fun hfalse => by simp at hfalse) hdelegate
  simp only [false_eq_true, if_false, sub_self] at hadd
  exact (((hsteps.tail (effect_truncate hrounded)).trans hadd).tail (.redelegation _ hne)).tail
    (.aside _ _ (fun _ => .inl rfl))

end
end Irishub.Stake
