import Irishub.Stake.Effects

/-!
# Stake: operations as sequences of steps

Slashing and the message handlers, traced to the steps of `Stake.Effects`.
-/

namespace Irishub.Stake
open Lib Relation Irishub.Distribution State
variable {env : Env} {actor : Actor} {op : Op} {s s' : State} {d v : Address} {x : ℤ}

section
variable {ubd : UnbondingDelegation} {infractionHeight : ℤ} {slashFactor : Dec}

def State.withUnbonding (s : State) (bank : Bank) (ubds : Store DVKey UbdValue) : State :=
  { s with bank := bank, stake := { s.stake with unbondingDelegations := ubds } }

lemma decreaseLoosenToken_ok {coins : Coins} (h : s.decreaseLoosenToken coins = .ok s') :
    ∃ bank, s.bank.decreaseTotalLoosenToken coins = .ok bank ∧ s' = { s with bank := bank } := by
  simp only [decreaseLoosenToken, bind_ok, pure_eq_ok] at h
  obtain ⟨bank, hbank, rfl⟩ := h
  exact ⟨bank, hbank, rfl⟩

/-- Slash of an unbonding delegation leaves the others as they are. -/
def SlashesOne (env : Env) (ubd : UnbondingDelegation) (s s' : State) : Prop :=
  ReflTransGen (Effect env .slashing) s.rest s'.rest ∧
    ∃ bank ubds, s' = s.withUnbonding bank ubds ∧
      ∀ k, k ≠ ubd.key → ubds.get k = s.stake.unbondingDelegations.get k

lemma SlashesOne.refl (env : Env) (ubd : UnbondingDelegation) (s : State) :
    SlashesOne env ubd s s :=
  ⟨.refl, s.bank, s.stake.unbondingDelegations, rfl, fun _ _ => rfl⟩

lemma burnUnbonding_effects {amount : ℤ}
    (hubd : s.stake.unbondingDelegations.get ubd.key = some ubd.toUbdValue)
    (h : s.burnUnbonding ubd amount = .ok s') : SlashesOne env ubd s s' := by
  unfold burnUnbonding at h
  split_ifs at h with hzero
  · cases h
    exact .refl env ubd s
  · simp only [bind_ok, Coin.newCoin_ok, SdkInt.sub_eq_ok] at h
    obtain ⟨left, ⟨rfl, _⟩, _, ⟨rfl, hnonneg⟩, h⟩ := h
    obtain ⟨bank, hbank, rfl⟩ := decreaseLoosenToken_ok h
    exact ⟨.single (.burnUnbonding ubd rfl hubd hnonneg hbank), bank, _, rfl,
      fun k hk => Store.get_set_ne _ _ hk⟩

lemma slashUnbondingDelegation_effects {slashed : Dec}
    (hubd : s.stake.unbondingDelegations.get ubd.key = some ubd.toUbdValue)
    (h : s.slashUnbondingDelegation ubd infractionHeight slashFactor = .ok (s', slashed)) :
    SlashesOne env ubd s s' := by
  unfold slashUnbondingDelegation at h
  split_ifs at h with hbefore hmature
  · cases h
    exact .refl env ubd s
  · cases h
    exact .refl env ubd s
  · simp only [bind_ok, pure_eq_ok, Prod.mk.injEq] at h
    obtain ⟨_, _, _, _, _, hburn, rfl, rfl⟩ := h
    exact burnUnbonding_effects hubd hburn

lemma mem_getUnbondingDelegationsFromValidator
    (h : ubd ∈ s.getUnbondingDelegationsFromValidator v) :
    s.stake.unbondingDelegations.get ubd.key = some ubd.toUbdValue := by
  simp only [getUnbondingDelegationsFromValidator, List.mem_filter, List.mem_map] at h
  obtain ⟨⟨e, he, rfl⟩, _⟩ := h
  exact Store.mem_entries.mp he

lemma nodup_getUnbondingDelegationsFromValidator (s : State) (v : Address) :
    ((s.getUnbondingDelegationsFromValidator v).map UnbondingDelegation.key).Nodup := by
  refine List.Nodup.sublist (List.Sublist.map _ List.filter_sublist) ?_
  rw [List.map_map]
  exact s.stake.unbondingDelegations.nodup_keys

lemma slashUnbondingDelegations_effects {remaining remaining' : Dec}
    (h : s.slashUnbondingDelegations (s.getUnbondingDelegationsFromValidator v) infractionHeight
      slashFactor remaining = .ok (s', remaining')) :
    ReflTransGen (Effect env .slashing) s.rest s'.rest ∧
      ∃ bank ubds, s' = s.withUnbonding bank ubds := by
  have hloop : Sat AnyFault (fun acc : State × Dec =>
      ReflTransGen (Effect env .slashing) s.rest acc.1.rest ∧
        ∃ bank ubds, acc.1 = s.withUnbonding bank ubds)
      (s.slashUnbondingDelegations (s.getUnbondingDelegationsFromValidator v) infractionHeight
        slashFactor remaining) := by
    refine (Sat.foldlM_suffix (I := fun rest acc =>
      (ReflTransGen (Effect env .slashing) s.rest acc.1.rest ∧
        ∃ bank ubds, acc.1 = s.withUnbonding bank ubds) ∧
      -- what is left to slash is still in the store
      (rest.map UnbondingDelegation.key).Nodup ∧
      ∀ ubd ∈ rest, acc.1.stake.unbondingDelegations.get ubd.key = some ubd.toUbdValue) ?_ _
      (s, remaining) ⟨⟨.refl, s.bank, _, rfl⟩, nodup_getUnbondingDelegationsFromValidator s v,
        fun _ h => mem_getUnbondingDelegationsFromValidator h⟩).imp (fun _ h => h.1)
    rintro ubd rest ⟨s1, remaining1⟩ ⟨⟨hsteps, bank1, ubds1, rfl⟩, hnodup, hstored⟩
    refine Sat.of_forall (fun acc hacc => ?_)
    simp only [bind_ok, pure_eq_ok, Prod.exists] at hacc
    obtain ⟨s2, _, hslash, _, _, rfl⟩ := hacc
    obtain ⟨hsteps2, bank2, ubds2, rfl, hother⟩ :=
      slashUnbondingDelegation_effects (hstored ubd (by simp)) hslash
    rw [List.map_cons, List.nodup_cons] at hnodup
    refine ⟨⟨hsteps.trans hsteps2, bank2, ubds2, rfl⟩, hnodup.2, fun ubd' hubd' => ?_⟩
    have hne : ubd'.key ≠ ubd.key := by
      intro heq
      exact hnodup.1 (heq ▸ List.mem_map_of_mem hubd')
    exact (hother _ hne).trans (hstored ubd' (List.mem_cons_of_mem _ hubd'))
  exact hloop.of_ok h

end

section
variable {red : Redelegation} {infractionHeight : ℤ} {slashFactor : Dec}

lemma burnRedelegation_effects {amount : ℤ} (hne : red.validatorSrcAddr ≠ red.validatorDstAddr)
    (h : s.burnRedelegation red amount = .ok s') :
    ReflTransGen (Effect env .slashing) s.rest s'.rest ∧
      s'.stake.validators = s.stake.validators := by
  unfold burnRedelegation at h
  split_ifs at h
  · cases h
    exact ⟨.refl, rfl⟩
  · obtain ⟨left, _, h⟩ := bind_ok.mp h
    cases h
    exact ⟨.single (.redelegation _ hne), rfl⟩

lemma unbondTarget_effects {shares : Dec} (hne : v ≠ red.validatorDstAddr)
    (h : s.unbondTarget env (appHooks env) red shares = .ok s') :
    ReflTransGen (Effect env .slashing) s.rest s'.rest ∧
      s'.stake.validators.get v = s.stake.validators.get v := by
  unfold unbondTarget at h
  split_ifs at h
  · cases h
    exact ⟨.refl, rfl⟩
  · split at h
    · cases h
      exact ⟨.refl, rfl⟩
    · simp only [bind_ok, panicOnError_ok, Coin.newCoin_ok, Prod.exists] at h
      obtain ⟨s1, tokens, hunbond, amount, hamount, _, ⟨rfl, hnonneg⟩, hburn⟩ := h
      obtain ⟨hsteps, haway⟩ := unbond_effects .slashing (x := 0) hunbond
      obtain ⟨bank, hbank, rfl⟩ := decreaseLoosenToken_ok hburn
      exact ⟨(hsteps.tail (effect_truncate hamount)).tail (.burn rfl hnonneg hbank),
        haway.validators v hne⟩

lemma slashRedelegation_effects {slashed : Dec} (hsrc : red.validatorSrcAddr = v)
    (hne : red.validatorSrcAddr ≠ red.validatorDstAddr)
    (h : s.slashRedelegation env (appHooks env) red infractionHeight slashFactor =
      .ok (s', slashed)) : ReflTransGen (Effect env .slashing) s.rest s'.rest ∧
      s'.stake.validators.get v = s.stake.validators.get v := by
  unfold slashRedelegation at h
  split_ifs at h
  · cases h
    exact ⟨.refl, rfl⟩
  · cases h
    exact ⟨.refl, rfl⟩
  · simp only [bind_ok, pure_eq_ok, Prod.mk.injEq] at h
    obtain ⟨_, _, _, _, s1, hburn, _, _, s2, hunbond, rfl, rfl⟩ := h
    obtain ⟨hsteps1, hval1⟩ := burnRedelegation_effects hne hburn
    obtain ⟨hsteps2, hval2⟩ := unbondTarget_effects (v := v) (by rw [← hsrc]; exact hne) hunbond
    exact ⟨hsteps1.trans hsteps2, by rw [hval2, hval1]⟩

def State.Proper (s : State) : Prop :=
  ∀ k red, s.stake.redelegations.get k = some red → (ofLex (ofLex k).2).1 ≠ (ofLex (ofLex k).2).2

lemma mem_getRedelegationsFromValidator (hs : s.Proper)
    (h : red ∈ s.getRedelegationsFromValidator v) :
    red.validatorSrcAddr = v ∧ red.validatorSrcAddr ≠ red.validatorDstAddr := by
  simp only [getRedelegationsFromValidator, allRedelegations, List.mem_filter,
    List.mem_map, decide_eq_true_eq] at h
  obtain ⟨⟨e, he, rfl⟩, hsrc⟩ := h
  exact ⟨hsrc, hs e.1 e.2 (Store.mem_entries.mp he)⟩

lemma slashRedelegations_effects {remaining remaining' : Dec} (hs : s.Proper)
    (h : s.slashRedelegations env (appHooks env) (s.getRedelegationsFromValidator v)
      infractionHeight slashFactor remaining = .ok (s', remaining')) :
    ReflTransGen (Effect env .slashing) s.rest s'.rest ∧
      s'.stake.validators.get v = s.stake.validators.get v := by
  have hloop : Sat AnyFault (fun acc : State × Dec =>
      ReflTransGen (Effect env .slashing) s.rest acc.1.rest ∧
        acc.1.stake.validators.get v = s.stake.validators.get v)
      (s.slashRedelegations env (appHooks env) (s.getRedelegationsFromValidator v)
        infractionHeight slashFactor remaining) := by
    refine Sat.foldlM _ (s, remaining) ⟨.refl, rfl⟩ ?_
    rintro red hred ⟨s1, remaining1⟩ ⟨hsteps, hval⟩
    refine Sat.of_forall (fun acc hacc => ?_)
    simp only [bind_ok, pure_eq_ok, Prod.exists] at hacc
    obtain ⟨s2, _, hslash, _, _, rfl⟩ := hacc
    obtain ⟨hsrc, hne⟩ := mem_getRedelegationsFromValidator hs hred
    obtain ⟨hsteps2, hval2⟩ := slashRedelegation_effects hsrc hne hslash
    exact ⟨hsteps.trans hsteps2, hval2.trans hval⟩
  exact hloop.of_ok h

end

section
variable {infractionHeight : ℤ} {slashFactor slashAmount : Dec}

lemma slashStakeSince_effects {remaining : Dec} (hs : s.Proper)
    (h : s.slashStakeSince env (appHooks env) v infractionHeight slashFactor slashAmount =
      .ok (s', remaining)) : ReflTransGen (Effect env .slashing) s.rest s'.rest ∧
      s'.stake.validators.get v = s.stake.validators.get v := by
  unfold slashStakeSince at h
  split_ifs at h
  · cases h
  · cases h
    exact ⟨.refl, rfl⟩
  · simp only [bind_ok, Prod.exists] at h
    obtain ⟨s1, remaining1, hunbonding, hredelegations⟩ := h
    obtain ⟨hsteps1, bank, ubds, rfl⟩ := slashUnbondingDelegations_effects hunbonding
    obtain ⟨hsteps2, hval⟩ :=
      slashRedelegations_effects (s := s.withUnbonding bank ubds) hs hredelegations
    exact ⟨hsteps1.trans hsteps2, hval⟩

lemma burnSlashed_ok {tokens : Dec} (h : s.burnSlashed tokens = .ok s') :
    ∃ amount bank, tokens.raw = amount * Dec.precision ∧ 0 ≤ amount ∧
      s.bank.decreaseTotalLoosenToken [⟨stakeDenom, amount⟩] = .ok bank ∧
      s' = { s with bank := bank } := by
  simp only [burnSlashed, Dec.truncateDec, bind_ok, pure_eq_ok, assert_ok, Coin.newCoin_ok] at h
  obtain ⟨_, ⟨round, hround, rfl⟩, fraction, hfraction, _, hzero, amount, hamount, _,
    ⟨rfl, hnonneg⟩, hburn⟩ := h
  cases hround.symm.trans hamount
  obtain ⟨bank, hbank, rfl⟩ := decreaseLoosenToken_ok hburn
  exact ⟨round, bank, whole_of_sub hfraction hzero, hnonneg, hbank, rfl⟩

lemma slashValidator_effects {validator : Validator}
    (hs : s.Proper) (hval : s.getValidator v = some validator)
    (h : s.slashValidator env (appHooks env) validator infractionHeight slashFactor slashAmount =
      .ok s') : ReflTransGen (Effect env .slashing) s.rest s'.rest := by
  obtain ⟨val, u⟩ := validator
  obtain ⟨hget, rfl⟩ := getValidator_eq_some.mp hval
  simp only [slashValidator, appHooks_validatorModified, bind_ok, Prod.exists] at h
  obtain ⟨_, _, s1, hmodified, s2, remaining, hsince, s3, validator3, hremove, hburned⟩ := h
  have hsteps1 := distrValidatorModified_rewards (x := 0) hmodified
  have hsame : SameStake s s1 := sameStake_of_rewards hsteps1
  have hs1 : s1.Proper := by
    intro k red hred
    rw [hsame.stake] at hred
    exact hs k red hred
  obtain ⟨hsteps2, hval2⟩ := slashStakeSince_effects hs1 hsince
  have hget2 : s2.stake.validators.get u = some val := by
    rw [hval2, hsame.stake]
    exact hget
  obtain ⟨amount, bank, hwhole, hnonneg, hbank, rfl⟩ := burnSlashed_ok hburned
  exact (((effects_of_rewards hsteps1).trans hsteps2).tail
    (.rewrite (removeValidatorTokens_revised hget2 hwhole hremove) (zero_add _).symm)).tail
    (.burn rfl hnonneg hbank)

lemma slash_effects {consAddr : Address} {power : ℤ} (hs : s.Proper)
    (h : s.slash env (appHooks env) consAddr infractionHeight power slashFactor = .ok s') :
    ReflTransGen (Effect env .slashing) s.rest s'.rest := by
  simp only [slash, bind_ok] at h
  obtain ⟨_, _, _, _, _, _, _, _, h⟩ := h
  split at h
  · cases h
    exact .refl
  · rename_i validator hvalidator
    obtain ⟨u, _, hval⟩ := Option.bind_eq_some_iff.mp hvalidator
    exact slashValidator_effects hs hval h

end

section
variable {validator validator' : Validator} {coin : Coin} {consAddr : Address}

lemma setInitialCommission_ok {commission : Commission}
    (h : validator.setInitialCommission commission = .ok validator') :
    validator' = { validator with commission := commission } := by
  simp only [Validator.setInitialCommission, bind_ok, pure_eq_ok] at h
  obtain ⟨_, _, rfl⟩ := h
  rfl

lemma setNewValidatorByPowerIndex_ok (h : s.setNewValidatorByPowerIndex validator = .ok s') :
    ∃ rank, State.getValidatorPowerRank validator = .ok rank ∧
      s' = { s with stake := { s.stake with
        validatorsByPowerIndex :=
          s.stake.validatorsByPowerIndex.set rank validator.operatorAddr } } := by
  simp only [setNewValidatorByPowerIndex, bind_ok, pure_eq_ok] at h
  obtain ⟨rank, hrank, rfl⟩ := h
  exact ⟨rank, hrank, rfl⟩

lemma onValidatorCreated_ok (h : (appHooks env).onValidatorCreated s v = .ok s') :
    ∃ slashing : SlashingStore, s' = { s.distrValidatorCreated v with slashing := slashing } ∧
      slashing.signingInfos = s.slashing.signingInfos := by
  have hslashing : (s.distrValidatorCreated v).slashingValidatorCreated env v = .ok s' := h
  simp only [slashingValidatorCreated, bind_ok, pure_eq_ok] at hslashing
  obtain ⟨_, _, rfl⟩ := hslashing
  exact ⟨_, rfl, rfl⟩

lemma nonneg_of_isValidIrisAtto (h : coin.isValidIrisAtto = true) : 0 ≤ coin.amount := by
  simp only [Coin.isValidIrisAtto, Coin.isPositive, Bool.and_eq_true, decide_eq_true_eq] at h
  exact h.2.le

lemma delegateFromAccount_effects {newShares : Dec} (hval : s.getValidator v = some validator)
    (hcoin : coin.isValidIrisAtto = true)
    (h : s.delegate (appHooks env) d coin validator true = .ok (s', newShares)) :
    ReflTransGen (Effect env (.account d)) s.rest s'.rest := by
  have hsteps := delegate_effects (x := 0) hval (nonneg_of_isValidIrisAtto hcoin) (fun _ => hcoin) h
  simp only [if_true, zero_add, sub_self] at hsteps
  exact hsteps

lemma handleMsgCreateValidator_writes {msg : MsgCreateValidator}
    (hcoin : msg.delegation.isValidIrisAtto = true)
    (h : s.handleMsgCreateValidator env (appHooks env) msg = .ok s') :
    ReflTransGen (Write env (.createValidator msg)) s.rest s'.rest := by
  simp only [handleMsgCreateValidator, bind_ok, require_ok, pure_eq_ok, Prod.exists] at h
  obtain ⟨_, hnone, _, _, _, _, rate, _, validator, hnew, s1, hindex, s2, hhook, _, _, hdelegate,
    rfl⟩ := h
  obtain ⟨rank, hrank, rfl⟩ := setNewValidatorByPowerIndex_ok hindex
  obtain ⟨slashing, rfl, hinfos⟩ := onValidatorCreated_ok hhook
  have heq := setInitialCommission_ok hnew
  have haddr : validator.operatorAddr = msg.validatorAddr := by rw [heq]; rfl
  have hadmits : s.Admits validator rank := by
    refine ⟨?_, ?_, ?_, ?_, ?_, hrank⟩
    · rw [haddr]
      simpa [getValidator_eq_none] using hnone
    all_goals rw [heq]; rfl
  refine ReflTransGen.head (.create rfl haddr slashing hadmits hinfos)
    (writes_of_effects
      (delegateFromAccount_effects (getValidator_eq_some.mpr ⟨?_, rfl⟩) hcoin hdelegate))
  exact Store.get_set_self _ _ _

lemma editCommission_effects {commissionRate : Option Dec}
    (h : s.editCommission (appHooks env) validator commissionRate = .ok (s', validator')) :
    ReflTransGen (Effect env actor) s.rest s'.rest ∧ s'.stake = s.stake ∧
      validator' = { validator with commission := validator'.commission } := by
  unfold editCommission at h
  split at h
  · cases h
    exact ⟨.refl, rfl, rfl⟩
  · simp only [appHooks_validatorModified, bind_ok, pure_eq_ok, Prod.mk.injEq] at h
    obtain ⟨commission, _, s1, hmodified, rfl, rfl⟩ := h
    have hsteps := distrValidatorModified_rewards (x := 0) hmodified
    exact ⟨effects_of_rewards hsteps, (sameStake_of_rewards hsteps).stake, rfl⟩

lemma handleMsgEditValidator_effects {msg : MsgEditValidator}
    (h : s.handleMsgEditValidator (appHooks env) msg = .ok s') :
    ReflTransGen (Effect env actor) s.rest s'.rest := by
  simp only [handleMsgEditValidator, bind_ok, found_ok, pure_eq_ok, Prod.exists] at h
  obtain ⟨⟨val, u⟩, hvalidator, description, _, s1, validator1, hedit, rfl⟩ := h
  obtain ⟨hget, rfl⟩ := getValidator_eq_some.mp hvalidator
  obtain ⟨hsteps, hstake, heq⟩ := editCommission_effects hedit
  have hget1 : s1.stake.validators.get msg.validatorAddr = some val := by rw [hstake, hget]
  rw [heq]
  exact hsteps.tail (.rewrite (setValidator_revised hget1 description validator1.commission) rfl)

lemma handleMsgDelegate_effects {msg : MsgDelegate} (hcoin : msg.delegation.isValidIrisAtto = true)
    (h : s.handleMsgDelegate (appHooks env) msg = .ok s') :
    ReflTransGen (Effect env (.account msg.delegatorAddr)) s.rest s'.rest := by
  simp only [handleMsgDelegate, bind_ok, found_ok, pure_eq_ok, Prod.exists] at h
  obtain ⟨validator, hval, _, _, _, _, hdelegate, rfl⟩ := h
  exact delegateFromAccount_effects hval hcoin hdelegate

lemma mustGetValidatorByConsAddr_ok (h : s.mustGetValidatorByConsAddr consAddr = .ok validator) :
    s.stake.validators.get validator.operatorAddr = some validator.toValidatorValue := by
  simp only [mustGetValidatorByConsAddr, deref_ok] at h
  obtain ⟨u, _, hval⟩ := Option.bind_eq_some_iff.mp h
  obtain ⟨hget, rfl⟩ := getValidator_eq_some.mp hval
  exact hget

lemma jail_effects (h : s.jail consAddr = .ok s') :
    ReflTransGen (Effect env actor) s.rest s'.rest := by
  obtain ⟨validator, hvalidator, h⟩ := bind_ok.mp h
  exact .single (.rewrite
    (jailValidator_revised actor (mustGetValidatorByConsAddr_ok hvalidator) h).1 rfl)

lemma handleMsgUnjail_effects {validatorAddr : Address}
    (h : s.handleMsgUnjail env validatorAddr = .ok s') :
    ReflTransGen (Effect env actor) s.rest s'.rest := by
  simp only [handleMsgUnjail, unjail, bind_ok] at h
  obtain ⟨_, _, _, _, _, _, _, _, _, _, validator, hvalidator, h⟩ := h
  exact .single (.rewrite
    (unjailValidator_revised (mustGetValidatorByConsAddr_ok hvalidator) h) rfl)

end
end Irishub.Stake
