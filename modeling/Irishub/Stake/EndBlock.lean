import Irishub.Stake.Operations

/-!
# Stake: the end of a block as a sequence of steps

At the end of a block validators enter and leave the bonded set, last powers are
written, and what has become mature is released.
-/

namespace Irishub.Stake
open Lib Relation Irishub.Distribution State
variable {env : Env} {actor : Actor} {op : Op} {s s' : State} {d v : Address}

section
variable {validator validator' : Validator} {consAddr : Address} {l l' : State.UpdateLoop}

lemma updateStatus_ok {pool pool' : Pool}
    {status : BondStatus} (h : validator.updateStatus pool status = .ok (validator', pool')) :
    validator.moveTokens pool status = .ok pool' ∧
      validator' = { validator with status := status } := by
  simp only [Validator.updateStatus, bind_ok, pure_eq_ok, Prod.mk.injEq] at h
  obtain ⟨_, hmove, rfl, rfl⟩ := h
  exact ⟨hmove, rfl⟩

lemma deleteValidatorByPowerIndex_ok (h : s.deleteValidatorByPowerIndex validator = .ok s') :
    ∃ rank, s' = { s with stake := { s.stake with
      validatorsByPowerIndex := s.stake.validatorsByPowerIndex.delete rank } } := by
  simp only [deleteValidatorByPowerIndex, bind_ok, pure_eq_ok] at h
  obtain ⟨rank, _, rfl⟩ := h
  exact ⟨rank, rfl⟩

lemma slashingValidatorBonded_eq (s : State) (address : Address) :
    ∃ slashing, s.slashingValidatorBonded address = { s with slashing := slashing } ∧
      s.KeepsInfos slashing := by
  unfold slashingValidatorBonded
  split_ifs with hinfo
  · exact ⟨_, rfl, fun _ => .inl rfl⟩
  · refine ⟨_, rfl, fun addr => ?_⟩
    change (s.slashing.signingInfos.set address ⟨s.height, 0, 0, 0⟩).get addr = _ ∨ _ ∧
      (s.slashing.signingInfos.set address ⟨s.height, 0, 0, 0⟩).get addr = _
    rw [Store.get_set]
    split_ifs with haddr
    · refine .inr ⟨?_, rfl⟩
      rw [haddr]
      simpa using hinfo
    · exact .inl rfl

lemma effect_slashing {slashing : SlashingStore} (hinfos : s.KeepsInfos slashing) :
    Effect env actor s.rest { s with slashing := slashing }.rest :=
  .aside slashing s.stake.redelegationQueue hinfos

lemma onValidatorBonded_effects (h : (appHooks env).onValidatorBonded s consAddr v = .ok s') :
    ReflTransGen (Effect env actor) s.rest s'.rest := by
  obtain ⟨s1, hmodified, h⟩ := bind_ok.mp h
  obtain ⟨slashing, hslashing, hinfos⟩ := slashingValidatorBonded_eq s1 consAddr
  have hs' : s' = { s1 with slashing := slashing } := (Except.ok.inj h).symm.trans hslashing
  rw [hs']
  exact (effects_of_rewards (distrValidatorBonded_rewards hmodified)).tail (effect_slashing hinfos)

lemma onValidatorBeginUnbonding_effects
    (h : (appHooks env).onValidatorBeginUnbonding s consAddr v = .ok s') :
    ReflTransGen (Effect env actor) s.rest s'.rest := by
  obtain ⟨s1, hmodified, h⟩ := bind_ok.mp h
  obtain ⟨⟨key, period⟩, _, h⟩ := bind_ok.mp h
  cases h
  exact (effects_of_rewards (distrValidatorModified_rewards hmodified)).tail
    (effect_slashing (fun _ => .inl rfl))

lemma bondValidator_effects
    (hval : s.getValidator v = some validator) (hstatus : validator.status ≠ .bonded)
    (h : s.bondValidator env (appHooks env) validator = .ok (s', validator')) :
    ReflTransGen (Effect env actor) s.rest s'.rest := by
  obtain ⟨val, u⟩ := validator
  obtain ⟨hget, rfl⟩ := getValidator_eq_some.mp hval
  simp only [bondValidator, bind_ok, pure_eq_ok, Prod.mk.injEq, Prod.exists] at h
  obtain ⟨s0, hdelete, _, pool, hupdate, s1, hset, s2, hhook, rfl, rfl⟩ := h
  obtain ⟨hmove, rfl⟩ := updateStatus_ok hupdate
  have hreplace := replaceValidator_of_delete hdelete hset
  obtain ⟨_, rfl⟩ := deleteValidatorByPowerIndex_ok hdelete
  exact ReflTransGen.head
    (.rewrite (bond_revised hget hstatus rfl hmove hreplace) (zero_add 0).symm)
    (onValidatorBonded_effects hhook)

lemma beginUnbondingValidator_effects (hval : s.getValidator v = some validator)
    (h : s.beginUnbondingValidator env (appHooks env) validator = .ok s') :
    ReflTransGen (Effect env actor) s.rest s'.rest := by
  obtain ⟨val, u⟩ := validator
  obtain ⟨hget, rfl⟩ := getValidator_eq_some.mp hval
  simp only [beginUnbondingValidator, bind_ok, assert_ok, decide_eq_true_eq, Prod.exists] at h
  obtain ⟨s0, hdelete, _, hstatus, _, pool, hupdate, s1, hset, hhook⟩ := h
  obtain ⟨hmove, rfl⟩ := updateStatus_ok hupdate
  have hreplace := replaceValidator_of_delete hdelete hset
  obtain ⟨_, rfl⟩ := deleteValidatorByPowerIndex_ok hdelete
  exact ReflTransGen.head
    (.rewrite (unbond_revised hget hstatus rfl hmove hreplace) (zero_add 0).symm)
    (onValidatorBeginUnbonding_effects hhook)

lemma toBonded_effects (hval : s.getValidator v = some validator)
    (h : s.toBonded env (appHooks env) validator = .ok (s', validator')) :
    ReflTransGen (Effect env actor) s.rest s'.rest := by
  unfold toBonded at h
  cases hstatus : validator.status with
  | unbonded | unbonding =>
    rw [hstatus] at h
    obtain ⟨_, _, h⟩ := bind_ok.mp h
    exact bondValidator_effects hval (by simp [hstatus]) h
  | bonded =>
    rw [hstatus] at h
    cases h
    exact .refl

lemma distrValidatorPowerDidChange_ok (h : s.distrValidatorPowerDidChange v = .ok s') : s' = s := by
  simp only [distrValidatorPowerDidChange, bind_ok, pure_eq_ok] at h
  obtain ⟨_, _, _, _, rfl⟩ := h
  rfl

lemma updatePower_effects {power : ℤ}
    (h : State.UpdateLoop.updatePower env (appHooks env) l validator power = .ok l') :
    ReflTransGen (Effect env actor) l.state.rest l'.state.rest := by
  unfold State.UpdateLoop.updatePower at h
  split_ifs at h
  · cases h
    exact .refl
  · simp only [appHooks_validatorPowerDidChange, bind_ok, pure_eq_ok] at h
    obtain ⟨s1, hhook, rfl⟩ := h
    rw [distrValidatorPowerDidChange_ok hhook]
    exact .single (.powers _ l.state.stake.lastTotalPower)

lemma keep_effects (hval : l.state.getValidator v = some validator)
    (h : State.UpdateLoop.keep env (appHooks env) l validator = .ok l') :
    ReflTransGen (Effect env actor) l.state.rest l'.state.rest := by
  simp only [State.UpdateLoop.keep, bind_ok, pure_eq_ok, Prod.exists] at h
  obtain ⟨s1, validator1, hbonded, _, _, l1, hupdate, _, _, rfl⟩ := h
  exact (toBonded_effects hval hbonded).trans (updatePower_effects hupdate)

lemma run_effects {maxValidators : ℕ} {addrs : List Address}
    (h : State.UpdateLoop.run env (appHooks env) maxValidators addrs l = .ok l') :
    ReflTransGen (Effect env actor) l.state.rest l'.state.rest := by
  induction addrs generalizing l with
  | nil =>
    cases h
    exact .refl
  | cons valAddr addrs ih =>
    rw [State.UpdateLoop.run] at h
    split_ifs at h with hcount
    · simp only [mustGetValidator, bind_ok, deref_ok] at h
      obtain ⟨validator, hval, _, _, power, _, h⟩ := h
      split_ifs at h with hzero
      · cases h
        exact .refl
      · obtain ⟨l1, hkeep, h⟩ := bind_ok.mp h
        exact (keep_effects hval hkeep).trans (ih h)
    · cases h
      exact .refl

lemma dropValidator_effects {r r' : State × List ValidatorUpdate}
    (h : State.dropValidator env (appHooks env) r v = .ok r') :
    ReflTransGen (Effect env actor) r.1.rest r'.1.rest := by
  simp only [dropValidator, mustGetValidator, bondedToUnbonding, bind_ok, deref_ok, pure_eq_ok] at h
  obtain ⟨validator, hval, s1, ⟨_, _, hunbonding⟩, rfl⟩ := h
  exact (beginUnbondingValidator_effects hval hunbonding).tail
    (.powers _ s1.stake.lastTotalPower)

lemma applyAndReturnValidatorSetUpdates_effects {updates : List ValidatorUpdate}
    (h : s.applyAndReturnValidatorSetUpdates env (appHooks env) = .ok (s', updates)) :
    ReflTransGen (Effect env actor) s.rest s'.rest := by
  simp only [applyAndReturnValidatorSetUpdates, bind_ok, pure_eq_ok,
    Prod.mk.injEq, Prod.exists] at h
  obtain ⟨l, hrun, s1, updates, hdrop, rfl, rfl⟩ := h
  have hdropped : ReflTransGen (Effect env actor) s.rest s1.rest :=
    invariant_of_foldlM (I := fun r : State × List ValidatorUpdate =>
      ReflTransGen (Effect env actor) s.rest r.1.rest)
      (fun _ _ _ hsteps hstep => hsteps.trans (dropValidator_effects hstep)) hdrop
      (run_effects hrun)
  split_ifs
  · exact hdropped
  · exact hdropped.tail (.powers s1.stake.lastValidatorPowers _)

end

section
variable {nextTime : ℤ}

lemma unbondingToUnbonded_eq {val : ValidatorValue} (hstatus : val.status = .unbonding) :
    s.unbondingToUnbonded ⟨val, v⟩ =
      .ok (s.setValidator ⟨{ val with status := .unbonded }, v⟩) := by
  simp only [unbondingToUnbonded, hstatus, decide_true, assert, if_true, ok_bind,
    completeUnbondingValidator, Validator.updateStatus, Validator.moveTokens, pure_ok]
  rfl

lemma unbondMature_writes (hop : op.Ends) (h : s.unbondMature env (appHooks env) v = .ok s') :
    ReflTransGen (Write env op) s.rest s'.rest := by
  unfold unbondMature at h
  split at h
  · cases h
    exact .refl
  · rename_i validator hvalidator
    obtain ⟨val, u⟩ := validator
    obtain ⟨hget, rfl⟩ := getValidator_eq_some.mp hvalidator
    obtain ⟨_, hassert, h⟩ := bind_ok.mp h
    have hstatus : val.status = .unbonding := by simpa using hassert
    rw [unbondingToUnbonded_eq hstatus, ok_bind] at h
    refine ReflTransGen.head (.complete hop hget hstatus) ?_
    split_ifs at h with hempty
    · have hval : (s.setValidator ⟨{ val with status := .unbonded }, u⟩).stake.validators.get u =
          some { val with status := .unbonded } := Store.get_set_self _ _ _
      exact writes_of_effects (removeValidator_effects hval (by simpa using hempty) h).1
    · cases h
      exact .refl

lemma foldlM_writes {ι : Type} {f : State → ι → Outcome State} {l : List ι}
    (hf : ∀ s s' i, f s i = .ok s' → ReflTransGen (Write env op) s.rest s'.rest)
    (h : l.foldlM f s = .ok s') : ReflTransGen (Write env op) s.rest s'.rest :=
  invariant_of_foldlM (I := fun s' => ReflTransGen (Write env op) s.rest s'.rest)
    (fun s1 s2 i hsteps hstep => hsteps.trans (hf s1 s2 i hstep)) h .refl

lemma unbondTimeSlice_writes {slice : ℤ × List Address} (hop : op.Ends)
    (h : s.unbondTimeSlice env (appHooks env) slice = .ok s') :
    ReflTransGen (Write env op) s.rest s'.rest := by
  obtain ⟨s1, hloop, h⟩ := bind_ok.mp h
  cases h
  exact (foldlM_writes (fun _ _ _ hstep => unbondMature_writes hop hstep) hloop).tail
    (.dequeue hop _ _ _)

lemma skipError_writes {c : Outcome State}
    (hc : c = .ok s' → ReflTransGen (Write env op) s.rest s'.rest)
    (h : s.skipError c = .ok s') : ReflTransGen (Write env op) s.rest s'.rest := by
  unfold skipError at h
  split at h
  · cases h
    exact .refl
  · exact hc h

lemma completeRedelegation_writes {u : Address} (hop : op.Ends)
    (h : s.completeRedelegation d v u = .ok s') : ReflTransGen (Write env op) s.rest s'.rest := by
  simp only [completeRedelegation, bind_ok, pure_eq_ok] at h
  obtain ⟨red, _, _, _, rfl⟩ := h
  exact .single (.completeRedelegation hop red)

/-- End of a block after the validator set has been updated. -/
def State.releaseMature (env : Env) (hooks : Hooks) (s : State) : Outcome State := do
  let s ← s.unbondAllMatureValidatorQueue env hooks
  let (matureUnbonds, s) := s.dequeueAllMatureUnbondingQueue
  let s ← matureUnbonds.foldlM (fun s dvPair =>
    s.skipError (s.completeUnbonding dvPair.delegatorAddr dvPair.validatorAddr)) s
  let (matureRedelegations, s) := s.dequeueAllMatureRedelegationQueue
  matureRedelegations.foldlM (fun s dvvTriplet =>
    s.skipError (s.completeRedelegation dvvTriplet.delegatorAddr dvvTriplet.validatorSrcAddr
      dvvTriplet.validatorDstAddr)) s

lemma releaseMature_writes (hop : op.Ends) (h : s.releaseMature env (appHooks env) = .ok s') :
    ReflTransGen (Write env op) s.rest s'.rest := by
  simp only [releaseMature, bind_ok] at h
  obtain ⟨s1, hvalidators, s2, hunbonding, hredelegations⟩ := h
  have hsteps1 : ReflTransGen (Write env op) s.rest s1.rest :=
    foldlM_writes (fun _ _ _ hstep => unbondTimeSlice_writes hop hstep) hvalidators
  have hsteps2 : ReflTransGen (Write env op) s1.dequeueAllMatureUnbondingQueue.2.rest s2.rest :=
    foldlM_writes (fun _ _ _ hstep => skipError_writes
      (fun h => .single (.completeUnbonding hop h)) hstep) hunbonding
  have hsteps3 : ReflTransGen (Write env op) s2.dequeueAllMatureRedelegationQueue.2.rest s'.rest :=
    foldlM_writes (fun _ _ _ hstep => skipError_writes
      (fun h => completeRedelegation_writes hop h) hstep) hredelegations
  have hdequeue : Write env op s1.rest s1.dequeueAllMatureUnbondingQueue.2.rest :=
    .dequeue hop _ s1.stake.redelegationQueue s1.stake.validatorQueue
  have hdequeue2 : Write env op s2.rest s2.dequeueAllMatureRedelegationQueue.2.rest :=
    .dequeue hop s2.stake.unbondingQueue _ s2.stake.validatorQueue
  exact (((hsteps1.tail hdequeue).trans hsteps2).tail hdequeue2).trans hsteps3

lemma endBlock_ok (h : s.endBlock env (appHooks env) nextTime = .ok s') :
    ∃ s1 updates s2, s.applyAndReturnValidatorSetUpdates env (appHooks env) = .ok (s1, updates) ∧
      s1.releaseMature env (appHooks env) = .ok s2 ∧
      s' = { s2 with height := s2.height + 1, blockTime := nextTime } := by
  simp only [endBlock, endBlocker, bind_ok, pure_eq_ok, Prod.mk.injEq, Prod.exists] at h
  obtain ⟨s2, _, ⟨s1, updates, happly, s3, hunbond, s4, hcomplete, s5, hredelegate, rfl, _⟩,
    rfl⟩ := h
  refine ⟨s1, updates, _, happly, ?_, rfl⟩
  simp only [releaseMature, bind_ok]
  exact ⟨s3, hunbond, s4, hcomplete, hredelegate⟩

lemma endBlock_writes (h : s.endBlock env (appHooks env) nextTime = .ok s') :
    ReflTransGen (Write env (.endBlock nextTime)) s.rest s'.rest := by
  obtain ⟨s1, updates, s2, happly, hrelease, rfl⟩ := endBlock_ok h
  have hset : ReflTransGen (Write env (.endBlock nextTime)) s.rest s1.rest :=
    writes_of_effects (applyAndReturnValidatorSetUpdates_effects happly)
  exact (hset.trans (releaseMature_writes ⟨nextTime, rfl⟩ hrelease)).tail
    (.nextBlock ⟨nextTime, rfl⟩)

end
end Irishub.Stake
