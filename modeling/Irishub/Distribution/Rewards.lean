import Irishub.Distribution.Keeper

/-!
# Distribution: the steps of a withdrawal

What the distribution keeper does to the state, as a relation between the states
in the middle of an operation. `Reward` has one constructor for each kind of
write: a delegation is settled, a validator takes its part of the fee pool, its
commission is taken out, withdrawn coins are paid out, the record of a validator
without delegations is moved on, and a new delegation is entered.

Every function of the keeper that a staking operation calls is shown to be a
sequence of such steps.
-/

namespace Irishub.Stake
open Lib Relation Irishub.Distribution State

section

/-- A state in the middle of an operation: `rewards` have been withdrawn and not been paid out,
and `tokens`, in units of `10 ^ (-10)`, have left an account or a validator and not arrived. -/
structure Transit where
  state : State
  rewards : DecCoins
  tokens : ℤ

variable {s s' : State} {t t' : Transit}

def State.Payee (s : State) (d : Address) (rewards : DecCoins) : Prop :=
  (∃ v del, s.stake.delegations.get (toLex (d, v)) = some del) ∨
    (∃ val, s.stake.validators.get d = some val) ∨ rewards = []

/-- A write of the distribution keeper. -/
inductive Reward : Transit → Transit → Prop
  | settle {s : State} {rewards rewards' withdraw : DecCoins} {tokens : ℤ} {d v : Address}
      {feePool : FeePool} {valInfo : ValidatorDistInfo} {delInfo : DelegationDistInfo}
      (hwithdraw : s.withdrawDelegationReward d v = .ok (feePool, valInfo, delInfo, withdraw))
      (hsum : rewards.plus withdraw = .ok rewards') :
      Reward ⟨s, rewards, tokens⟩ ⟨s.setWithdrawn d v feePool valInfo delInfo, rewards', tokens⟩
  | take {s : State} {rewards : DecCoins} {tokens : ℤ} {v : Address} {wc : WithdrawContext}
      {valInfo valInfo' : ValidatorDistInfo} {feePool : FeePool}
      (hinfo : s.getValidatorDistInfo v = .ok valInfo) (hwc : s.getWithdrawContext v = .ok wc)
      (htake : valInfo.takeFeePoolRewards wc = .ok (valInfo', feePool)) :
      Reward ⟨s, rewards, tokens⟩
        ⟨(s.setFeePool feePool).setValidatorDistInfo v valInfo', rewards, tokens⟩
  | commission {s : State} {rewards rewards' commission : DecCoins} {tokens : ℤ} {v : Address}
      {wc : WithdrawContext} {valInfo valInfo' : ValidatorDistInfo} {feePool : FeePool}
      (hinfo : s.getValidatorDistInfo v = .ok valInfo) (hwc : s.getWithdrawContext v = .ok wc)
      (hwithdraw : valInfo.withdrawCommission wc = .ok (valInfo', feePool, commission))
      (hsum : rewards.plus commission = .ok rewards') :
      Reward ⟨s, rewards, tokens⟩
        ⟨(s.setFeePool feePool).setValidatorDistInfo v valInfo', rewards', tokens⟩
  | pay {s s' : State} {rewards : DecCoins} {tokens : ℤ} {d : Address}
      (hpayee : s.Payee d rewards)
      (hpay : s.withdrawToDelegator s.distr.feePool d rewards = .ok s') :
      Reward ⟨s, rewards, tokens⟩ ⟨s', [], tokens⟩
  -- a validator that nobody delegates to
  | touch {s : State} {rewards : DecCoins} {tokens : ℤ} {v : Address} {valInfo : ValidatorDistInfo}
      (hnone : s.getValidatorDelegations v = []) (hinfo : s.getValidatorDistInfo v = .ok valInfo) :
      Reward ⟨s, rewards, tokens⟩
        ⟨s.setValidatorDistInfo v
          { valInfo with
            delAccum := { valInfo.delAccum with updateHeight := s.height }
            feePoolWithdrawalHeight := s.height }, rewards, tokens⟩
  | enroll {s : State} {rewards : DecCoins} {tokens : ℤ} {d v : Address} :
      Reward ⟨s, rewards, tokens⟩ ⟨s.setDelegationDistInfo d v ⟨s.height⟩, rewards, tokens⟩

/-- What no reward changes. -/
structure SameStake (s s' : State) : Prop where
  stake : s'.stake = s.stake
  slashing : s'.slashing = s.slashing
  height : s'.height = s.height
  blockTime : s'.blockTime = s.blockTime
  collectedFees : s'.collectedFees = s.collectedFees
  communityTax : s'.distr.communityTax = s.distr.communityTax
  baseProposerReward : s'.distr.baseProposerReward = s.distr.baseProposerReward
  bonusProposerReward : s'.distr.bonusProposerReward = s.distr.bonusProposerReward

lemma SameStake.refl (s : State) : SameStake s s := ⟨rfl, rfl, rfl, rfl, rfl, rfl, rfl, rfl⟩

lemma SameStake.trans {s'' : State} (h : SameStake s s') (h' : SameStake s' s'') :
    SameStake s s'' where
  stake := h'.stake.trans h.stake
  slashing := h'.slashing.trans h.slashing
  height := h'.height.trans h.height
  blockTime := h'.blockTime.trans h.blockTime
  collectedFees := h'.collectedFees.trans h.collectedFees
  communityTax := h'.communityTax.trans h.communityTax
  baseProposerReward := h'.baseProposerReward.trans h.baseProposerReward
  bonusProposerReward := h'.bonusProposerReward.trans h.bonusProposerReward

lemma withdrawToDelegator_ok {fp : FeePool} {d : Address} {amount : DecCoins}
    (h : s.withdrawToDelegator fp d amount = .ok s') :
    ∃ coins change valPool bank, amount.truncateDecimal = .ok (coins, change) ∧
      fp.valPool.plus change = .ok valPool ∧
      s.bank.addCoins (s.getDelegatorWithdrawAddr d) coins = .ok bank ∧
      s' = { s.setFeePool { fp with valPool := valPool } with bank := bank } := by
  simp only [withdrawToDelegator, bind_ok, panicOnError_ok, pure_eq_ok, Prod.exists] at h
  obtain ⟨coins, change, htruncate, valPool, hplus, bank, hbank, rfl⟩ := h
  exact ⟨coins, change, valPool, bank, htruncate, hplus, hbank, rfl⟩

lemma Reward.sameStake (h : Reward t t') : SameStake t.state t'.state := by
  cases h with
  | pay _ hpay =>
    obtain ⟨_, _, _, _, _, _, _, rfl⟩ := withdrawToDelegator_ok hpay
    exact ⟨rfl, rfl, rfl, rfl, rfl, rfl, rfl, rfl⟩
  | _ => exact ⟨rfl, rfl, rfl, rfl, rfl, rfl, rfl, rfl⟩

lemma sameStake_of_rewards (h : ReflTransGen Reward t t') : SameStake t.state t'.state := by
  refine invariant_of_step (I := fun t' => SameStake t.state t'.state) ?_ h (.refl _)
  intro t1 t2 h1 h2
  exact h1.trans h2.sameStake

end

section
variable {s s' : State} {d v : Address} {x : ℤ} {w : DecCoins}

lemma settleDelegation_rewards (h : s.settleDelegation d v = .ok s') :
    ReflTransGen Reward ⟨s, [], x⟩ ⟨s', [], x⟩ := by
  obtain ⟨⟨fp, vi, di, w⟩, hw, hpay⟩ := bind_ok.mp h
  have hsettle : Reward ⟨s, [], x⟩ ⟨s.setWithdrawn d v fp vi di, w, x⟩ := .settle hw rfl
  simp only [withdrawDelegationReward, getDelegation, bind_ok, deref_ok,
    Option.map_eq_some_iff] at hw
  obtain ⟨_, _, _, _, _, _, _, _, _, ⟨del, hdel, _⟩, _⟩ := hw
  exact (ReflTransGen.single hsettle).tail (.pay (Or.inl ⟨v, del, hdel⟩) hpay)

lemma withdrawDelegationRewardMsg_rewards (h : s.withdrawDelegationRewardMsg d v = .ok s') :
    ReflTransGen Reward ⟨s, [], x⟩ ⟨s', [], x⟩ := by
  obtain ⟨_, _, h⟩ := bind_ok.mp h
  exact settleDelegation_rewards h

lemma mem_delegatorDelegations {delegation : Delegation}
    (h : delegation ∈ s.delegatorDelegations d) :
    s.stake.delegations.get (toLex (d, delegation.validatorAddr)) =
      some delegation.toDelegationValue := by
  simp only [delegatorDelegations, allDelegations, List.mem_filter, List.mem_map,
    decide_eq_true_eq] at h
  obtain ⟨⟨e, he, rfl⟩, rfl⟩ := h
  exact Store.mem_entries.mp he

lemma withdrawDelegationRewardsAll_rewards (h : s.withdrawDelegationRewardsAll d = .ok (s', w)) :
    s'.Payee d w ∧ ReflTransGen Reward ⟨s, [], x⟩ ⟨s', w, x⟩ := by
  have hsteps : ReflTransGen Reward ⟨s, [], x⟩ ⟨s', w, x⟩ := by
    refine invariant_of_foldlM (I := fun r : State × DecCoins =>
      ReflTransGen Reward ⟨s, [], x⟩ ⟨r.1, r.2, x⟩) ?_ h .refl
    rintro ⟨s1, w1⟩ r del hsteps hstep
    obtain ⟨⟨fp, vi, di, diWithdraw⟩, hw, hstep⟩ := bind_ok.mp hstep
    obtain ⟨w2, hsum, hstep⟩ := bind_ok.mp hstep
    cases hstep
    exact hsteps.tail (.settle hw hsum)
  refine ⟨?_, hsteps⟩
  cases hlist : s.delegatorDelegations d with
  | nil =>
    rw [withdrawDelegationRewardsAll, hlist] at h
    cases h
    exact Or.inr (Or.inr rfl)
  | cons delegation _ =>
    have hmem : delegation ∈ s.delegatorDelegations d := by simp [hlist]
    refine Or.inl ⟨delegation.validatorAddr, delegation.toDelegationValue, ?_⟩
    rw [(sameStake_of_rewards hsteps).stake]
    exact mem_delegatorDelegations hmem

lemma withdrawDelegationRewardsAllMsg_rewards (h : s.withdrawDelegationRewardsAllMsg d = .ok s') :
    ReflTransGen Reward ⟨s, [], x⟩ ⟨s', [], x⟩ := by
  obtain ⟨⟨s1, w⟩, hall, hpay⟩ := bind_ok.mp h
  obtain ⟨hpayee, hsteps⟩ := withdrawDelegationRewardsAll_rewards hall
  exact hsteps.tail (.pay hpayee hpay)

lemma payCommission_rewards {s1 : State} {fp : FeePool} {commission sum : DecCoins}
    (h : s.withdrawValidatorCommission v = .ok (s1, fp, commission))
    (hsum : w.plus commission = .ok sum) (hpay : s1.withdrawToDelegator fp v sum = .ok s') :
    ReflTransGen Reward ⟨s, w, x⟩ ⟨s', [], x⟩ := by
  obtain ⟨vi, hvi, h⟩ := bind_ok.mp h
  obtain ⟨wc, hwc, h⟩ := bind_ok.mp h
  obtain ⟨⟨vi', fp', commission'⟩, hwithdraw, h⟩ := bind_ok.mp h
  cases h
  refine (ReflTransGen.single (.commission hvi hwc hwithdraw hsum)).tail (.pay ?_ hpay)
  simp only [getWithdrawContext, getValidator, bind_ok, deref_ok, Option.map_eq_some_iff] at hwc
  obtain ⟨_, ⟨val, hval, _⟩, _⟩ := hwc
  exact Or.inr (Or.inl ⟨val, hval⟩)

lemma withdrawValidatorRewardsAll_rewards (h : s.withdrawValidatorRewardsAll v = .ok s') :
    ReflTransGen Reward ⟨s, [], x⟩ ⟨s', [], x⟩ := by
  obtain ⟨_, _, h⟩ := bind_ok.mp h
  obtain ⟨⟨s1, w⟩, hall, h⟩ := bind_ok.mp h
  obtain ⟨⟨s2, fp, commission⟩, hcommission, h⟩ := bind_ok.mp h
  obtain ⟨sum, hsum, h⟩ := bind_ok.mp h
  obtain ⟨_, _, hpay⟩ := bind_ok.mp h
  obtain ⟨_, hsteps⟩ := withdrawDelegationRewardsAll_rewards (x := x) hall
  exact hsteps.trans (payCommission_rewards hcommission hsum hpay)

lemma settleForValidator_rewards (h : s.settleForValidator v = .ok s') :
    ReflTransGen Reward ⟨s, [], x⟩ ⟨s', [], x⟩ := by
  simp only [settleForValidator] at h
  split_ifs at h with hself hnone
  · exact settleDelegation_rewards h
  · obtain ⟨vi, hvi, h⟩ := bind_ok.mp h
    cases h
    exact .single (.touch hnone hvi)
  · refine invariant_of_foldlM (I := fun s' => ReflTransGen Reward ⟨s, [], x⟩ ⟨s', [], x⟩) ?_ h
      .refl
    intro s1 s2 del hsteps hstep
    exact hsteps.trans (settleDelegation_rewards hstep)

lemma takeValidatorFeePoolRewards_rewards (h : s.takeValidatorFeePoolRewards v = .ok s') :
    ReflTransGen Reward ⟨s, [], x⟩ ⟨s', [], x⟩ := by
  obtain ⟨_, _, h⟩ := bind_ok.mp h
  obtain ⟨s1, hsettle, h⟩ := bind_ok.mp h
  obtain ⟨vi, hvi, h⟩ := bind_ok.mp h
  obtain ⟨wc, hwc, h⟩ := bind_ok.mp h
  obtain ⟨⟨vi', fp⟩, htake, h⟩ := bind_ok.mp h
  cases h
  exact (settleForValidator_rewards hsettle).tail (.take hvi hwc htake)

end

section
variable {s s' : State} {d v : Address} {x : ℤ}

lemma distrValidatorModified_rewards (h : s.distrValidatorModified v = .ok s') :
    ReflTransGen Reward ⟨s, [], x⟩ ⟨s', [], x⟩ := by
  unfold distrValidatorModified at h
  split_ifs at h
  · exact takeValidatorFeePoolRewards_rewards (panicOnError_ok.mp h)
  · cases h
    exact .refl

lemma distrValidatorBonded_rewards (h : s.distrValidatorBonded v = .ok s') :
    ReflTransGen Reward ⟨s, [], x⟩ ⟨s', [], x⟩ := by
  obtain ⟨_, _, h⟩ := bind_ok.mp h
  exact distrValidatorModified_rewards h

lemma distrDelegationCreated_rewards (h : s.distrDelegationCreated d v = .ok s') :
    ReflTransGen Reward ⟨s, [], x⟩ ⟨s', [], x⟩ := by
  obtain ⟨s1, hmodified, h⟩ := bind_ok.mp h
  cases h
  exact (distrValidatorModified_rewards hmodified).tail .enroll

lemma distrDelegationSharesModified_rewards (h : s.distrDelegationSharesModified d v = .ok s') :
    ReflTransGen Reward ⟨s, [], x⟩ ⟨s', [], x⟩ := by
  obtain ⟨s1, hmodified, h⟩ := bind_ok.mp h
  exact (distrValidatorModified_rewards hmodified).trans
    (withdrawDelegationRewardMsg_rewards (panicOnError_ok.mp h))

lemma payOutCommission_rewards (h : s.payOutCommission d v = .ok s') :
    ReflTransGen Reward ⟨s, [], x⟩ ⟨s', [], x⟩ := by
  unfold payOutCommission at h
  split_ifs at h with heq
  · subst heq
    obtain ⟨⟨s1, fp, commission⟩, hcommission, h⟩ := bind_ok.mp h
    obtain ⟨_, _, hpay⟩ := bind_ok.mp h
    exact payCommission_rewards hcommission rfl hpay
  · cases h
    exact .refl

end
end Irishub.Stake
