import Irishub.Stake.EndBlock

/-!
# Stake: the writes of a run

Every operation of a run is a sequence of writes. An invariant of a run is
therefore a property that each kind of write keeps. `Recording` and `Pending` say
what a write does to the validators with their delegations, and to what waits for
its time.
-/

namespace Irishub.Stake
open Lib Relation Irishub.Distribution State

section
variable {env : Env} {op : Op} {s s' : State}

lemma coin_of_validateBasic {msg : MsgCreateValidator} (h : msg.validateBasic = .ok ()) :
    msg.delegation.isValidIrisAtto = true := by
  simp only [MsgCreateValidator.validateBasic, bind_ok, require_ok] at h
  obtain ⟨_, hcoin, _⟩ := h
  exact hcoin

lemma Op.run_writes (hs : s.Proper) (h : op.run env (appHooks env) s = .ok s') :
    ReflTransGen (Write env op) s.rest s'.rest := by
  cases op with
  | createValidator msg =>
    obtain ⟨_, hbasic, h⟩ := bind_ok.mp h
    exact handleMsgCreateValidator_writes (coin_of_validateBasic hbasic) h
  | editValidator msg =>
    obtain ⟨_, _, h⟩ := bind_ok.mp h
    exact writes_of_effects (handleMsgEditValidator_effects h)
  | delegate msg =>
    obtain ⟨_, hbasic, h⟩ := bind_ok.mp h
    exact writes_of_effects
      (handleMsgDelegate_effects (by simpa [MsgDelegate.validateBasic] using hbasic) h)
  | beginUnbonding msg =>
    obtain ⟨_, _, h⟩ := bind_ok.mp h
    exact writes_of_effects (beginUnbonding_effects h)
  | beginRedelegate msg =>
    obtain ⟨_, _, h⟩ := bind_ok.mp h
    exact writes_of_effects (beginRedelegation_effects h)
  | unjail validatorAddr => exact writes_of_effects (handleMsgUnjail_effects h)
  | jail consAddr => exact writes_of_effects (jail_effects h)
  | slash consAddr infractionHeight power slashFactor =>
    exact writes_of_effects (slash_effects hs h)
  | setSigningInfo consAddr info =>
    cases h
    exact .single (.signingInfo rfl)
  | setWithdrawAddress delAddr withdrawAddr =>
    cases h
    exact .single (.withdrawAddr rfl)
  | withdrawDelegatorRewardsAll delAddr =>
    exact writes_of_effects (effects_of_rewards (withdrawDelegationRewardsAllMsg_rewards h))
  | withdrawDelegatorReward delAddr valAddr =>
    exact writes_of_effects (effects_of_rewards (withdrawDelegationRewardMsg_rewards h))
  | withdrawValidatorRewardsAll valAddr =>
    exact writes_of_effects (effects_of_rewards (withdrawValidatorRewardsAll_rewards h))
  | collectFees payer fee => exact .single (.effect (.collect h))
  | allocateTokens percentVotes proposer => exact .single (.effect (.allocate h))
  | endBlock nextTime => exact endBlock_writes h

end

section
variable {s s' : State} {percentVotes : Dec}

lemma rewardProposer_ok {validator : Validator} {valInfo : ValidatorDistInfo}
    {fees reward : DecCoins}
    (h : s.rewardProposer validator valInfo fees percentVotes = .ok (s', reward)) :
    ∃ infos, s' = { s with distr := { s.distr with validatorDistInfos := infos } } := by
  unfold rewardProposer at h
  split_ifs at h with hjailed
  · cases h
    exact ⟨_, rfl⟩
  · simp only [bind_ok, pure_eq_ok, Prod.mk.injEq] at h
    obtain ⟨_, _, _, _, _, _, _, _, _, _, _, _, _, _, rfl, _⟩ := h
    exact ⟨_, rfl⟩

lemma addCommunityTax_ok {coins : Coins} (h : s.addCommunityTax coins = .ok s') :
    ∃ bank, s.bank.ignoreError (s.bank.addCoins communityTaxCoinsAccAddr coins) = .ok bank ∧
      s' = { s with bank := bank } := by
  simp only [addCommunityTax, bind_ok, pure_eq_ok] at h
  obtain ⟨bank, hbank, rfl⟩ := h
  exact ⟨bank, hbank, rfl⟩

/-- Allocation of fees writes the community tax account and records of the distribution. -/
lemma allocateTokens_ok {proposer : Address} (h : s.allocateTokens percentVotes proposer = .ok s') :
    ∃ coins bank feePool infos,
      s.bank.ignoreError (s.bank.addCoins communityTaxCoinsAccAddr coins) = .ok bank ∧
      s' = { s with
        bank := bank
        collectedFees := []
        distr := { s.distr with feePool := feePool, validatorDistInfos := infos } } := by
  simp only [allocateTokens, bind_ok] at h
  obtain ⟨_, _, _, _, h⟩ := h
  split_ifs at h with hpower
  · simp only [bind_ok, pure_eq_ok] at h
    obtain ⟨_, htax, rfl⟩ := h
    obtain ⟨bank, hbank, rfl⟩ := addCommunityTax_ok htax
    exact ⟨_, bank, _, _, hbank, rfl⟩
  · simp only [allocateShares, bind_ok, pure_eq_ok, Prod.exists] at h
    obtain ⟨s1, _, hreward, _, _, _, _, _, s2, htax, _, _, _, _, _, _, _, _, rfl⟩ := h
    obtain ⟨infos, rfl⟩ := rewardProposer_ok hreward
    obtain ⟨bank, hbank, rfl⟩ := addCommunityTax_ok htax
    exact ⟨_, bank, _, infos, hbank, rfl⟩

lemma collectFees_ok {payer : Address} {fee : Coins} (h : s.collectFees payer fee = .ok s') :
    ∃ bank fees, s.bank.subtractCoins payer fee = .ok bank ∧
      s' = { s with bank := bank, collectedFees := fees } := by
  simp only [collectFees, bind_ok, pure_eq_ok] at h
  obtain ⟨bank, hbank, fees, _, rfl⟩ := h
  exact ⟨bank, fees, hbank, rfl⟩

lemma completeUnbonding_ok {d v : Address} (h : s.completeUnbonding d v = .ok s') :
    ∃ ubd bank, s.stake.unbondingDelegations.get (toLex (d, v)) = some ubd ∧
      s.bank.addCoins d [ubd.balance] = .ok bank ∧
      s' = { s with
        bank := bank
        stake := { s.stake with
          unbondingDelegations := s.stake.unbondingDelegations.delete (toLex (d, v)) } } := by
  simp only [completeUnbonding, getUnbondingDelegation, bind_ok, found_ok,
    Option.map_eq_some_iff, pure_eq_ok] at h
  obtain ⟨_, ⟨ubd, hubd, rfl⟩, bank, hbank, rfl⟩ := h
  exact ⟨ubd, bank, hubd, hbank, rfl⟩

end

section

/-- Records of validators and delegations and the bonded tokens are the same. -/
structure SameRecords (s s' : State) : Prop where
  validators : s'.stake.validators = s.stake.validators
  powerIndex : s'.stake.validatorsByPowerIndex = s.stake.validatorsByPowerIndex
  delegations : s'.stake.delegations = s.stake.delegations
  bondedTokens : s'.stake.bondedTokens = s.stake.bondedTokens

/-- What a write of the given actor does to the records of validators and delegations. The end of a
block may leave the queue of the validators behind. -/
inductive Recording (env : Env) (actor : Actor) (signers : List Address) (ending : Prop) :
    State → State → Prop
  | same {s s' : State} (h : SameRecords s s')
      (hqueue : ¬ending → s'.stake.validatorQueue = s.stake.validatorQueue) :
      Recording env actor signers ending s s'
  | rewrite {s : State} {v : Address} {val : ValidatorValue} {r : Revision} {amount : ℤ}
      (h : Rewrite actor s v val r amount)
      (hqueue : ¬ending → Requeued s v val r.val r.validatorQueue) :
      Recording env actor signers ending s (s.revise v r)
  | remove {s : State} {v : Address} {val : ValidatorValue} {key : PowerRank} {distr : DistrStore}
      (hval : s.stake.validators.get v = some val) (hshares : val.delegatorShares.raw = 0)
      (hstatus : val.status = .unbonded) (hkey : getValidatorPowerRank ⟨val, v⟩ = .ok key) :
      Recording env actor signers ending s
        { s.deleteValidator env ⟨val, v⟩ key with distr := distr }
  | create {s : State} {validator : Validator} {rank : PowerRank} {slashing : SlashingStore}
      (hv : validator.operatorAddr ∈ signers) (h : s.Admits validator rank) :
      Recording env actor signers ending s (s.created env validator rank slashing)

/-- Unbonding delegations and redelegations, the queue of the former and the time are the
same. -/
structure SamePending (s s' : State) : Prop where
  unbondingDelegations : s'.stake.unbondingDelegations = s.stake.unbondingDelegations
  redelegations : s'.stake.redelegations = s.stake.redelegations
  unbondingQueue : s'.stake.unbondingQueue = s.stake.unbondingQueue
  blockTime : s'.blockTime = s.blockTime

/-- What a write of the given actor does to the unbonding delegations and redelegations. At the end
of a block they may leave. -/
inductive Pending (actor : Actor) (ending : Prop) : State → State → Prop
  | same {s s' : State} (h : SamePending s s') : Pending actor ending s s'
  | park {s : State} (ubd : UnbondingDelegation) (hactor : actor = .account ubd.delegatorAddr)
      (hnone : s.stake.unbondingDelegations.get ubd.key = none) :
      Pending actor ending s ((s.setUnbondingDelegation ubd).insertUnbondingQueue ubd)
  | reduce {s : State} {balance : Coin} {bank : Bank} (ubd : UnbondingDelegation)
      (hactor : actor = .slashing)
      (hubd : s.stake.unbondingDelegations.get ubd.key = some ubd.toUbdValue) :
      Pending actor ending s
        { s.setUnbondingDelegation { ubd with balance := balance } with bank := bank }
  | redelegation {s : State} (red : Redelegation)
      (hne : red.validatorSrcAddr ≠ red.validatorDstAddr) :
      Pending actor ending s (s.setRedelegation red)
  | release {s s' : State} (hend : ending)
      (hubds : ∀ k ubd, s'.stake.unbondingDelegations.get k = some ubd →
        s.stake.unbondingDelegations.get k = some ubd)
      (hreds : ∀ k red, s'.stake.redelegations.get k = some red →
        s.stake.redelegations.get k = some red) : Pending actor ending s s'

variable {env : Env} {actor : Actor} {ending : Prop} {s s' : State}

lemma Pending.proper (h : Pending actor ending s s') (hs : s.Proper) : s'.Proper := by
  cases h with
  | same h =>
    intro k red hred
    rw [h.redelegations] at hred
    exact hs k red hred
  | park | reduce => exact hs
  | redelegation red hne => exact Store.forall_set hs hne
  | release hend hubds hreds => exact fun k red hred => hs k red (hreds k red hred)

end

section
variable {env : Env} {actor : Actor} {op : Op} {s s' s'' : State} {t t' : Transit}

def Signing (s s' : State) : Prop :=
  ∀ addr, s'.slashing.signingInfos.get addr = s.slashing.signingInfos.get addr ∨
    s.slashing.signingInfos.get addr = none ∧
      ∃ height, s'.slashing.signingInfos.get addr = some ⟨height, 0, 0, 0⟩

lemma Signing.of_eq (h : s'.slashing = s.slashing) : Signing s s' := by
  intro addr
  rw [h]
  exact .inl rfl

lemma Signing.trans (h : Signing s s') (h' : Signing s' s'') : Signing s s'' := by
  intro addr
  rcases h addr with heq | ⟨hnone, height, hnew⟩
  · rcases h' addr with heq' | ⟨hnone', hnew'⟩
    · exact .inl (heq'.trans heq)
    · exact .inr ⟨heq ▸ hnone', hnew'⟩
  · rcases h' addr with heq' | ⟨hnone', _⟩
    · exact .inr ⟨hnone, height, heq'.trans hnew⟩
    · rw [hnew] at hnone'
      cases hnone'

lemma Reward.withdrawAddrs (h : Reward t t') :
    t'.state.distr.delegatorWithdrawAddrs = t.state.distr.delegatorWithdrawAddrs := by
  cases h with
  | settle hwithdraw hsum | take hinfo hwc htake | commission hinfo hwc hwithdraw hsum => rfl
  | pay hpayee hpay =>
    obtain ⟨_, _, _, _, _, _, _, rfl⟩ := withdrawToDelegator_ok hpay
    rfl
  | touch hnone hinfo | enroll => rfl

/-- What a write does to the records, to what is pending, to the signing infos and to the withdraw
addresses. -/
structure Trace (env : Env) (actor : Actor) (signers : List Address) (ending : Prop)
    (s s' : State) : Prop where
  recording : Recording env actor signers ending s s'
  pending : Pending actor ending s s'
  signing : Signing s s'
  withdrawAddrs : s'.distr.delegatorWithdrawAddrs = s.distr.delegatorWithdrawAddrs

/-- The stake store and the signing infos are the same. -/
lemma Trace.of_stake {signers : List Address} {ending : Prop} (hstake : s'.stake = s.stake)
    (htime : s'.blockTime = s.blockTime) (hslashing : s'.slashing = s.slashing)
    (haddrs : s'.distr.delegatorWithdrawAddrs = s.distr.delegatorWithdrawAddrs) :
    Trace env actor signers ending s s' := by
  refine ⟨.same ?_ (fun _ => ?_), .same ?_, .of_eq hslashing, haddrs⟩
  · constructor <;> rw [hstake]
  · rw [hstake]
  · refine ⟨?_, ?_, ?_, htime⟩ <;> rw [hstake]

lemma Effect.trace (signers : List Address) (ending : Prop) (h : Effect env actor t t') :
    Trace env actor signers ending t.state t'.state := by
  cases h with
  | reward h =>
    have hsame := h.sameStake
    exact .of_stake hsame.stake hsame.blockTime hsame.slashing h.withdrawAddrs
  | aside slashing redelegationQueue hinfos =>
    exact ⟨.same ⟨rfl, rfl, rfl, rfl⟩ (fun _ => rfl), .same ⟨rfl, rfl, rfl, rfl⟩,
      fun addr => (hinfos addr).imp id (fun h => ⟨h.1, _, h.2⟩), rfl⟩
  | rewrite h =>
    cases h with
    | mk h hqueue =>
      exact ⟨.rewrite h (fun _ => hqueue), .same ⟨rfl, rfl, rfl, rfl⟩, .of_eq rfl, rfl⟩
  | removeValidator hval hshares hstatus hkey =>
    exact ⟨.remove hval hshares hstatus hkey, .same ⟨rfl, rfl, rfl, rfl⟩, .of_eq rfl, rfl⟩
  | park ubd hactor hnone =>
    exact ⟨.same ⟨rfl, rfl, rfl, rfl⟩ (fun _ => rfl), .park ubd hactor hnone, .of_eq rfl, rfl⟩
  | burnUnbonding ubd hactor hubd =>
    exact ⟨.same ⟨rfl, rfl, rfl, rfl⟩ (fun _ => rfl), .reduce ubd hactor hubd, .of_eq rfl, rfl⟩
  | redelegation red hne =>
    exact ⟨.same ⟨rfl, rfl, rfl, rfl⟩ (fun _ => rfl), .redelegation red hne, .of_eq rfl, rfl⟩
  | truncate | burn | pay => exact .of_stake rfl rfl rfl rfl
  | collect h =>
    obtain ⟨_, _, _, rfl⟩ := collectFees_ok h
    exact .of_stake rfl rfl rfl rfl
  | allocate h =>
    obtain ⟨_, _, _, _, _, rfl⟩ := allocateTokens_ok h
    exact .of_stake rfl rfl rfl rfl
  | powers =>
    exact ⟨.same ⟨rfl, rfl, rfl, rfl⟩ (fun _ => rfl), .same ⟨rfl, rfl, rfl, rfl⟩, .of_eq rfl, rfl⟩

lemma Write.recording (h : Write env op t t') :
    Recording env op.actor op.signers op.Ends t.state t'.state := by
  cases h with
  | effect h => exact (h.trace _ _).recording
  | create hop haddr slashing h =>
    refine .create ?_ h
    rw [hop, haddr]
    exact List.mem_cons_of_mem _ List.mem_cons_self
  | withdrawAddr | signingInfo | completeRedelegation | nextBlock =>
    exact .same ⟨rfl, rfl, rfl, rfl⟩ (fun _ => rfl)
  | @complete s v val hop hval hstatus =>
    have hbonded : ValidatorValue.bonded { val with status := .unbonded } - val.bonded = 0 := by
      simp [ValidatorValue.bonded, hstatus]
    exact .rewrite (r := ⟨_, s.getPool, _, _, _, _⟩)
      (.of_holding hval rfl rfl (.of_eq hbonded) (.same rfl rfl) rfl) (fun hend => absurd hop hend)
  | dequeue hop => exact .same ⟨rfl, rfl, rfl, rfl⟩ (fun hend => absurd hop hend)
  | completeUnbonding hop h =>
    obtain ⟨_, _, _, _, rfl⟩ := completeUnbonding_ok h
    exact .same ⟨rfl, rfl, rfl, rfl⟩ (fun _ => rfl)

lemma Write.pending (h : Write env op t t') : Pending op.actor op.Ends t.state t'.state := by
  cases h with
  | effect h => exact (h.trace [] _).pending
  | create | withdrawAddr | signingInfo => exact .same ⟨rfl, rfl, rfl, rfl⟩
  | complete hop | dequeue hop | nextBlock hop =>
    exact .release hop (fun _ _ h => h) (fun _ _ h => h)
  | completeUnbonding hop h =>
    obtain ⟨_, _, _, _, rfl⟩ := completeUnbonding_ok h
    exact .release hop (Store.forall_delete (fun _ _ h => h) _) (fun _ _ h => h)
  | completeRedelegation hop =>
    exact .release hop (fun _ _ h => h) (Store.forall_delete (fun _ _ h => h) _)

lemma Write.signing (hop : ∀ addr info, op ≠ .setSigningInfo addr info)
    (h : Write env op t t') : Signing t.state t'.state := by
  cases h with
  | effect h => exact (h.trace [] False).signing
  | create _ haddr slashing h hinfos => exact fun addr => .inl (congrArg (·.get addr) hinfos)
  | signingInfo h => exact absurd h (hop _ _)
  | completeUnbonding hend h =>
    obtain ⟨_, _, _, _, rfl⟩ := completeUnbonding_ok h
    exact .of_eq rfl
  | _ => exact .of_eq rfl

lemma signing_of_op (hs : s.Proper) (hop : ∀ addr info, op ≠ .setSigningInfo addr info)
    (h : op.run env (appHooks env) s = .ok s') : Signing s s' :=
  invariant_of_step (I := fun t : Transit => Signing s t.state)
    (fun _ _ hs hwrite => hs.trans (hwrite.signing hop)) (Op.run_writes hs h) (.of_eq rfl)

end

section
variable {env : Env} {s s' : State} {ops : List Op}

lemma invariant_of_writes {I : Transit → Prop} {C : Op → Prop}
    (hstep : ∀ op t t', C op → I t → Write env op t t' → I t')
    (hops : ∀ op ∈ ops, C op) (hs : s.Proper) (hI : I s.rest) (h : run env s ops = .ok s') :
    I s'.rest := by
  have hloop : Sat AnyFault (fun s => s.Proper ∧ I s.rest) (run env s ops) := by
    refine Sat.foldlM ops s ⟨hs, hI⟩ (fun op hop s1 hs1 => Sat.of_forall (fun s2 hs2 => ?_))
    refine invariant_of_step (I := fun t => t.state.Proper ∧ I t) ?_ (Op.run_writes hs1.1 hs2) hs1
    exact fun t t' ht hwrite =>
      ⟨hwrite.pending.proper ht.1, hstep op t t' (hops op hop) ht.2 hwrite⟩
  exact (hloop.of_ok h).2

lemma proper_of_run (hs : s.Proper) (h : run env s ops = .ok s') : s'.Proper :=
  invariant_of_writes (I := fun t => t.state.Proper) (C := fun _ => True)
    (fun _ _ _ _ ht hwrite => hwrite.pending.proper ht) (fun _ _ => trivial) hs hs h

lemma proper_of_op {op : Op} (hs : s.Proper) (h : op.run env (appHooks env) s = .ok s') :
    s'.Proper := by
  have hrun : run env s [op] = .ok s' := by
    simp only [run, List.foldlM_cons, List.foldlM_nil, h, ok_bind, pure_ok]
  exact proper_of_run hs hrun

lemma State.Genesis.proper (hs : s.Genesis) : s.Proper := by
  intro k red hred
  rw [hs.redelegations] at hred
  cases hred

end
end Irishub.Stake
