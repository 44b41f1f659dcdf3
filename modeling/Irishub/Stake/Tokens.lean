import Irishub.Stake.Holdings

/-!
# Stake: bonded and loose tokens

The bonded tokens of the pool are the tokens of the bonded validators, and the
tokens of a validator are whole. The supply, bonded and loose tokens together,
changes in a slash only, and there by what validators and unbonding delegations
lose.

Coins that arrive at the burning address leave the supply as well. Nobody signs
for that address, and the runs considered here do not send rewards to it.
-/

namespace Irishub.Stake
open Lib Relation Irishub.Distribution State Store Bank Dec Option

section

/-- Bonded tokens are accounted for by the validators, in whole tokens. -/
structure State.Accounted (s : State) : Prop where
  whole : ∀ v val, s.stake.validators.get v = some val → Dec.precision ∣ val.tokens.raw
  bonded : s.stake.bondedTokens.raw =
    Store.total (fun _ val => ValidatorValue.bonded val) s.stake.validators

variable {env : Env} {actor : Actor} {signers : List Address} {s s' : State} {v : Address}
  {val : ValidatorValue} {r : Revision} {amount : ℤ}

lemma State.Accounted.congr (h : s.Accounted)
    (hvalidators : s'.stake.validators = s.stake.validators)
    (hbonded : s'.stake.bondedTokens = s.stake.bondedTokens) : s'.Accounted where
  whole := by
    rw [hvalidators]
    exact h.whole
  bonded := by
    rw [hvalidators, hbonded]
    exact h.bonded

lemma Rewrite.accounted (h : Rewrite actor s v val r amount) (hs : s.Accounted) :
    (s.revise v r).Accounted where
  whole := by
    have hwhole := hs.whole v val h.get
    refine forall_set hs.whole ?_
    rw [h.tokens]
    exact dvd_sub hwhole (h.whole hwhole)
  bonded := by
    have hbonded : r.pool.bondedTokens.raw = s.stake.bondedTokens.raw + _ := h.pool.bonded
    simp only [revise, total_set, contribution, h.get, hbonded, hs.bonded, elim_some]
    ring

lemma State.Admits.accounted {validator : Validator} {rank : PowerRank} {slashing : SlashingStore}
    (h : s.Admits validator rank) (hs : s.Accounted) :
    (s.created env validator rank slashing).Accounted := by
  refine ⟨forall_set hs.whole ?_, ?_⟩
  · rw [h.tokens]
    exact dvd_zero _
  · change s.stake.bondedTokens.raw = total _ (s.stake.validators.set _ _)
    rw [total_set, contribution, h.none, ← hs.bonded]
    simp [ValidatorValue.bonded, h.status]

lemma Recording.accounted {ending : Prop} (h : Recording env actor signers ending s s')
    (hs : s.Accounted) : s'.Accounted := by
  cases h with
  | same h => exact hs.congr h.validators h.bondedTokens
  | rewrite h => exact h.accounted hs
  | remove hval hshares hstatus =>
    refine ⟨forall_delete hs.whole _, ?_⟩
    simp only [deleteValidator, total_delete, contribution, hval,
      elim_some, ValidatorValue.bonded, hstatus, reduceCtorEq, if_false, sub_zero]
    exact hs.bonded
  | create hv h => exact h.accounted hs

lemma State.Genesis.accounted (hs : s.Genesis) : s.Accounted := by
  refine ⟨by simp [hs.validators], ?_⟩
  rw [hs.validators, hs.bondedTokens]
  rfl

end

section

/-- Every account that tokens or rewards may be sent to satisfies `P`. -/
structure State.Among (P : Address → Prop) (s : State) : Prop where
  delegator : ∀ k del, s.stake.delegations.get k = some del → P (ofLex k).1
  operator : ∀ v val, s.stake.validators.get v = some val → P v
  unbonding : ∀ k ubd, s.stake.unbondingDelegations.get k = some ubd → P (ofLex k).1
  withdraw : ∀ d w, s.distr.delegatorWithdrawAddrs.get d = some w → P w

variable {env : Env} {op : Op} {actor : Actor} {signers : List Address} {s s' : State}
  {t t' : Transit} {P : Address → Prop} {ending : Prop}

lemma Reshared.among {v : Address} {val val' : ValidatorValue}
    {delegations delegations' : Store DVKey DelegationValue}
    (h : Reshared actor v val val' delegations delegations') (hP : ∀ a, actor = .account a → P a)
    (hs : ∀ k del, delegations.get k = some del → P (ofLex k).1) :
    ∀ k del, delegations'.get k = some del → P (ofLex k).1 := by
  cases h with
  | same => exact hs
  | set hd =>
    refine forall_set hs ?_
    rcases hd with ⟨old, hold⟩ | hactor
    · exact hs _ old hold
    · exact hP _ hactor
  | delete => exact forall_delete hs _

lemma Recording.among (h : Recording env actor signers ending s s')
    (hactor : ∀ a, actor = .account a → P a) (hP : ∀ a ∈ signers, P a)
    (hdelegator : ∀ k del, s.stake.delegations.get k = some del → P (ofLex k).1)
    (hoperator : ∀ v val, s.stake.validators.get v = some val → P v) :
    (∀ k del, s'.stake.delegations.get k = some del → P (ofLex k).1) ∧
      ∀ v val, s'.stake.validators.get v = some val → P v := by
  cases h with
  | same h =>
    rw [h.delegations, h.validators]
    exact ⟨hdelegator, hoperator⟩
  | rewrite h =>
    exact ⟨h.shares.among hactor hdelegator, forall_set hoperator (hoperator _ _ h.get)⟩
  | remove => exact ⟨hdelegator, forall_delete hoperator _⟩
  | create hv h => exact ⟨hdelegator, forall_set hoperator (hP _ hv)⟩

lemma Pending.among (h : Pending actor ending s s') (hP : ∀ a, actor = .account a → P a)
    (hunbonding : ∀ k ubd, s.stake.unbondingDelegations.get k = some ubd → P (ofLex k).1) :
    ∀ k ubd, s'.stake.unbondingDelegations.get k = some ubd → P (ofLex k).1 := by
  cases h with
  | same h =>
    rw [h.unbondingDelegations]
    exact hunbonding
  | park ubd hactor => exact forall_set hunbonding (hP _ hactor)
  | reduce ubd hactor hubd => exact forall_set hunbonding (hunbonding _ _ hubd)
  | redelegation => exact hunbonding
  | release hend hubds => exact fun k ubd hubd => hunbonding k ubd (hubds k ubd hubd)

lemma Effect.among (h : Effect env actor t t') (hP : ∀ a, actor = .account a → P a)
    (hs : t.state.Among P) : t'.state.Among P := by
  have htrace := h.trace [] False
  obtain ⟨hdelegator, hoperator⟩ := htrace.recording.among hP (by simp) hs.delegator hs.operator
  refine ⟨hdelegator, hoperator, htrace.pending.among hP hs.unbonding, ?_⟩
  rw [htrace.withdrawAddrs]
  exact hs.withdraw

lemma Write.among (h : Write env op t t') (hP : ∀ a ∈ op.signers, P a)
    (hwithdraw : ∀ d w, op = .setWithdrawAddress d w → P w) (hs : t.state.Among P) :
    t'.state.Among P := by
  have hactor : ∀ a, op.actor = .account a → P a := fun a ha => hP a (Op.mem_signers_of_actor ha)
  obtain ⟨hdelegator, hoperator⟩ := h.recording.among hactor hP hs.delegator hs.operator
  refine ⟨hdelegator, hoperator, h.pending.among hactor hs.unbonding, ?_⟩
  cases h with
  | effect h =>
    rw [(h.trace [] False).withdrawAddrs]
    exact hs.withdraw
  | withdrawAddr hop => exact forall_set hs.withdraw (hwithdraw _ _ hop)
  | completeUnbonding hop h =>
    obtain ⟨_, _, _, _, rfl⟩ := completeUnbonding_ok h
    exact hs.withdraw
  | _ => exact hs.withdraw

end

section

/-- Bonded and loose tokens together, in units of `10 ^ (-10)`. -/
def State.supply (s : State) : ℤ := s.getPool.supply

/-- Tokens of the validators and of the unbonding delegations, in units of `10 ^ (-10)`. -/
def State.staked (s : State) : ℤ :=
  Store.total (fun _ val => val.tokens.raw) s.stake.validators +
    Store.total (fun _ ubd => ubd.balance.amount * Dec.precision) s.stake.unbondingDelegations

def Transit.unstaked (t : Transit) : ℤ := t.state.supply - t.state.staked - t.tokens

def Unburned (addr : Address) : Prop := addr ≠ burnedCoinsAccAddr

variable {env : Env} {op : Op} {actor : Actor} {s s' : State} {t t' : Transit} {v : Address}
  {val val' : ValidatorValue} {amount : ℤ} {b b' : Bank} {addr : Address} {amt : Coins}

lemma staked_set (hval : s.stake.validators.get v = some val)
    (hvalidators : s'.stake.validators = s.stake.validators.set v val')
    (hunbonding : s'.stake.unbondingDelegations = s.stake.unbondingDelegations)
    (htokens : val'.tokens.raw = val.tokens.raw - amount) : s'.staked = s.staked - amount := by
  unfold staked
  rw [hvalidators, hunbonding, total_set, contribution, hval, htokens]
  simp only [elim_some]
  ring

lemma staked_congr (hvalidators : s'.stake.validators = s.stake.validators)
    (hunbonding : s'.stake.unbondingDelegations = s.stake.unbondingDelegations) :
    s'.staked = s.staked := by
  unfold staked
  rw [hvalidators, hunbonding]

lemma loosen_of_addCoins (haddr : Unburned addr)
    (h : b.addCoins addr amt = .ok b') : b'.loosen = b.loosen := by
  rw [loosen_addCoins (fun heq => absurd heq haddr) h, if_neg haddr, sub_zero]

lemma loosen_of_subtractCoins (h : b.subtractCoins addr amt = .ok b') : b'.loosen = b.loosen := by
  rw [loosen, loosen, subtractCoins_totalLoosenToken h]

lemma Reward.supply (h : Reward t t') (hs : t.state.Among Unburned) :
    t'.state.supply = t.state.supply := by
  cases h with
  | settle hwithdraw hsum | take hinfo hwc htake | commission hinfo hwc hwithdraw hsum => rfl
  | @pay s _ rewards _ d hpayee hpay =>
    obtain ⟨coins, _, _, bank, htruncate, _, hadd, rfl⟩ := withdrawToDelegator_ok hpay
    have hloosen : bank.loosen = s.bank.loosen := by
      by_cases hempty : rewards = []
      · subst hempty
        cases htruncate
        rw [loosen_addCoins (fun _ => Coins.Steady.of_length_le (by simp)) hadd]
        simp
      · refine loosen_of_addCoins ?_ hadd
        unfold getDelegatorWithdrawAddr
        cases hw : s.distr.delegatorWithdrawAddrs.get d with
        | some w => exact hs.withdraw d w hw
        | none =>
          rcases hpayee with ⟨v, del, hdel⟩ | ⟨val, hval⟩ | hnone
          · exact hs.delegator _ del hdel
          · exact hs.operator d val hval
          · exact absurd hnone hempty
    simp only [supply, getPool, Pool.supply, hloosen]
    rfl
  | touch hnone hinfo | enroll => rfl

lemma Reward.tokens (h : Reward t t') : t'.tokens = t.tokens := by cases h <;> rfl

/-- What a write does to the supply: the slashing module takes from it what it takes from the staked
tokens, and any other write leaves it alone. -/
structure Flow (actor : Actor) (t t' : Transit) : Prop where
  whole : Dec.precision ∣ t'.tokens
  supply : actor ≠ .slashing → t'.state.supply = t.state.supply
  burned : actor = .slashing →
    t'.state.supply ≤ t.state.supply ∧ t'.unstaked = t.unstaked

lemma Flow.of_leaving (hwhole : precision ∣ t.tokens)
    (hamount : precision ∣ amount) (htokens : t'.tokens = t.tokens + amount)
    (hsupply : t'.state.supply = t.state.supply)
    (hstaked : t'.state.staked = t.state.staked - amount) : Flow actor t t' where
  whole := htokens ▸ dvd_add hwhole hamount
  supply _ := hsupply
  burned _ := by
    refine ⟨hsupply.le, ?_⟩
    rw [Transit.unstaked, Transit.unstaked, hsupply, hstaked, htokens]
    ring

lemma Flow.of_eq (hwhole : precision ∣ t.tokens) (htokens : t'.tokens = t.tokens)
    (hsupply : t'.state.supply = t.state.supply) (hstaked : t'.state.staked = t.state.staked) :
    Flow actor t t' :=
  .of_leaving hwhole (dvd_zero _) (by rw [htokens, add_zero]) hsupply (by rw [hstaked, sub_zero])

lemma Flow.of_burn (hactor : actor = .slashing) (hamount : 0 ≤ amount)
    (hbank : t.state.bank.decreaseTotalLoosenToken [⟨stakeDenom, amount⟩] = .ok t'.state.bank)
    (hbonded : t'.state.stake.bondedTokens = t.state.stake.bondedTokens)
    (hwhole : precision ∣ t'.tokens)
    (hstaked : t'.state.staked + t'.tokens = t.state.staked + t.tokens - amount * precision) :
    Flow actor t t' := by
  have hsupply : t'.state.supply = t.state.supply - amount * precision := by
    simp only [State.supply, getPool, Pool.supply, hbonded,
      loosen_decreaseTotalLoosenToken hamount hbank]
    ring
  refine ⟨hwhole, fun hne => absurd hactor hne, fun _ => ⟨?_, ?_⟩⟩
  · exact hsupply ▸ sub_le_self _ (mul_nonneg hamount precision_pos.le)
  · simp only [Transit.unstaked, hsupply]
    linarith

lemma Effect.flow (h : Effect env actor t t') (hamong : t.state.Among Unburned)
    (hholdings : t.state.Holdings) (haccounted : t.state.Accounted)
    (hwhole : precision ∣ t.tokens) : Flow actor t t' := by
  cases h with
  | reward h =>
    have hsame := h.sameStake
    exact .of_eq hwhole h.tokens (h.supply hamong)
      (staked_congr (by rw [hsame.stake]) (by rw [hsame.stake]))
  | aside | redelegation | powers => exact .of_eq hwhole rfl rfl rfl
  | rewrite h hx =>
    cases h with
    | mk h =>
      exact .of_leaving hwhole (h.whole (haccounted.whole _ _ h.get)) hx h.pool.supply
        (staked_set h.get rfl rfl h.tokens)
  | removeValidator hval hshares =>
    refine .of_eq hwhole rfl rfl ?_
    -- a validator without shares has no tokens
    have hnone := (hholdings.backed _ _ hval).empty hshares
    simp only [staked, deleteValidator, total_delete, contribution, hval,
      elim_some, hnone, sub_zero]
  | truncate => exact .of_eq hwhole (Int.tdiv_mul_cancel hwhole) rfl rfl
  | park ubd hactor =>
    refine ⟨dvd_zero _, fun _ => rfl, fun hslashing => ?_⟩
    rw [hactor] at hslashing
    cases hslashing
  | burn hactor hamount h =>
    refine .of_burn hactor hamount h rfl (dvd_zero _) ?_
    simp only [rest, add_zero, add_sub_cancel_right]
    rfl
  | burnUnbonding ubd hactor hubd hamount h =>
    refine .of_burn hactor hamount h rfl hwhole ?_
    rw [UnbondingDelegation.key] at hubd
    simp only [staked, setUnbondingDelegation, total_set, contribution, hubd, elim_some]
    ring
  | pay hactor hcoin h =>
    refine ⟨dvd_add hwhole (Dvd.intro_left _ rfl), fun _ => ?_, fun hslashing => ?_⟩
    · simp only [supply, getPool, Pool.supply, loosen_of_subtractCoins h]
    · rw [hactor] at hslashing
      cases hslashing
  | collect h =>
    obtain ⟨bank, _, hbank, rfl⟩ := collectFees_ok h
    refine .of_eq hwhole rfl ?_ rfl
    simp only [supply, getPool, Pool.supply, loosen_of_subtractCoins hbank]
  | @allocate s _ _ _ _ h =>
    obtain ⟨coins, bank, _, _, hbank, rfl⟩ := allocateTokens_ok h
    refine .of_eq hwhole rfl ?_ rfl
    have hloosen : bank.loosen = s.bank.loosen := by
      unfold ignoreError at hbank
      split at hbank
      · cases hbank
        rfl
      · exact loosen_of_addCoins (by unfold Unburned; decide) hbank
    simp only [supply, getPool, Pool.supply, hloosen]

/-- Nothing is sent to the burning address, and tokens on their way are whole. -/
structure Transit.Orderly (t : Transit) : Prop where
  among : t.state.Among Unburned
  holdings : t.state.Holdings
  accounted : t.state.Accounted
  whole : Dec.precision ∣ t.tokens

lemma Write.supply (h : Write env op t t') (ht : t.Orderly) :
    precision ∣ t'.tokens ∧ (op.actor ≠ .slashing → t'.state.supply = t.state.supply) := by
  cases h with
  | effect h =>
    have hflow := h.flow ht.among ht.holdings ht.accounted ht.whole
    exact ⟨hflow.whole, hflow.supply⟩
  | completeUnbonding hop h =>
    obtain ⟨ubd, bank, hubd, hbank, rfl⟩ := completeUnbonding_ok h
    refine ⟨ht.whole, fun _ => ?_⟩
    simp only [rest, supply, getPool, Pool.supply,
      loosen_of_addCoins (ht.among.unbonding _ ubd hubd) hbank]
  | _ => exact ⟨ht.whole, fun _ => rfl⟩

def Op.Spares (op : Op) : Prop :=
  (∀ a ∈ op.signers, Unburned a) ∧ ∀ d w, op = .setWithdrawAddress d w → Unburned w

lemma Write.orderly (h : Write env op t t') (hop : op.Spares) (ht : t.Orderly) : t'.Orderly where
  among := h.among hop.1 hop.2 ht.among
  holdings := h.recording.holdings ht.holdings
  accounted := h.recording.accounted ht.accounted
  whole := (h.supply ht).1

lemma orderly_of_run {ops : List Op} (hs : s.Genesis)
    (hwithdraw : ∀ d w, s.distr.delegatorWithdrawAddrs.get d = some w → Unburned w)
    (hops : ∀ op ∈ ops, op.Spares) (h : run env s ops = .ok s') : s'.rest.Orderly := by
  refine invariant_of_writes (I := Transit.Orderly) (C := Op.Spares)
    (fun op t t' hop ht hwrite => hwrite.orderly hop ht) hops hs.proper ?_ h
  refine ⟨⟨?_, ?_, ?_, hwithdraw⟩, hs.holdings, hs.accounted, dvd_zero _⟩
  · simp [rest, hs.delegations]
  · simp [rest, hs.validators]
  · simp [rest, hs.unbondingDelegations]

lemma supply_of_op (hop : op.Spares) (hactor : op.actor ≠ .slashing) (hproper : s.Proper)
    (hs : s.rest.Orderly) (h : op.run env (appHooks env) s = .ok s') : s'.supply = s.supply := by
  refine (invariant_of_step (I := fun t => t.Orderly ∧ t.state.supply = s.supply) ?_
    (Op.run_writes hproper h) ⟨hs, rfl⟩).2
  rintro t t' ⟨ht, hsupply⟩ hwrite
  exact ⟨hwrite.orderly hop ht, ((hwrite.supply ht).2 hactor).trans hsupply⟩

lemma supply_of_slash {consAddr : Address} {infractionHeight power : ℤ} {slashFactor : Dec}
    (hproper : s.Proper) (hs : s.rest.Orderly)
    (h : s.slash env (appHooks env) consAddr infractionHeight power slashFactor = .ok s') :
    s'.supply ≤ s.supply ∧ s.supply - s'.supply = s.staked - s'.staked := by
  have hsteps : ReflTransGen (Effect env .slashing) s.rest s'.rest := slash_effects hproper h
  have hend : s'.supply ≤ s.supply ∧ s'.rest.unstaked = s.rest.unstaked := by
    refine (invariant_of_step (I := fun t => t.Orderly ∧ t.state.supply ≤ s.supply ∧
      t.unstaked = s.rest.unstaked) ?_ hsteps ⟨hs, le_rfl, rfl⟩).2
    rintro t t' ⟨ht, hle, hsame⟩ heffect
    have hflow := heffect.flow ht.among ht.holdings ht.accounted ht.whole
    obtain ⟨hle', hsame'⟩ := hflow.burned rfl
    refine ⟨⟨heffect.among (by simp) ht.among, ?_, ?_, hflow.whole⟩, hle'.trans hle,
      hsame'.trans hsame⟩
    · exact (heffect.trace [] False).recording.holdings ht.holdings
    · exact (heffect.trace [] False).recording.accounted ht.accounted
  refine ⟨hend.1, ?_⟩
  have hsame := hend.2
  simp only [Transit.unstaked, rest, sub_zero] at hsame
  linarith

end

section
variable {env : Env} {s s' : State}

lemma total_bonded_eq_sum (validators : Store Address ValidatorValue) :
    total (fun _ val => ValidatorValue.bonded val) validators =
      ((validators.values.filter (fun val => val.status = .bonded)).map
        (fun val => val.tokens.raw)).sum := by
  unfold total values
  induction validators.entries with
  | nil => rfl
  | cons e l ih =>
    simp only [List.map_cons, List.sum_cons, List.filter_cons, decide_eq_true_eq, ih]
    unfold ValidatorValue.bonded
    split_ifs <;> simp

/-- In every state of a run, the bonded tokens are the sum of the tokens of the bonded validators,
and every validator has a whole number of tokens. From there, no operation but a slash changes
bonded and loose tokens together, and a slash takes from them what it takes from validators and
unbonding delegations. -/
theorem tokens_accounted (hs : s.Genesis)
    (hwithdraw : ∀ d w, s.distr.delegatorWithdrawAddrs.get d = some w → Unburned w)
    {ops : List Op} (hops : ∀ op ∈ ops, op.Spares) (h : run env s ops = .ok s') :
    s'.stake.bondedTokens.raw =
        ((s'.stake.validators.values.filter (fun val => val.status = .bonded)).map
          (fun val => val.tokens.raw)).sum ∧ (∀ v val, s'.stake.validators.get v = some val →
        ∃ n : ℕ, val.tokens = .newDecFromInt n) ∧
      ∀ (op : Op) (s'' : State), op.Spares → op.run env (appHooks env) s' = .ok s'' →
        ((∀ consAddr infractionHeight power slashFactor,
            op ≠ .slash consAddr infractionHeight power slashFactor) → s''.supply = s'.supply) ∧
        ∀ consAddr infractionHeight power slashFactor,
          op = .slash consAddr infractionHeight power slashFactor →
            s''.supply ≤ s'.supply ∧ s'.supply - s''.supply = s'.staked - s''.staked := by
  have horderly := orderly_of_run hs hwithdraw hops h
  have hproper := proper_of_run hs.proper h
  refine ⟨?_, fun v val hval => ?_, fun op s'' hop hrun => ⟨fun hne => ?_, ?_⟩⟩
  · rw [← total_bonded_eq_sum]
    exact horderly.accounted.bonded
  · obtain ⟨n, hn⟩ := horderly.accounted.whole v val hval
    have hnonneg := (horderly.holdings.backed v val hval).nonneg
    rw [hn] at hnonneg
    have hpos : 0 ≤ n := nonneg_of_mul_nonneg_right hnonneg precision_pos
    refine ⟨n.toNat, Dec.ext ?_⟩
    rw [hn, newDecFromInt_raw, Int.toNat_of_nonneg hpos, mul_comm]
  · refine supply_of_op hop ?_ hproper horderly hrun
    cases op with
    | slash => exact absurd rfl (hne _ _ _ _)
    | _ => simp [Op.actor]
  · rintro consAddr infractionHeight power slashFactor rfl
    exact supply_of_slash hproper horderly hrun

/-- One validator is bonded, and the next slash for a tenth of it burns tokens. -/
theorem tokens_of_sampleOps : ∃ s' s'', run sampleEnv sampleGenesis sampleOps = .ok s' ∧
      s'.slash sampleEnv (appHooks sampleEnv) 1 2 92 ⟨10 ^ 9⟩ = .ok s'' ∧
      s'.stake.bondedTokens.raw =
        ((s'.stake.validators.values.filter (fun val => val.status = .bonded)).map
          (fun val => val.tokens.raw)).sum ∧
      s''.supply < s'.supply ∧ s'.supply - s''.supply = s'.staked - s''.staked := by
  obtain ⟨⟨s', s''⟩, hboth, htest⟩ := of_returns
    (p := fun r : State × State => decide (r.2.supply < r.1.supply))
    (x := do
      let s' ← run sampleEnv sampleGenesis sampleOps
      let s'' ← s'.slash sampleEnv (appHooks sampleEnv) 1 2 92 ⟨10 ^ 9⟩
      return (s', s'')) (by decide +kernel)
  simp only [bind_ok, pure_eq_ok, Prod.mk.injEq] at hboth
  obtain ⟨s1, hrun, s2, hslash, hs1, hs2⟩ := hboth
  rw [hs1] at hrun hslash
  rw [hs2] at hslash
  have hops : ∀ op ∈ sampleOps, op.Spares := by
    simp [sampleOps, sampleCreation, Op.Spares, Op.signers, Unburned, burnedCoinsAccAddr]
  obtain ⟨hbonded, _, hnext⟩ := tokens_accounted sampleGenesis_genesis
    (fun d w hw => by simp [sampleGenesis] at hw) hops hrun
  obtain ⟨_, hburned⟩ := hnext (.slash 1 2 92 ⟨10 ^ 9⟩) s''
    (by simp [Op.Spares, Op.signers]) hslash
  exact ⟨s', s'', hrun, hslash, hbonded, of_decide_eq_true htest, (hburned _ _ _ _ rfl).2⟩

end
end Irishub.Stake
