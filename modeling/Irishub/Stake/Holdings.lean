import Irishub.Stake.Writes

/-!
# Stake: tokens and shares of the validators

The shares of a validator are the sum of the shares of its delegations, and a
validator without shares has no tokens. Shares are issued at a rounded rate and
taken out in arbitrary fractions, but the same decimal is added to or subtracted
from the validator and the delegation, and the tokens that leave with the last
shares are all tokens.
-/

namespace Irishub.Stake
open Lib Relation Irishub.Distribution State Store Dec Option

/-- Records that hold shares. -/
structure Ledger where
  validators : Store Address ValidatorValue
  delegations : Store DVKey DelegationValue

def State.ledger (s : State) : Ledger := ⟨s.stake.validators, s.stake.delegations⟩

namespace Ledger

/-- Shares that a delegation has of the validator `v`. -/
def weight (v : Address) (k : DVKey) (del : DelegationValue) : ℤ :=
  if (ofLex k).2 = v then del.shares.raw else 0

/-- Sum of the shares of the delegations of `v`. -/
def sharesOf (L : Ledger) (v : Address) : ℤ := Store.total (weight v) L.delegations

def totalShares (L : Ledger) (v : Address) : ℤ :=
  ((L.validators.get v).map (fun val => val.delegatorShares.raw)).getD 0

lemma totalShares_of_get {L : Ledger} {v : Address} {val : ValidatorValue}
    (h : L.validators.get v = some val) : L.totalShares v = val.delegatorShares.raw := by
  simp [totalShares, h]

end Ledger

section

/-- Tokens and shares of the validators and their delegations. -/
structure State.Holdings (s : State) : Prop where
  shares : ∀ v, s.ledger.totalShares v = s.ledger.sharesOf v
  backed : ∀ v val, s.stake.validators.get v = some val → val.Backed
  shares_nonneg : ∀ k del, s.stake.delegations.get k = some del → 0 ≤ del.shares.raw

variable {s s' : State} {v : Address} {val : ValidatorValue}

lemma State.Holdings.congr (h : s.Holdings) (hvalidators : s'.stake.validators = s.stake.validators)
    (hdelegations : s'.stake.delegations = s.stake.delegations) : s'.Holdings := by
  have hledger : s'.ledger = s.ledger := by rw [ledger, ledger, hvalidators, hdelegations]
  refine ⟨?_, ?_, ?_⟩
  · rw [hledger]
    exact h.shares
  · rw [hvalidators]
    exact h.backed
  · rw [hdelegations]
    exact h.shares_nonneg

lemma totalShares_set (L : Ledger) (u : Address) :
    Ledger.totalShares ⟨L.validators.set v val, L.delegations⟩ u =
      if u = v then val.delegatorShares.raw else L.totalShares u := by
  simp only [Ledger.totalShares, get_set]
  split_ifs <;> rfl

lemma State.Holdings.validator_nonneg (h : s.Holdings)
    (hval : s.stake.validators.get v = some val) : 0 ≤ val.delegatorShares.raw := by
  rw [← Ledger.totalShares_of_get (L := s.ledger) hval, h.shares v]
  refine total_nonneg (fun k del hk => ?_)
  unfold Ledger.weight
  split_ifs
  · exact h.shares_nonneg k del hk
  · exact le_rfl

end

section
variable {actor : Actor} {s : State} {d v : Address} {val val' : ValidatorValue}
  {delegations delegations' : Store DVKey DelegationValue}

lemma contribution_weight (delegations : Store DVKey DelegationValue) (d v u : Address) :
    Store.contribution (Ledger.weight u) delegations (toLex (d, v)) =
      if u = v then sharesAt delegations (toLex (d, v)) else 0 := by
  unfold Store.contribution sharesAt Ledger.weight
  cases delegations.get (toLex (d, v)) with
  | none => simp
  | some del =>
    by_cases hu : u = v
    · simp [hu]
    · simp [hu, Ne.symm hu]

lemma total_weight_set (del : DelegationValue) (u : Address) :
    total (Ledger.weight u) (delegations.set (toLex (d, v)) del) =
      total (Ledger.weight u) delegations +
        if u = v then del.shares.raw - sharesAt delegations (toLex (d, v)) else 0 := by
  rw [total_set, contribution_weight]
  by_cases hu : u = v
  · simp only [hu, if_true, Ledger.weight, ofLex_toLex]
    ring
  · simp [hu, Ne.symm hu, Ledger.weight]

/-- Delegations of `v` change by what the validator does, those of another validator do not
change. -/
lemma Reshared.sharesOf (h : Reshared actor v val val' delegations delegations') (u : Address) :
    total (Ledger.weight u) delegations' = total (Ledger.weight u) delegations +
      if u = v then val'.delegatorShares.raw - val.delegatorShares.raw else 0 := by
  cases h with
  | same h => simp [h]
  | set hd hshares =>
    rw [total_weight_set, hshares, add_sub_cancel_left]
  | delete hshares =>
    rw [total_delete, contribution_weight, hshares]
    split_ifs <;> ring

lemma Reshared.nonneg (h : Reshared actor v val val' delegations delegations')
    (hnonneg : 0 ≤ val.delegatorShares.raw) (hbacked : val.Backed)
    (hs : ∀ k del, delegations.get k = some del → 0 ≤ del.shares.raw) :
    ∀ k del, delegations'.get k = some del → 0 ≤ del.shares.raw := by
  cases h with
  | same => exact hs
  | @set d del hd hshares hdel =>
    refine forall_set hs (hdel hnonneg hbacked ?_)
    unfold sharesAt
    cases hold : delegations.get (toLex (d, v)) with
    | none => exact le_rfl
    | some old => exact hs _ old hold
  | delete => exact forall_delete hs _

lemma sharesOf_eq_sum (s : State) (v : Address) : s.ledger.sharesOf v =
      ((s.getValidatorDelegations v).map (fun delegation => delegation.shares.raw)).sum := by
  unfold Ledger.sharesOf Store.total getValidatorDelegations allDelegations ledger
  induction s.stake.delegations.entries with
  | nil => rfl
  | cons e l ih =>
    simp only [List.map_cons, List.sum_cons, List.filter_cons, decide_eq_true_eq, ih]
    unfold Ledger.weight
    split_ifs <;> simp

end

section
variable {env : Env} {actor : Actor} {s s' : State} {v : Address} {val : ValidatorValue}

/-- Record of a validator is rewritten, together with the delegation that changes with it. -/
lemma Rewrite.holdings {r : Revision} {amount : ℤ} (h : Rewrite actor s v val r amount)
    (hs : s.Holdings) : (s.revise v r).Holdings := by
  have hnonneg := hs.validator_nonneg h.get
  have hbacked := hs.backed v val h.get
  refine ⟨fun u => ?_, forall_set hs.backed (h.backed hnonneg hbacked),
    h.shares.nonneg hnonneg hbacked hs.shares_nonneg⟩
  have hshares := hs.shares u
  have htotal : (s.revise v r).ledger.totalShares u = _ := totalShares_set s.ledger u
  have hsum : (s.revise v r).ledger.sharesOf u = _ := h.shares.sharesOf u
  rw [htotal, hsum]
  by_cases hu : u = v
  · subst hu
    rw [Ledger.totalShares_of_get (L := s.ledger) h.get] at hshares
    rw [if_pos rfl, if_pos rfl, hshares, Ledger.sharesOf, ledger]
    ring
  · rw [if_neg hu, if_neg hu, add_zero]
    exact hshares

lemma State.Admits.holdings {validator : Validator} {rank : PowerRank} {slashing : SlashingStore}
    (h : s.Admits validator rank) (hs : s.Holdings) :
    (s.created env validator rank slashing).Holdings := by
  refine ⟨fun u => ?_, forall_set hs.backed ⟨?_, fun _ => ?_⟩, hs.shares_nonneg⟩
  · have hshares := hs.shares u
    have htotal : (s.created env validator rank slashing).ledger.totalShares u = _ :=
      totalShares_set s.ledger u
    rw [htotal]
    split_ifs with hu
    · rw [Ledger.totalShares, ledger, hu, h.none] at hshares
      rw [h.delegatorShares, hu]
      exact hshares
    · exact hshares
  · rw [h.tokens]
    exact le_rfl
  · rw [h.tokens]
    rfl

lemma State.Holdings.remove {key : PowerRank} {distr : DistrStore} (h : s.Holdings)
    (hval : s.stake.validators.get v = some val) (hshares : val.delegatorShares.raw = 0) :
    Holdings { s.deleteValidator env ⟨val, v⟩ key with distr := distr } where
  shares u := by
    have hu := h.shares u
    have htotal : Ledger.totalShares ⟨s.stake.validators.delete v, s.stake.delegations⟩ u =
        s.ledger.totalShares u := by
      simp only [Ledger.totalShares, ledger, get_delete]
      split_ifs with heq
      · rw [heq, hval, map_some, getD_some, hshares]
        rfl
      · rfl
    exact htotal.trans hu
  backed := forall_delete h.backed _
  shares_nonneg := h.shares_nonneg

lemma Recording.holdings {signers : List Address} {ending : Prop}
    (h : Recording env actor signers ending s s') (hs : s.Holdings) : s'.Holdings := by
  cases h with
  | same h => exact hs.congr h.validators h.delegations
  | rewrite h => exact h.holdings hs
  | remove hval hshares => exact hs.remove hval hshares
  | create hv h => exact h.holdings hs

lemma State.Genesis.holdings (hs : s.Genesis) : s.Holdings := by
  refine ⟨fun v => ?_, ?_, ?_⟩
  · simp [Ledger.totalShares, Ledger.sharesOf, ledger, hs.validators, hs.delegations]
  · simp [hs.validators]
  · simp [hs.delegations]

lemma holdings_of_run {ops : List Op} (hs : s.Genesis) (h : run env s ops = .ok s') :
    s'.Holdings := by
  refine invariant_of_writes (I := fun t => t.state.Holdings) (C := fun _ => True) ?_
    (fun _ _ => trivial) hs.proper hs.holdings h
  exact fun op t t' _ ht hwrite => hwrite.recording.holdings ht

/-- In every state of a run, the shares of a validator are the sum of the shares of its delegations,
and a validator without shares has no tokens. -/
theorem delegatorShares_exact (hs : s.Genesis) {ops : List Op} (h : run env s ops = .ok s')
    (hval : s'.stake.validators.get v = some val) : val.delegatorShares.raw =
        ((s'.getValidatorDelegations v).map (fun delegation => delegation.shares.raw)).sum ∧
      (val.delegatorShares.raw = 0 → val.tokens.raw = 0) := by
  have hholdings := holdings_of_run hs h
  refine ⟨?_, (hholdings.backed v val hval).empty⟩
  rw [← sharesOf_eq_sum, ← hholdings.shares v, Ledger.totalShares_of_get hval]

/-- A slashed validator with two delegations, one of which has lost a part. -/
theorem delegatorShares_of_sampleOps : ∃ s' val, run sampleEnv sampleGenesis sampleOps = .ok s' ∧
      s'.stake.validators.get 1 = some val ∧ (s'.getValidatorDelegations 1).length = 2 ∧
      val.delegatorShares.raw =
        ((s'.getValidatorDelegations 1).map (fun delegation => delegation.shares.raw)).sum := by
  obtain ⟨s', hs', htest⟩ := of_returns
    (p := fun s : State => decide ((s.stake.validators.get 1).isSome = true ∧
      (s.getValidatorDelegations 1).length = 2))
    (x := run sampleEnv sampleGenesis sampleOps) (by decide +kernel)
  obtain ⟨hsome, hlength⟩ := of_decide_eq_true htest
  obtain ⟨val, hval⟩ := isSome_iff_exists.mp hsome
  exact ⟨s', val, hs', hval, hlength, (delegatorShares_exact sampleGenesis_genesis hs' hval).1⟩

end
end Irishub.Stake
