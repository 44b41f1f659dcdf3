import Irishub.Bank.Totals
import Irishub.Stake.Run
import Mathlib.Algebra.Ring.Divisibility.Basic

/-!
# Stake: the record of a validator is rewritten

Jailing and unjailing, an edit, bonding and unbonding, a slash, and the issue and
the return of shares rewrite the record of one validator. `Rewrite` says what all
of them have in common: which tokens leave the validator and what the pool, the
power index and the delegations have to do with it. `Requeued` says the same of the
queue of unbonding validators.

**Results**

* `jailValidator_revised`, `unjailValidator_revised`, `setValidator_revised`,
  `removeValidatorTokens_revised`, `removeShares_revised`, `addShares_revised`: what the
  functions of the keeper do is such a rewrite.
-/

namespace Irishub.Stake
open Lib State Dec

section
variable {p p' : Pool} {tokens : Dec} {validator : Validator} {amount amount' : ℤ}

/-- Bonded and loose tokens together, in units of `10 ^ (-10)`. -/
def Pool.supply (p : Pool) : ℤ := p.bondedTokens.raw + p.bank.loosen * Dec.precision

/-- Tokens of a validator that counts as bonded. -/
def ValidatorValue.bonded (val : ValidatorValue) : ℤ :=
  if val.status = .bonded then val.tokens.raw else 0

/-- Of the supply, `amount` becomes bonded; no account is touched. -/
structure Pool.Moves (p p' : Pool) (amount : ℤ) : Prop where
  bonded : p'.bondedTokens.raw = p.bondedTokens.raw + amount
  supply : p'.supply = p.supply
  accounts : p'.bank.accounts = p.bank.accounts

lemma Pool.Moves.of_eq (h : amount = 0) : p.Moves p amount := by
  subst h
  exact ⟨(add_zero _).symm, rfl, rfl⟩

lemma Pool.Moves.congr (h : p.Moves p' amount) (heq : amount' = amount) : p.Moves p' amount' :=
  heq ▸ h

lemma whole_of_sub {d change : Dec} {round : ℤ}
    (h : d.sub (.newDecFromInt round) = .ok change) (hzero : change.isZero = true) :
    d.raw = round * Dec.precision := by
  have hraw := (Dec.sub_eq_ok.mp h).1
  rw [Dec.isZero_eq_true.mp hzero, Dec.newDecFromInt_raw] at hraw
  exact (sub_eq_zero.mp hraw.symm)

lemma loosenTokenToBonded_ok (h : p.loosenTokenToBonded tokens = .ok p') :
    p.Moves p' tokens.raw := by
  simp only [Pool.loosenTokenToBonded, bind_ok, assert_ok, Coin.newCoin_ok, pure_eq_ok] at h
  obtain ⟨round, _, change, hchange, _, hzero, bonded, hbonded, _, ⟨rfl, hnonneg⟩, bank, hbank,
    rfl⟩ := h
  have hraw := (add_eq_ok.mp hbonded).1
  refine ⟨hraw, ?_, Bank.decreaseTotalLoosenToken_accounts hbank⟩
  simp only [Pool.supply, hraw, Bank.loosen_decreaseTotalLoosenToken hnonneg hbank,
    whole_of_sub hchange hzero]
  ring

lemma bondedTokenToLoosen_ok (h : p.bondedTokenToLoosen tokens = .ok p') :
    p.Moves p' (-tokens.raw) := by
  simp only [Pool.bondedTokenToLoosen, bind_ok, assert_ok, Coin.newCoin_ok, pure_eq_ok] at h
  obtain ⟨round, _, change, hchange, _, hzero, bonded, hbonded, _, ⟨rfl, hnonneg⟩, bank, hbank,
    rfl⟩ := h
  have hraw := (sub_eq_ok.mp hbonded).1
  refine ⟨hraw.trans (sub_eq_add_neg _ _), ?_, Bank.increaseTotalLoosenToken_accounts hbank⟩
  simp only [Pool.supply, hraw, Bank.loosen_increaseTotalLoosenToken hnonneg hbank,
    whole_of_sub hchange hzero]
  ring

lemma tokensToBonded_ok (h : validator.tokensToBonded p tokens = .ok p') :
    p.Moves p' (if validator.status = .bonded then tokens.raw else 0) := by
  unfold Validator.tokensToBonded at h
  split_ifs at h ⊢
  · exact loosenTokenToBonded_ok h
  · cases h
    exact .of_eq rfl

lemma tokensToLoosen_ok (h : validator.tokensToLoosen p tokens = .ok p') :
    p.Moves p' (if validator.status = .bonded then -tokens.raw else 0) := by
  unfold Validator.tokensToLoosen at h
  split_ifs at h ⊢
  · exact bondedTokenToLoosen_ok h
  · cases h
    exact .of_eq rfl

lemma moveTokens_bonded (h : validator.moveTokens p .bonded = .ok p')
    (hstatus : validator.status ≠ .bonded) : p.Moves p' validator.tokens.raw := by
  unfold Validator.moveTokens at h
  cases hold : validator.status with
  | unbonded | unbonding =>
    rw [hold] at h
    exact loosenTokenToBonded_ok h
  | bonded => exact absurd hold hstatus

lemma moveTokens_unbonding (h : validator.moveTokens p .unbonding = .ok p')
    (hstatus : validator.status = .bonded) : p.Moves p' (-validator.tokens.raw) := by
  unfold Validator.moveTokens at h
  rw [hstatus] at h
  exact bondedTokenToLoosen_ok h

end

section
variable {validator validator' : Validator} {pool pool' : Pool} {shares amount : Dec}

lemma addTokensFromDel_ok {tokens : ℤ}
    (h : validator.addTokensFromDel pool tokens = .ok (validator', pool', shares)) :
    ∃ exRate tokens' delegatorShares, validator.delegatorShareExRate = .ok exRate ∧
      exRate.raw ≠ 0 ∧ validator.tokensToBonded pool (.newDecFromInt tokens) = .ok pool' ∧
      validator.tokens.add (.newDecFromInt tokens) = .ok tokens' ∧
      (Dec.newDecFromInt tokens).quo exRate = .ok shares ∧
      validator.delegatorShares.add shares = .ok delegatorShares ∧
      validator' = { validator with tokens := tokens', delegatorShares := delegatorShares } := by
  simp only [Validator.addTokensFromDel, bind_ok, assert_ok, pure_eq_ok,
    Prod.mk.injEq, Bool.not_eq_true', Dec.isZero_eq_false] at h
  obtain ⟨exRate, hrate, pool1, hpool, _, hne, tokens', htokens, issued, hissued, total, htotal,
    rfl, rfl, rfl⟩ := h
  exact ⟨exRate, tokens', total, hrate, hne, hpool, htokens, hissued, htotal, rfl⟩

lemma removeDelShares_ok
    (h : validator.removeDelShares pool shares = .ok (validator', pool', amount)) :
    ∃ tokens delegatorShares, validator.issuedAmount shares = .ok amount ∧
      validator.tokens.sub amount = .ok tokens ∧
      validator.delegatorShares.sub shares = .ok delegatorShares ∧
      validator.tokensToLoosen pool amount = .ok pool' ∧
      validator' = { validator with tokens := tokens, delegatorShares := delegatorShares } := by
  simp only [Validator.removeDelShares, bind_ok, pure_eq_ok, Prod.mk.injEq] at h
  obtain ⟨issued, hissued, tokens, htokens, total, htotal, pool1, hpool, rfl, rfl, rfl⟩ := h
  exact ⟨tokens, total, hissued, htokens, htotal, hpool, rfl⟩

lemma removeTokens_ok {tokens : Dec}
    (h : validator.removeTokens pool tokens = .ok (validator', pool')) :
    ∃ left, 0 ≤ tokens.raw ∧ tokens.raw ≤ validator.tokens.raw ∧
      validator.tokens.sub tokens = .ok left ∧ validator.tokensToLoosen pool tokens = .ok pool' ∧
      validator' = { validator with tokens := left } := by
  simp only [Validator.removeTokens, bind_ok, assert_ok, pure_eq_ok,
    Prod.mk.injEq, Bool.not_eq_true', decide_eq_true_eq] at h
  obtain ⟨_, hnonneg, _, hle, left, hleft, pool1, hpool, rfl, rfl⟩ := h
  refine ⟨left, ?_, hle, hleft, hpool, rfl⟩
  simpa [Dec.isNegative] using hnonneg

lemma delegatorShareExRate_nonneg {exRate : Dec}
    (h : validator.delegatorShareExRate = .ok exRate) (htokens : 0 ≤ validator.tokens.raw)
    (hshares : 0 ≤ validator.delegatorShares.raw) : 0 ≤ exRate.raw := by
  unfold Validator.delegatorShareExRate at h
  split_ifs at h with hzero
  · cases h
    exact precision_pos.le
  · exact quo_nonneg h htokens hshares

lemma issuedAmount_le (h : validator.issuedAmount shares = .ok amount) :
    amount.raw ≤ validator.tokens.raw ∧
      (shares = validator.delegatorShares → amount = validator.tokens) := by
  simp only [Validator.issuedAmount, bind_ok, pure_eq_ok] at h
  obtain ⟨_, _, _, _, issued, _, rfl⟩ := h
  split_ifs with hall
  · exact ⟨le_rfl, fun _ => rfl⟩
  · rw [not_or, lt_def, not_lt] at hall
    exact ⟨hall.1, fun heq => absurd heq hall.2⟩

lemma issuedAmount_whole (h : validator.issuedAmount shares = .ok amount)
    (hwhole : precision ∣ validator.tokens.raw) : precision ∣ amount.raw := by
  simp only [Validator.issuedAmount, truncateDec, bind_ok, pure_eq_ok] at h
  obtain ⟨_, _, _, _, issued, ⟨n, _, rfl⟩, rfl⟩ := h
  split_ifs
  · exact hwhole
  · exact Dvd.intro_left n rfl

end

section

/-- Who makes a write: the account whose message is carried out, the slashing module when it takes
tokens, or the chain. -/
inductive Actor
  | account (addr : Address)
  | slashing
  | chain
  deriving DecidableEq

/-- A validator has tokens only for shares. -/
structure ValidatorValue.Backed (val : ValidatorValue) : Prop where
  nonneg : 0 ≤ val.tokens.raw
  empty : val.delegatorShares.raw = 0 → val.tokens.raw = 0

/-- Time at which an unbonding validator becomes unbonded. -/
def ValidatorValue.due (val : ValidatorValue) : Option ℤ :=
  if val.status = .unbonding then some val.unbondingMinTime else none

def sharesAt (delegations : Store DVKey DelegationValue) (k : DVKey) : ℤ :=
  ((delegations.get k).map (fun del => del.shares.raw)).getD 0

/-- Power index when the record `val` of `v` is replaced by `val'`. -/
inductive Reranked (v : Address) (val val' : ValidatorValue) (index : Store PowerRank Address) :
    Store PowerRank Address → Prop
  | same (hjailed : val'.jailed = val.jailed) (htokens : val'.tokens = val.tokens) :
      Reranked v val val' index index
  | leave {rank : PowerRank} (hrank : getValidatorPowerRank ⟨val, v⟩ = .ok rank)
      (hjailed : val'.jailed = true) : Reranked v val val' index (index.delete rank)
  | enter {rank : PowerRank} (hold : val.jailed = true) (hjailed : val'.jailed = false)
      (hrank : getValidatorPowerRank ⟨val', v⟩ = .ok rank) :
      Reranked v val val' index (index.set rank v)
  | replace {rank rank' : PowerRank} (hrank : getValidatorPowerRank ⟨val, v⟩ = .ok rank)
      (hjailed : val'.jailed = false) (hrank' : getValidatorPowerRank ⟨val', v⟩ = .ok rank') :
      Reranked v val val' index ((index.delete rank).set rank' v)

/-- Queue of the unbonding validators when the record `val` of `v` is replaced by `val'`. -/
inductive Requeued (s : State) (v : Address) (val val' : ValidatorValue) :
    Store ℤ (List Address) → Prop
  | same (hdue : val'.due = val.due) : Requeued s v val val' s.stake.validatorQueue
  | leave (htime : val'.unbondingMinTime = val.unbondingMinTime) (hdue : val'.due = none) :
      Requeued s v val val' (s.deleteValidatorQueue ⟨val', v⟩).stake.validatorQueue
  | enter (hdue : val.due = none) (hdue' : val'.due = some val'.unbondingMinTime) :
      Requeued s v val val' (s.insertValidatorQueue ⟨val', v⟩).stake.validatorQueue

/-- Delegations when the record `val` of `v` is replaced by `val'`: one of them gains or loses what
the validator does. -/
inductive Reshared (actor : Actor) (v : Address) (val val' : ValidatorValue)
    (delegations : Store DVKey DelegationValue) : Store DVKey DelegationValue → Prop
  | same (h : val'.delegatorShares = val.delegatorShares) :
      Reshared actor v val val' delegations delegations
  | set {d : Address} {del : DelegationValue}
      (hd : (∃ old, delegations.get (toLex (d, v)) = some old) ∨ actor = .account d)
      (hshares : val'.delegatorShares.raw =
        val.delegatorShares.raw + (del.shares.raw - sharesAt delegations (toLex (d, v))))
      (hnonneg : 0 ≤ val.delegatorShares.raw → val.Backed →
        0 ≤ sharesAt delegations (toLex (d, v)) → 0 ≤ del.shares.raw) :
      Reshared actor v val val' delegations (delegations.set (toLex (d, v)) del)
  | delete {d : Address} (hshares : val'.delegatorShares.raw =
        val.delegatorShares.raw - sharesAt delegations (toLex (d, v))) :
      Reshared actor v val val' delegations (delegations.delete (toLex (d, v)))

/-- What is written with the record of a validator. -/
structure Revision where
  val : ValidatorValue
  pool : Pool
  powerIndex : Store PowerRank Address
  validatorQueue : Store ℤ (List Address)
  delegations : Store DVKey DelegationValue
  delegationDistInfos : Store DVKey Distribution.DelegationDistInfo

def State.revise (s : State) (v : Address) (r : Revision) : State :=
  { s with
    bank := r.pool.bank
    distr := { s.distr with delegationDistInfos := r.delegationDistInfos }
    stake := { s.stake with
      bondedTokens := r.pool.bondedTokens
      validators := s.stake.validators.set v r.val
      validatorsByPowerIndex := r.powerIndex
      validatorQueue := r.validatorQueue
      delegations := r.delegations } }

/-- The record `val` of `v` is rewritten, and `amount` leaves its tokens. -/
structure Rewrite (actor : Actor) (s : State) (v : Address) (val : ValidatorValue) (r : Revision)
    (amount : ℤ) : Prop where
  get : s.stake.validators.get v = some val
  tokens : r.val.tokens.raw = val.tokens.raw - amount
  whole : Dec.precision ∣ val.tokens.raw → Dec.precision ∣ amount
  pool : s.getPool.Moves r.pool (r.val.bonded - val.bonded)
  backed : 0 ≤ val.delegatorShares.raw → val.Backed → r.val.Backed
  ranks : Reranked v val r.val s.stake.validatorsByPowerIndex r.powerIndex
  shares : Reshared actor v val r.val s.stake.delegations r.delegations

variable {actor : Actor} {s s' : State} {v : Address} {val val' : ValidatorValue} {r : Revision}
  {validator : Validator}

/-- Tokens and shares stay with the validator. -/
lemma Rewrite.of_holding (hget : s.stake.validators.get v = some val)
    (htokens : r.val.tokens = val.tokens) (hshares : r.val.delegatorShares = val.delegatorShares)
    (hpool : s.getPool.Moves r.pool (r.val.bonded - val.bonded))
    (hranks : Reranked v val r.val s.stake.validatorsByPowerIndex r.powerIndex)
    (hdelegations : r.delegations = s.stake.delegations) : Rewrite actor s v val r 0 where
  get := hget
  tokens := by rw [htokens, sub_zero]
  whole _ := dvd_zero _
  pool := hpool
  backed _ h := by
    refine ⟨htokens ▸ h.nonneg, fun hzero => ?_⟩
    rw [hshares] at hzero
    rw [htokens]
    exact h.empty hzero
  ranks := hranks
  shares := hdelegations ▸ .same hshares

/-- Write of a validator whose tokens have changed: its old rank leaves the power index, and the
new one enters it unless the validator is jailed. -/
def State.replaceValidator (s : State) (old new : Validator) (pool : Pool) : Outcome State := do
  let s ← s.deleteValidatorByPowerIndex old
  ((s.setValidator new).setPool pool).setValidatorByPowerIndex new

lemma replaceValidator_of_delete {old new : Validator} {pool : Pool} {s₁ : State}
    (hdelete : s.deleteValidatorByPowerIndex old = .ok s₁)
    (hset : ((s₁.setValidator new).setPool pool).setValidatorByPowerIndex new = .ok s') :
    s.replaceValidator old new pool = .ok s' := by
  rw [replaceValidator, hdelete]
  exact hset

lemma replaceValidator_ok {pool : Pool}
    (h : s.replaceValidator ⟨val, v⟩ ⟨val', v⟩ pool = .ok s') :
    ∃ index, Reranked v val val' s.stake.validatorsByPowerIndex index ∧
      s' = s.revise v ⟨val', pool, index, s.stake.validatorQueue, s.stake.delegations,
        s.distr.delegationDistInfos⟩ := by
  simp only [replaceValidator, deleteValidatorByPowerIndex,
    setValidatorByPowerIndex, bind_ok, pure_eq_ok] at h
  obtain ⟨_, ⟨rank, hrank, rfl⟩, h⟩ := h
  split_ifs at h with hjailed
  · cases h
    exact ⟨_, .leave hrank hjailed, rfl⟩
  · simp only [bind_ok, pure_eq_ok] at h
    obtain ⟨rank', hrank', rfl⟩ := h
    exact ⟨_, .replace hrank (Bool.eq_false_iff.mpr hjailed) hrank', rfl⟩

end

section

/-- A rewrite of the record of `v` with its place in the queue. -/
inductive Revised (actor : Actor) (s : State) (v : Address) (val : ValidatorValue) (amount : ℤ) :
    State → Prop
  | mk {r : Revision} (h : Rewrite actor s v val r amount)
      (hqueue : Requeued s v val r.val r.validatorQueue) :
      Revised actor s v val amount (s.revise v r)

variable {actor : Actor} {s s' : State} {d v : Address} {val : ValidatorValue}
  {validator' : Validator} {shares : Dec}

lemma jailValidator_revised (actor : Actor) (hget : s.stake.validators.get v = some val)
    (h : s.jailValidator ⟨val, v⟩ = .ok s') :
    Revised actor s v val 0 s' ∧ s'.stake.delegations = s.stake.delegations := by
  simp only [jailValidator, deleteValidatorByPowerIndex, setValidator, bind_ok,
    assert_ok, pure_eq_ok] at h
  obtain ⟨_, _, rank, hrank, rfl⟩ := h
  exact ⟨.mk (r := ⟨_, s.getPool, _, _, _, _⟩)
    (.of_holding hget rfl rfl (.of_eq (sub_self _)) (.leave hrank rfl) rfl) (.same rfl), rfl⟩

lemma unjailValidator_revised (hget : s.stake.validators.get v = some val)
    (h : s.unjailValidator ⟨val, v⟩ = .ok s') : Revised actor s v val 0 s' := by
  simp only [unjailValidator, setValidatorByPowerIndex, setValidator, bind_ok,
    assert_ok, pure_eq_ok, Bool.false_eq_true, if_false] at h
  obtain ⟨_, hjailed, rank, hrank, rfl⟩ := h
  exact .mk (r := ⟨_, s.getPool, _, _, _, _⟩)
    (.of_holding hget rfl rfl (.of_eq (sub_self _)) (.enter hjailed rfl hrank) rfl) (.same rfl)

lemma setValidator_revised (hget : s.stake.validators.get v = some val)
    (description : Description) (commission : Commission) :
    Revised actor s v val 0
      (s.setValidator ⟨{ val with description := description, commission := commission }, v⟩) :=
  .mk (r := ⟨_, s.getPool, _, _, _, _⟩)
    (.of_holding hget rfl rfl (.of_eq (sub_self _)) (.same rfl rfl) rfl) (.same rfl)

lemma bond_revised {val' : ValidatorValue} {pool : Pool}
    (hget : s.stake.validators.get v = some val) (hstatus : val.status ≠ .bonded)
    (hval' : val' = { val with bondHeight := s.height, status := .bonded })
    (hmove : (⟨val, v⟩ : Validator).moveTokens s.getPool .bonded = .ok pool)
    (h : s.replaceValidator ⟨val, v⟩ ⟨val', v⟩ pool = .ok s') :
    Revised actor s v val 0 (s'.deleteValidatorQueue ⟨val', v⟩) := by
  obtain ⟨index, hranks, rfl⟩ := replaceValidator_ok h
  refine .mk (r := ⟨val', pool, index, (s.deleteValidatorQueue ⟨val', v⟩).stake.validatorQueue,
    s.stake.delegations, s.distr.delegationDistInfos⟩)
    (.of_holding hget ?_ ?_ ?_ hranks rfl) (.leave ?_ ?_)
  · rw [hval']
  · rw [hval']
  · refine (moveTokens_bonded hmove hstatus).congr ?_
    simp [hval', ValidatorValue.bonded, hstatus]
  · rw [hval']
  · rw [hval']
    rfl

lemma unbond_revised {val' : ValidatorValue} {pool : Pool}
    (hget : s.stake.validators.get v = some val) (hstatus : val.status = .bonded)
    (hval' : val' = { val with
      status := .unbonding
      unbondingMinTime := s.blockTime + s.stake.params.unbondingTime
      unbondingHeight := s.height })
    (hmove : (⟨val, v⟩ : Validator).moveTokens s.getPool .unbonding = .ok pool)
    (h : s.replaceValidator ⟨val, v⟩ ⟨val', v⟩ pool = .ok s') :
    Revised actor s v val 0 (s'.insertValidatorQueue ⟨val', v⟩) := by
  obtain ⟨index, hranks, rfl⟩ := replaceValidator_ok h
  refine .mk (r := ⟨val', pool, index, (s.insertValidatorQueue ⟨val', v⟩).stake.validatorQueue,
    s.stake.delegations, s.distr.delegationDistInfos⟩)
    (.of_holding hget ?_ ?_ ?_ hranks rfl) (.enter ?_ ?_)
  · rw [hval']
  · rw [hval']
  · refine (moveTokens_unbonding hmove hstatus).congr ?_
    simp [hval', ValidatorValue.bonded, hstatus]
  · exact if_neg (by rw [hstatus]; simp)
  · rw [hval']
    rfl

/-- A slash of the tokens of a validator. -/
lemma removeValidatorTokens_revised {tokens : Dec} {amount : ℤ}
    (hget : s.stake.validators.get v = some val) (hwhole : tokens.raw = amount * Dec.precision)
    (h : s.removeValidatorTokens ⟨val, v⟩ tokens = .ok (s', validator')) :
    Revised actor s v val (amount * Dec.precision) s' := by
  simp only [removeValidatorTokens, bind_ok, pure_eq_ok, Prod.mk.injEq, Prod.exists] at h
  obtain ⟨s₁, hdelete, _, pool, hremove, s2, hset, rfl, rfl⟩ := h
  obtain ⟨left, hnonneg, hle, hleft, hpool, rfl⟩ := removeTokens_ok hremove
  obtain ⟨index, hranks, rfl⟩ := replaceValidator_ok (replaceValidator_of_delete hdelete hset)
  have hraw : left.raw = val.tokens.raw - tokens.raw := (sub_eq_ok.mp hleft).1
  rw [← hwhole]
  refine .mk ⟨hget, hraw, fun _ => hwhole ▸ Dvd.intro_left amount rfl, ?_,
    fun _ hbacked => ⟨?_, fun hzero => ?_⟩, hranks, .same rfl⟩ (.same rfl)
  · refine (tokensToLoosen_ok hpool).congr ?_
    simp only [ValidatorValue.bonded, hraw]
    split_ifs <;> ring
  · exact hraw ▸ sub_nonneg.mpr hle
  · have hnone : val.tokens.raw = 0 := hbacked.empty hzero
    have hle' : tokens.raw ≤ val.tokens.raw := hle
    change left.raw = 0
    omega

/-- Delegation of `d` to `v` with the shares that remain, or without it when none do. -/
def State.withRemainder (s : State) (d v : Address) (remainder : Dec) : State :=
  if remainder.isZero then
    { s.removeDelegationDistInfo d v with stake := { s.stake with
        delegations := s.stake.delegations.delete (toLex (d, v)) } }
  else
    s.setDelegation
      { shares := remainder, height := s.height, delegatorAddr := d, validatorAddr := v }

lemma withRemainder_eq (s : State) (d v : Address) (remainder : Dec) :
    ∃ delegations infos, s.withRemainder d v remainder = { s with
        distr := { s.distr with delegationDistInfos := infos }
        stake := { s.stake with delegations := delegations } } ∧
      (remainder.raw = 0 ∧ delegations = s.stake.delegations.delete (toLex (d, v)) ∨
        delegations = s.stake.delegations.set (toLex (d, v)) ⟨remainder, s.height⟩) := by
  unfold withRemainder
  split_ifs with hzero
  · exact ⟨_, _, rfl, .inl ⟨isZero_eq_true.mp hzero, rfl⟩⟩
  · exact ⟨_, s.distr.delegationDistInfos, rfl, .inr rfl⟩

/-- Return of shares: the delegation keeps `remainder`. -/
lemma removeShares_revised (actor : Actor) {del : DelegationValue} {remainder amount : Dec}
    (hget : s.stake.validators.get v = some val)
    (hdel : s.stake.delegations.get (toLex (d, v)) = some del) (hle : shares ≤ del.shares)
    (hremainder : del.shares.sub shares = .ok remainder)
    (h : (s.withRemainder d v remainder).removeValidatorTokensAndShares ⟨val, v⟩ shares =
      .ok (s', validator', amount)) :
    Revised actor s v val amount.raw s' ∧ s'.getValidator v = some validator' := by
  obtain ⟨delegations, infos, heq, hdelegations⟩ := withRemainder_eq s d v remainder
  simp only [heq, removeValidatorTokensAndShares, bind_ok, pure_eq_ok, Prod.mk.injEq,
    Prod.exists] at h
  obtain ⟨s₁, hdelete, _, pool, amount, hremove, s2, hset, rfl, rfl, rfl⟩ := h
  obtain ⟨tokens, total, hissued, htokens, htotal, hpool, rfl⟩ := removeDelShares_ok hremove
  obtain ⟨index, hranks, rfl⟩ := replaceValidator_ok (replaceValidator_of_delete hdelete hset)
  have hleft : remainder.raw = del.shares.raw - shares.raw := (sub_eq_ok.mp hremainder).1
  have hsum : total.raw = val.delegatorShares.raw - shares.raw := (sub_eq_ok.mp htotal).1
  have hraw : tokens.raw = val.tokens.raw - amount.raw := (sub_eq_ok.mp htokens).1
  have hat : sharesAt s.stake.delegations (toLex (d, v)) = del.shares.raw := by
    simp [sharesAt, hdel]
  obtain ⟨hamount, hall⟩ := issuedAmount_le hissued
  refine ⟨.mk (r := ⟨_, pool, index, s.stake.validatorQueue, delegations, infos⟩)
    ⟨hget, hraw, issuedAmount_whole hissued, ?_, fun _ hbacked => ⟨?_, fun hzero => ?_⟩, hranks,
      ?_⟩ (.same rfl), ?_⟩
  · refine (tokensToLoosen_ok hpool).congr ?_
    simp only [ValidatorValue.bonded, hraw]
    split_ifs <;> ring
  · exact hraw ▸ sub_nonneg.mpr hamount
  · -- the last shares take all tokens with them
    have hlast : shares = val.delegatorShares := Dec.ext (by simp only at hzero; omega)
    have hall' : amount = val.tokens := hall hlast
    rw [hraw, hall', sub_self]
  · rcases hdelegations with ⟨hzero, rfl⟩ | rfl
    · refine .delete ?_
      rw [hat]
      change total.raw = _
      omega
    · refine .set (.inl ⟨del, hdel⟩) ?_ (fun _ _ _ => ?_)
      · rw [hat, hleft]
        change total.raw = _
        omega
      · exact hleft ▸ sub_nonneg.mpr hle
  · simp [getValidator, revise, Store.get_set_self]

/-- Where no shares result, no tokens were there or have come. -/
lemma addTokensFromDel_backed {validator : Validator} {pool pool' : Pool} {amount : ℤ}
    (h : validator.addTokensFromDel pool amount = .ok (validator', pool', shares))
    (hamount : 0 ≤ amount) (hshares : 0 ≤ validator.delegatorShares.raw)
    (hbacked : validator.Backed) : 0 ≤ shares.raw ∧ validator'.Backed := by
  obtain ⟨exRate, tokens, total, hrate, _, _, htokens, hissued, htotal, rfl⟩ :=
    addTokensFromDel_ok h
  have hamount' : 0 ≤ (newDecFromInt amount).raw := mul_nonneg hamount precision_pos.le
  have hnonneg : 0 ≤ shares.raw :=
    quo_nonneg hissued hamount' (delegatorShareExRate_nonneg hrate hbacked.nonneg hshares)
  have hsum := (add_eq_ok.mp htokens).1
  have hsum' := (add_eq_ok.mp htotal).1
  refine ⟨hnonneg, hsum ▸ add_nonneg hbacked.nonneg hamount', fun hzero => ?_⟩
  -- without shares the rate is one, so that as many tokens as shares have come
  have hzero' : total.raw = 0 := hzero
  have hnone : validator.delegatorShares.raw = 0 := by omega
  have hone : validator.delegatorShareExRate = .ok .one := by
    simp [Validator.delegatorShareExRate, hnone]
  cases hrate.symm.trans hone
  have hcome := quo_one hissued
  change tokens.raw = 0
  rw [hsum, hbacked.empty hnone, ← hcome]
  omega

/-- Issue of shares of `v` to `d`. -/
lemma addShares_revised {newShares : Dec} {amount : ℤ} (hamount : 0 ≤ amount)
    (hget : s.stake.validators.get v = some val)
    (h : s.addValidatorTokensAndShares ⟨val, v⟩ amount = .ok (s', validator', newShares))
    (hshares : shares.raw = sharesAt s.stake.delegations (toLex (d, v)) + newShares.raw) :
    Revised (.account d) s v val (-(amount * Dec.precision))
      (s'.setDelegation
        { shares := shares, height := s'.height, delegatorAddr := d, validatorAddr := v }) := by
  simp only [addValidatorTokensAndShares, bind_ok, pure_eq_ok, Prod.mk.injEq, Prod.exists] at h
  obtain ⟨s₁, hdelete, _, pool, newShares, hadd, s2, hset, rfl, rfl, rfl⟩ := h
  have hbacked := addTokensFromDel_backed hadd hamount
  obtain ⟨_, tokens, total, _, _, hpool, htokens, _, htotal, rfl⟩ := addTokensFromDel_ok hadd
  obtain ⟨index, hranks, rfl⟩ := replaceValidator_ok (replaceValidator_of_delete hdelete hset)
  have hraw : tokens.raw = val.tokens.raw + amount * precision := (add_eq_ok.mp htokens).1
  have hsum : total.raw = val.delegatorShares.raw + newShares.raw := (add_eq_ok.mp htotal).1
  refine .mk (r := ⟨_, pool, index, s.stake.validatorQueue, _, s.distr.delegationDistInfos⟩)
    ⟨hget, by rw [sub_neg_eq_add]; exact hraw, fun _ => (Dvd.intro_left amount rfl).neg_right, ?_,
      fun hnonneg h => (hbacked hnonneg h).2, hranks, .set (.inr rfl) ?_ ?_⟩ (.same rfl)
  · refine (tokensToBonded_ok hpool).congr ?_
    simp only [ValidatorValue.bonded, hraw, newDecFromInt_raw]
    split_ifs <;> ring
  · rw [hshares]
    change total.raw = _
    omega
  · intro hnonneg h hold
    exact hshares ▸ add_nonneg hold (hbacked hnonneg h).1

end
end Irishub.Stake
