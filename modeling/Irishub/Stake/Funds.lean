import Irishub.Stake.Writes

/-!
# Stake: where coins go

Coins are held by accounts, by the fee pool and the records of the distribution
module, and by the fees collected in a block. Outside the release of what has
matured, the operations of stake move them in four ways only (`Moved`): a reward
is taken from the pools and paid out, an account pays for what it signed, a fee is
collected, and the collected fees are allocated. Everything else leaves all coins
where they are (`SameFunds`); in particular nothing that leaves a validator enters
an account.

**Results**

* `moved_of_op`: an operation that does not end a block moves coins in these ways.
* `moved_of_validatorSetUpdates`: so does the update of the validator set.
-/

namespace Irishub.Stake
open Lib Relation Irishub.Distribution State

section

/-- Coins of the accounts, of the distribution module and of the collected fees are where they
were. The record of a validator may be gone, or new and empty. -/
structure SameFunds (t t' : Transit) : Prop where
  accounts : t'.state.bank.accounts = t.state.bank.accounts
  collectedFees : t'.state.collectedFees = t.state.collectedFees
  feePool : t'.state.distr.feePool = t.state.distr.feePool
  infos : ∀ v vi, t'.state.distr.validatorDistInfos.get v = some vi →
    t.state.distr.validatorDistInfos.get v = some vi ∨ vi.delPool = [] ∧ vi.valCommission = []
  rewards : t'.rewards = t.rewards

/-- The ways in which coins move while nothing is released. -/
inductive Moved (actor : Actor) : Transit → Transit → Prop
  | apart {t t' : Transit} (h : SameFunds t t') : Moved actor t t'
  | reward {t t' : Transit} (h : Reward t t') : Moved actor t t'
  | pay {s : State} {x x' : ℤ} {d : Address} {coin : Coin} {bank : Bank}
      (hactor : actor = .account d) (h : s.bank.subtractCoins d [coin] = .ok bank) :
      Moved actor ⟨s, [], x⟩ ⟨{ s with bank := bank }, [], x'⟩
  | collect {s s' : State} {x : ℤ} {payer : Address} {fee : Coins}
      (h : s.collectFees payer fee = .ok s') : Moved actor ⟨s, [], x⟩ ⟨s', [], x⟩
  | allocate {s s' : State} {x : ℤ} {percentVotes : Dec} {proposer : Address}
      (h : s.allocateTokens percentVotes proposer = .ok s') : Moved actor ⟨s, [], x⟩ ⟨s', [], x⟩

variable {env : Env} {actor : Actor} {op : Op} {s s' : State} {t t' : Transit}
  {r : DecCoins} {x x' : ℤ}

lemma SameFunds.of_eq (haccounts : s'.bank.accounts = s.bank.accounts)
    (hfees : s'.collectedFees = s.collectedFees) (hdistr : s'.distr = s.distr) :
    SameFunds ⟨s, r, x⟩ ⟨s', r, x'⟩ where
  accounts := haccounts
  collectedFees := hfees
  feePool := congrArg DistrStore.feePool hdistr
  infos v vi hvi := Or.inl (by rwa [← hdistr])
  rewards := rfl

/-- A write that any operation may make moves coins in one of the ways. -/
lemma Effect.moved (h : Effect env actor t t') : Moved actor t t' := by
  cases h with
  | reward h => exact .reward h
  | pay hactor hcoin h => exact .pay hactor h
  | collect h => exact .collect h
  | allocate h => exact .allocate h
  | aside | truncate | park | redelegation | powers => exact .apart (.of_eq rfl rfl rfl)
  | rewrite h =>
    cases h with
    | mk h => exact .apart ⟨h.pool.accounts, rfl, rfl, fun _ _ => Or.inl, rfl⟩
  | @removeValidator s =>
    refine .apart ⟨rfl, rfl, rfl, fun u vi hvi => Or.inl ?_, rfl⟩
    exact Store.forall_delete (P := fun u vi => s.distr.validatorDistInfos.get u = some vi)
      (fun _ _ h => h) _ u vi hvi
  | burn hactor hamount h | burnUnbonding ubd hactor hubd hamount h =>
    exact .apart (.of_eq (Bank.decreaseTotalLoosenToken_accounts h) rfl rfl)

/-- So does every write of an operation that does not end a block. -/
lemma Write.moved (hend : ¬op.Ends) (h : Write env op t t') : Moved op.actor t t' := by
  cases h with
  | effect h => exact h.moved
  | create hop haddr slashing h =>
    refine .apart ⟨rfl, rfl, rfl, ?_, rfl⟩
    exact Store.forall_set (fun _ _ => Or.inl) (Or.inr ⟨rfl, rfl⟩)
  | withdrawAddr hop => exact .apart ⟨rfl, rfl, rfl, fun _ _ => Or.inl, rfl⟩
  | signingInfo hop => exact .apart (.of_eq rfl rfl rfl)
  | complete hop | dequeue hop | completeUnbonding hop | completeRedelegation hop | nextBlock hop =>
    exact absurd hop hend

/-- An operation that does not end a block moves coins as rewards, fees and payments only. -/
lemma moved_of_op (hproper : s.Proper) (hend : ¬op.Ends)
    (h : op.run env (appHooks env) s = .ok s') : ReflTransGen (Moved op.actor) s.rest s'.rest :=
  ReflTransGen.mono (fun _ _ => Write.moved hend) _ _ (Op.run_writes hproper h)

lemma moved_of_validatorSetUpdates {updates : List ValidatorUpdate}
    (h : s.applyAndReturnValidatorSetUpdates env (appHooks env) = .ok (s', updates)) :
    ReflTransGen (Moved .chain) s.rest s'.rest :=
  ReflTransGen.mono (fun _ _ => Effect.moved) _ _ (applyAndReturnValidatorSetUpdates_effects h)

end
end Irishub.Stake
