import Irishub.Bank.Totals
import Irishub.Lib.DueQueue
import Irishub.Stake.Funds

/-!
# Stake: what waits for its time

Unbonding delegations and unbonding validators are listed in queues of time
slices. Each is listed once, at the time it carries (`State.Queued`): the writes
outside the end of a block keep this one by one, and the end of a block takes whole
slices and what they list at the same time.

An unbonding delegation is therefore paid by the first end of a block that has
reached its time, and by no other write.

**Results**

* `unbonding_paid_once`: unbonding is paid once and on time, in every state of a run.
-/

namespace Irishub.Stake
open Lib Relation State Store Option

section

/-- Time at which the validator `v` becomes unbonded. -/
def State.dueValidator (s : State) (v : Address) : Option ℤ :=
  (s.stake.validators.get v).bind ValidatorValue.due

def State.unbondingAt (s : State) (pair : DVPair) : Option UbdValue :=
  s.stake.unbondingDelegations.get (toLex (pair.delegatorAddr, pair.validatorAddr))

def State.dueUnbonding (s : State) (pair : DVPair) : Option ℤ :=
  (s.unbondingAt pair).map UbdValue.minTime

/-- Queues list every unbonding validator and every unbonding delegation once, at its time. -/
structure State.Queued (s : State) : Prop where
  validators : Sliced s.stake.validatorQueue s.dueValidator
  unbonding : Sliced s.stake.unbondingQueue s.dueUnbonding

variable {env : Env} {actor : Actor} {signers : List Address} {ending : Prop} {s s' : State}
  {v : Address} {val val' : ValidatorValue}

lemma dueValidator_of_get (h : s.stake.validators.get v = some val) :
    s.dueValidator v = val.due := by rw [dueValidator, h, bind_some]

lemma dueValidator_congr (h : s'.stake.validators = s.stake.validators) :
    s'.dueValidator = s.dueValidator := by
  funext v
  rw [dueValidator, dueValidator, h]

lemma dueValidator_set {due : Option ℤ}
    (h : s'.stake.validators = s.stake.validators.set v val') (hdue : val'.due = due) :
    s'.dueValidator = Function.update s.dueValidator v due := by
  funext u
  rw [dueValidator, h, get_set, Function.update_apply]
  split_ifs
  · exact hdue
  · rfl

lemma dueValidator_delete (hdue : s.dueValidator v = none)
    (h : s'.stake.validators = s.stake.validators.delete v) : s'.dueValidator = s.dueValidator := by
  funext u
  rw [dueValidator, h, get_delete]
  split_ifs with hu
  · rw [hu, hdue]
    rfl
  · rfl

lemma dueValidator_eq_some {time : ℤ} : s.dueValidator v = some time ↔
      ∃ validator, s.getValidator v = some validator ∧ validator.status = .unbonding ∧
        validator.unbondingMinTime = time := by
  simp only [dueValidator, ValidatorValue.due, bind_eq_some_iff,
    ite_none_right_eq_some, Option.some.injEq]
  constructor
  · rintro ⟨val, hval, hstatus, htime⟩
    exact ⟨⟨val, v⟩, getValidator_eq_some.mpr ⟨hval, rfl⟩, hstatus, htime⟩
  · rintro ⟨validator, hvalidator, hstatus, htime⟩
    exact ⟨validator.toValidatorValue, (getValidator_eq_some.mp hvalidator).1, hstatus, htime⟩

lemma slice_deleteValidatorQueue (s : State) (validator : Validator) (t : ℤ) :
    slice (s.deleteValidatorQueue validator).stake.validatorQueue t =
      if t = validator.unbondingMinTime then
        (slice s.stake.validatorQueue validator.unbondingMinTime).filter
          (fun addr => addr ≠ validator.operatorAddr)
      else slice s.stake.validatorQueue t := by
  simp only [deleteValidatorQueue]
  by_cases hempty : ((s.stake.validatorQueue.get validator.unbondingMinTime).getD []).filter
      (fun addr => addr ≠ validator.operatorAddr) = []
  · rw [if_pos hempty, slice_delete]
    split_ifs
    · exact hempty.symm
    · rfl
  · rw [if_neg hempty, slice_set]
    rfl

/-- Queue follows the record of a validator that is rewritten. -/
lemma Requeued.sliced {queue : Store ℤ (List Address)} (h : Requeued s v val val' queue)
    (hval : s.stake.validators.get v = some val)
    (hs : Sliced s.stake.validatorQueue s.dueValidator) :
    Sliced queue (Function.update s.dueValidator v val'.due) := by
  have hv := dueValidator_of_get hval
  cases h with
  | same hdue => exact hs.congr (Function.update_eq_self_iff.mpr (hdue.trans hv.symm))
  | leave htime hdue =>
    have hat : ∀ t, s.dueValidator v = some t → t = val'.unbondingMinTime := by
      intro t ht
      rw [hv, ValidatorValue.due] at ht
      split_ifs at ht
      rw [htime, ← Option.some.inj ht]
    exact hdue ▸ hs.drop hat (slice_deleteValidatorQueue s ⟨val', v⟩)
  | enter hdue hdue' => exact hdue' ▸ hs.push (hv.trans hdue) (slice_set _ _ · _)

/-- Outside the end of a block, validators are queued as they change their status. -/
lemma Recording.queued (h : Recording env actor signers ending s s') (hend : ¬ending)
    (hs : Sliced s.stake.validatorQueue s.dueValidator) :
    Sliced s'.stake.validatorQueue s'.dueValidator := by
  cases h with
  | same h hqueue =>
    rw [hqueue hend, dueValidator_congr h.validators]
    exact hs
  | rewrite h hqueue =>
    exact ((hqueue hend).sliced h.get hs).congr (dueValidator_set rfl rfl)
  | remove hval hshares hstatus =>
    refine hs.congr (dueValidator_delete ?_ rfl)
    rw [dueValidator_of_get hval, ValidatorValue.due, hstatus, if_neg (by simp)]
  | @create validator _ _ hv h =>
    have hdue : validator.toValidatorValue.due = none := by
      rw [ValidatorValue.due, h.status, if_neg (by simp)]
    refine hs.congr ((dueValidator_set rfl hdue).trans (Function.update_eq_self_iff.mpr ?_))
    rw [dueValidator, h.none, bind_none]

lemma unbondingAt_congr (h : s'.stake.unbondingDelegations = s.stake.unbondingDelegations) :
    s'.unbondingAt = s.unbondingAt := by
  funext pair
  rw [unbondingAt, unbondingAt, h]

lemma dueUnbonding_congr (h : s'.stake.unbondingDelegations = s.stake.unbondingDelegations) :
    s'.dueUnbonding = s.dueUnbonding := by
  funext pair
  rw [dueUnbonding, dueUnbonding, unbondingAt_congr h]

lemma dueUnbonding_set {d v : Address} {ubd : UbdValue}
    (h : s'.stake.unbondingDelegations = s.stake.unbondingDelegations.set (toLex (d, v)) ubd) :
    s'.dueUnbonding = Function.update s.dueUnbonding ⟨d, v⟩ (some ubd.minTime) := by
  funext pair
  obtain ⟨d', v'⟩ := pair
  rw [dueUnbonding, unbondingAt, h, get_set, Function.update_apply]
  simp only [EmbeddingLike.apply_eq_iff_eq, Prod.mk.injEq, DVPair.mk.injEq]
  split_ifs
  · rfl
  · rfl

lemma Pending.queued (h : Pending actor ending s s') (hend : ¬ending)
    (hs : Sliced s.stake.unbondingQueue s.dueUnbonding) :
    Sliced s'.stake.unbondingQueue s'.dueUnbonding := by
  cases h with
  | same h =>
    rw [h.unbondingQueue]
    exact hs.congr (dueUnbonding_congr h.unbondingDelegations)
  | park ubd hactor hnone =>
    have hdue : s.dueUnbonding ⟨ubd.delegatorAddr, ubd.validatorAddr⟩ = none :=
      map_eq_none_iff.mpr hnone
    exact (hs.push hdue (slice_set _ _ · _)).congr (dueUnbonding_set rfl)
  | reduce ubd hactor hubd =>
    refine hs.congr ((dueUnbonding_set rfl).trans (Function.update_eq_self_iff.mpr ?_))
    exact (congrArg (Option.map UbdValue.minTime) hubd).symm
  | redelegation red hne => exact hs
  | release hend' => exact absurd hend' hend

def Stays (actor : Actor) (s s' : State) : Prop :=
  ∀ k ubd, s.stake.unbondingDelegations.get k = some ubd →
    ∃ ubd', s'.stake.unbondingDelegations.get k = some ubd' ∧ ubd'.minTime = ubd.minTime ∧
      (actor ≠ .slashing → ubd' = ubd)

lemma Stays.refl (actor : Actor) (s : State) : Stays actor s s :=
  fun _ ubd hubd => ⟨ubd, hubd, rfl, fun _ => rfl⟩

lemma Stays.trans {s'' : State} (h : Stays actor s s') (h' : Stays actor s' s'') :
    Stays actor s s'' := by
  intro k ubd hubd
  obtain ⟨ubd1, hubd1, htime1, hsame1⟩ := h k ubd hubd
  obtain ⟨ubd2, hubd2, htime2, hsame2⟩ := h' k ubd1 hubd1
  exact ⟨ubd2, hubd2, htime2.trans htime1, fun ha => (hsame2 ha).trans (hsame1 ha)⟩

lemma Stays.of_eq (h : s'.stake.unbondingDelegations = s.stake.unbondingDelegations) :
    Stays actor s s' :=
  fun _ ubd hubd => ⟨ubd, by rw [h]; exact hubd, rfl, fun _ => rfl⟩

lemma Pending.stays (h : Pending actor ending s s') (hend : ¬ending) : Stays actor s s' := by
  cases h with
  | same h => exact .of_eq h.unbondingDelegations
  | park ubd hactor hnone =>
    intro k ubd' hubd'
    refine ⟨ubd', ?_, rfl, fun _ => rfl⟩
    refine (get_set_ne _ _ ?_).trans hubd'
    rintro rfl
    cases hnone.symm.trans hubd'
  | reduce ubd hactor hubd =>
    intro k ubd' hubd'
    simp only [setUnbondingDelegation, get_set]
    split_ifs with hk
    · subst hk
      cases hubd.symm.trans hubd'
      exact ⟨_, rfl, rfl, fun ha => absurd hactor ha⟩
    · exact ⟨ubd', hubd', rfl, fun _ => rfl⟩
  | redelegation red hne => exact .of_eq rfl
  | release hend' => exact absurd hend' hend

lemma Pending.of_chain (h : Pending .chain ending s s') (hend : ¬ending) :
    s'.stake.unbondingDelegations = s.stake.unbondingDelegations ∧ s'.blockTime = s.blockTime := by
  cases h with
  | same h => exact ⟨h.unbondingDelegations, h.blockTime⟩
  | park ubd hactor | reduce ubd hactor => cases hactor
  | redelegation red hne => exact ⟨rfl, rfl⟩
  | release hend' => exact absurd hend' hend

end

section

/-- What is paid and what is due are the same. -/
structure Apart (s s' : State) : Prop where
  bank : s'.bank = s.bank
  unbondingDelegations : s'.stake.unbondingDelegations = s.stake.unbondingDelegations
  unbondingQueue : s'.stake.unbondingQueue = s.stake.unbondingQueue
  blockTime : s'.blockTime = s.blockTime

lemma Apart.refl (s : State) : Apart s s := ⟨rfl, rfl, rfl, rfl⟩

lemma Apart.trans {s s' s'' : State} (h : Apart s s') (h' : Apart s' s'') : Apart s s'' where
  bank := h'.bank.trans h.bank
  unbondingDelegations := h'.unbondingDelegations.trans h.unbondingDelegations
  unbondingQueue := h'.unbondingQueue.trans h.unbondingQueue
  blockTime := h'.blockTime.trans h.blockTime

def Expected (e : Fault) : Prop := e ≠ .panic .unexpectedInValidatorQueue

variable {env : Env} {s s' : State} {v : Address} {time : ℤ}

lemma getValidatorPowerRank_sat (validator : Validator) :
    Sat Expected (fun _ => True) (State.getValidatorPowerRank validator) := by
  simp only [getValidatorPowerRank, Dec.roundInt64]
  split_ifs
  · exact trivial
  · exact Fault.panic.inj.mt (by simp)

lemma removeValidator_sat {val : ValidatorValue} (hval : s.stake.validators.get v = some val) :
    Sat Expected (fun s' => Apart s s' ∧ s'.stake.validatorQueue = s.stake.validatorQueue ∧
        s'.stake.validators = s.stake.validators.delete v)
      (s.removeValidator env (appHooks env) v) := by
  have hget : s.getValidator v = some ⟨val, v⟩ := getValidator_eq_some.mpr ⟨hval, rfl⟩
  simp only [removeValidator, hget]
  refine (sat_assert (fun _ => by simp [Expected])).bind (fun _ _ => ?_)
  refine (getValidatorPowerRank_sat ⟨val, v⟩).bind (fun key _ => ?_)
  have hremove : Sat Expected
      (fun s' => ∃ distr, s' = { s.deleteValidator env ⟨val, v⟩ key with distr := distr })
      ((s.deleteValidator env ⟨val, v⟩ key).removeValidatorDistInfo v) := by
    unfold removeValidatorDistInfo getValidatorDistInfo
    cases (s.deleteValidator env ⟨val, v⟩ key).distr.validatorDistInfos.get v with
    | none => simp [deref, raise, Expected]
    | some vi =>
      refine (sat_assert (fun _ => by simp [Expected])).bind (fun _ _ => ?_)
      refine (sat_assert (fun _ => by simp [Expected])).bind (fun _ _ => ?_)
      exact ⟨_, rfl⟩
  refine hremove.bind ?_
  rintro _ ⟨distr, rfl⟩
  exact ⟨⟨rfl, rfl, rfl, rfl⟩, rfl, rfl⟩

lemma unbondMature_sat (hdue : s.dueValidator v = some time) : Sat Expected
      (fun s' => Apart s s' ∧ s'.stake.validatorQueue = s.stake.validatorQueue ∧
        s'.dueValidator = Function.update s.dueValidator v none)
      (s.unbondMature env (appHooks env) v) := by
  obtain ⟨val, hval, hdue⟩ := bind_eq_some_iff.mp hdue
  have hstatus : val.status = .unbonding := by
    unfold ValidatorValue.due at hdue
    split_ifs at hdue with hstatus
    exact hstatus
  have hget : s.getValidator v = some ⟨val, v⟩ := getValidator_eq_some.mpr ⟨hval, rfl⟩
  simp only [unbondMature, hget]
  simp only [unbondingToUnbonded_eq hstatus, hstatus, decide_true, assert, if_true, ok_bind]
  have hunbonded : (s.setValidator ⟨{ val with status := .unbonded }, v⟩).dueValidator =
      Function.update s.dueValidator v none := dueValidator_set rfl rfl
  split_ifs
  · refine (removeValidator_sat (get_set_self _ _ _)).imp ?_
    rintro s' ⟨hapart, hqueue, hvalidators⟩
    refine ⟨⟨hapart.bank, hapart.unbondingDelegations, hapart.unbondingQueue, hapart.blockTime⟩,
      hqueue, ?_⟩
    rw [← hunbonded]
    refine dueValidator_delete ?_ hvalidators
    rw [hunbonded, Function.update_self]
  · exact ⟨⟨rfl, rfl, rfl, rfl⟩, rfl, hunbonded⟩

lemma unbondTimeSlice_sat {items : List Address} (hnodup : items.Nodup)
    (hdue : ∀ v ∈ items, s.dueValidator v = some time) : Sat Expected
      (fun s' => Apart s s' ∧ s'.stake.validatorQueue = s.stake.validatorQueue.delete time ∧
        s'.dueValidator = fun v => if v ∈ items then none else s.dueValidator v)
      (s.unbondTimeSlice env (appHooks env) (time, items)) := by
  have hloop : Sat Expected
      (fun s' => Apart s s' ∧ s'.stake.validatorQueue = s.stake.validatorQueue ∧
        s'.dueValidator = fun v => if v ∈ items then none else s.dueValidator v)
      (items.foldlM (fun s v => s.unbondMature env (appHooks env) v) s) := by
    -- what is left of the slice is still due
    refine Sat.imp (Sat.foldlM_suffix (I := fun rest s' => Apart s s' ∧
      s'.stake.validatorQueue = s.stake.validatorQueue ∧ rest.Nodup ∧
      (∀ v ∈ rest, s'.dueValidator v = some time) ∧
      ∀ v, (if v ∈ rest then none else s'.dueValidator v) =
        if v ∈ items then none else s.dueValidator v) ?_ items s
      ⟨.refl s, rfl, hnodup, hdue, fun _ => rfl⟩) ?_
    · rintro v rest s₁ ⟨hapart, hqueue, hnodup, hdue, hview⟩
      obtain ⟨hv, hnodup⟩ := List.nodup_cons.mp hnodup
      refine (unbondMature_sat (hdue v List.mem_cons_self)).imp ?_
      rintro s2 ⟨hapart2, hqueue2, hdue2⟩
      refine ⟨hapart.trans hapart2, hqueue2.trans hqueue, hnodup, fun u hu => ?_, fun u => ?_⟩
      · have huv : u ≠ v := fun heq => hv (heq ▸ hu)
        rw [hdue2, Function.update_of_ne huv]
        exact hdue u (List.mem_cons_of_mem v hu)
      · rw [← hview u, hdue2, Function.update_apply]
        by_cases huv : u = v
        · simp [huv]
        · simp [huv]
    · rintro s' ⟨hapart, hqueue, _, _, hview⟩
      exact ⟨hapart, hqueue, funext (fun v => by simpa using hview v)⟩
  refine hloop.bind ?_
  rintro s' ⟨hapart, hqueue, hview⟩
  refine ⟨⟨hapart.bank, hapart.unbondingDelegations, hapart.unbondingQueue, hapart.blockTime⟩, ?_,
    hview⟩
  rw [hqueue]

lemma unbondAllMatureValidatorQueue_sat (hs : Sliced s.stake.validatorQueue s.dueValidator) :
    Sat Expected (fun s' => Apart s s' ∧ Sliced s'.stake.validatorQueue s'.dueValidator)
      (s.unbondAllMatureValidatorQueue env (appHooks env)) := by
  have hsorted : (s.stake.validatorQueue.entries.filter (fun e => e.1 ≤ s.blockTime)).Pairwise
      (fun a b => a.1 < b.1) := List.Pairwise.filter _ s.stake.validatorQueue.sorted
  have hstored : ∀ e ∈ s.stake.validatorQueue.entries.filter (fun e => e.1 ≤ s.blockTime),
      s.stake.validatorQueue.get e.1 = some e.2 :=
    fun e he => mem_entries.mp (List.mem_of_mem_filter he)
  -- the slices not yet visited are as they were
  refine Sat.imp (Sat.foldlM_suffix (I := fun rest s' => Apart s s' ∧
    Sliced s'.stake.validatorQueue s'.dueValidator ∧ rest.Pairwise (fun a b => a.1 < b.1) ∧
    ∀ e ∈ rest, s'.stake.validatorQueue.get e.1 = some e.2) ?_ _ s
    ⟨.refl s, hs, hsorted, hstored⟩) (fun s' h => ⟨h.1, h.2.1⟩)
  rintro ⟨time, items⟩ rest s₁ ⟨hapart, hsliced, hsorted, hstored⟩
  obtain ⟨hlt, hsorted⟩ := List.pairwise_cons.mp hsorted
  have hslice : slice s₁.stake.validatorQueue time = items := by
    rw [slice, hstored (time, items) List.mem_cons_self, getD_some]
  have hnodup : items.Nodup := hslice ▸ hsliced.nodup_slice time
  have hmem : ∀ v, v ∈ items ↔ s₁.dueValidator v = some time := fun v => by
    rw [← hslice, hsliced.mem_slice]
  refine (unbondTimeSlice_sat hnodup (fun v hv => (hmem v).mp hv)).imp ?_
  rintro s2 ⟨hapart2, hqueue, hdue⟩
  refine ⟨hapart.trans hapart2, ?_, hsorted, fun e he => ?_⟩
  · rw [hqueue]
    refine (hsliced.delete time).congr ?_
    rw [hdue]
    funext v
    exact if_congr (hmem v) rfl rfl
  · rw [hqueue, get_delete_ne _ (hlt e he).ne']
    exact hstored e (List.mem_cons_of_mem _ he)

end

section

/-- What the unbonding delegations of the account `a` that have reached their time hold of the
denomination `denom`. -/
def State.matured (s : State) (a : Address) (denom : String) : ℤ :=
  Store.total (fun k ubd => if (ofLex k).1 = a ∧ ubd.minTime ≤ s.blockTime then
    Coins.denomSum denom [ubd.balance] else 0) s.stake.unbondingDelegations

variable {env : Env} {s s' : State} {d v : Address} {ubd : UbdValue}

lemma completeUnbonding_of_skipError
    (hubd : s.stake.unbondingDelegations.get (toLex (d, v)) = some ubd)
    (h : s.skipError (s.completeUnbonding d v) = .ok s') : s.completeUnbonding d v = .ok s' := by
  have hpanic : Sat Fault.IsPanic (fun _ => True) (s.completeUnbonding d v) := by
    simp only [completeUnbonding, getUnbondingDelegation, hubd, map_some, found, ok_bind]
    exact (Bank.addCoins_isPanic _ _ _).bind (fun _ _ => trivial)
  unfold skipError at h
  split at h
  · rename_i heq
    exact (hpanic.of_error heq).elim
  · exact h

/-- Unbonding delegations of the pairs in `items` are paid; nothing else is. -/
structure Paid (items : List DVPair) (s s' : State) : Prop where
  balance : ∀ a denom, s'.bank.balance a denom + s'.matured a denom =
    s.bank.balance a denom + s.matured a denom
  unbondingAt : ∀ pair, s'.unbondingAt pair = if pair ∈ items then none else s.unbondingAt pair
  rest : ∃ bank ubds, s' = s.withUnbonding bank ubds

lemma Paid.blockTime {items : List DVPair} (h : Paid items s s') : s'.blockTime = s.blockTime := by
  obtain ⟨_, _, rfl⟩ := h.rest
  rfl

lemma Paid.append {items items' : List DVPair} {s'' : State} (h : Paid items s s')
    (h' : Paid items' s' s'') : Paid (items ++ items') s s'' where
  balance a denom := (h'.balance a denom).trans (h.balance a denom)
  unbondingAt pair := by
    rw [h'.unbondingAt, h.unbondingAt]
    by_cases hpair : pair ∈ items
    · simp [hpair]
    · simp [hpair]
  rest := by
    obtain ⟨_, _, rfl⟩ := h.rest
    obtain ⟨bank, ubds, rfl⟩ := h'.rest
    exact ⟨bank, ubds, rfl⟩

lemma completeUnbonding_paid (hubd : s.unbondingAt ⟨d, v⟩ = some ubd)
    (hle : ubd.minTime ≤ s.blockTime) (h : s.skipError (s.completeUnbonding d v) = .ok s') :
    Paid [⟨d, v⟩] s s' := by
  obtain ⟨ubd', bank, hubd', hbank, rfl⟩ :=
    completeUnbonding_ok (completeUnbonding_of_skipError hubd h)
  cases hubd.symm.trans hubd'
  refine ⟨fun a denom => ?_, ?_, _, _, rfl⟩
  · simp only [matured, total_delete, Store.contribution, hubd', elim_some,
      Bank.balance_addCoins hbank, ofLex_toLex, hle, and_true, eq_comm (a := d)]
    ring
  · rintro ⟨d', v'⟩
    simp only [unbondingAt, get_delete, EmbeddingLike.apply_eq_iff_eq, Prod.mk.injEq,
      List.mem_singleton, DVPair.mk.injEq]

lemma completeMature_paid : ∀ {items : List DVPair} {s s' : State}, items.Nodup →
    (∀ pair ∈ items, ∃ ubd, s.unbondingAt pair = some ubd ∧ ubd.minTime ≤ s.blockTime) →
    items.foldlM (fun s pair =>
      s.skipError (s.completeUnbonding pair.delegatorAddr pair.validatorAddr)) s = .ok s' →
    Paid items s s'
  | [], s, s', _, _, h => by
    cases h
    exact ⟨fun _ _ => rfl, fun _ => rfl, _, _, rfl⟩
  | pair :: items, s, s', hnodup, hdue, h => by
    rw [List.foldlM_cons] at h
    obtain ⟨s₁, h1, h⟩ := bind_ok.mp h
    obtain ⟨hpair, hnodup⟩ := List.nodup_cons.mp hnodup
    obtain ⟨ubd, hubd, hle⟩ := hdue pair List.mem_cons_self
    have hfirst := completeUnbonding_paid hubd hle h1
    refine hfirst.append (completeMature_paid hnodup (fun other hother => ?_) h)
    have hne : other ≠ pair := fun heq => hpair (heq ▸ hother)
    rw [hfirst.unbondingAt, if_neg (by simpa using hne), hfirst.blockTime]
    exact hdue other (List.mem_cons_of_mem pair hother)

lemma Paid.all {items : List DVPair} (h : Paid items s s')
    (hmature : ∀ pair, pair ∈ items ↔ ∃ ubd, s.unbondingAt pair = some ubd ∧
      ubd.minTime ≤ s.blockTime) : (∀ pair, s'.unbondingAt pair =
      (s.unbondingAt pair).filter (fun ubd => s.blockTime < ubd.minTime)) ∧
    ∀ a denom, s'.bank.balance a denom = s.bank.balance a denom + s.matured a denom := by
  have hleft : ∀ pair, s'.unbondingAt pair =
      (s.unbondingAt pair).filter (fun ubd => s.blockTime < ubd.minTime) := by
    intro pair
    rw [h.unbondingAt pair]
    split_ifs with hpair
    · obtain ⟨ubd, hubd, hle⟩ := (hmature pair).mp hpair
      rw [hubd, filter_some, if_neg (by simpa using hle)]
    · cases hubd : s.unbondingAt pair with
      | none => rfl
      | some ubd =>
        have hlt : s.blockTime < ubd.minTime :=
          not_le.mp (fun hle => hpair ((hmature pair).mpr ⟨ubd, hubd, hle⟩))
        rw [filter_some, if_pos (decide_eq_true hlt)]
  refine ⟨hleft, fun a denom => ?_⟩
  have hzero : s'.matured a denom = 0 := by
    unfold matured
    refine (total_congr (g := fun _ _ => 0) (fun k ubd hubd => ?_)).trans (by simp [Store.total])
    have hk : s'.unbondingAt ⟨(ofLex k).1, (ofLex k).2⟩ = some ubd := hubd
    rw [hleft, filter_eq_some_iff, decide_eq_true_eq] at hk
    rw [h.blockTime, if_neg (fun hle => absurd hle.2 (not_le.mpr hk.2))]
  rw [← h.balance a denom, hzero, add_zero]

lemma completeRedelegations_ok {items : List DVVTriplet}
    (h : items.foldlM (fun s triplet => s.skipError (s.completeRedelegation triplet.delegatorAddr
      triplet.validatorSrcAddr triplet.validatorDstAddr)) s = .ok s') :
    ∃ redelegations, s' = { s with stake := { s.stake with redelegations := redelegations } } := by
  refine invariant_of_foldlM (I := fun t : State => ∃ redelegations,
    t = { s with stake := { s.stake with redelegations := redelegations } }) ?_ h ⟨_, rfl⟩
  rintro _ t triplet ⟨redelegations, rfl⟩ ht
  unfold skipError at ht
  split at ht
  · cases ht
    exact ⟨redelegations, rfl⟩
  · simp only [completeRedelegation, bind_ok, pure_eq_ok] at ht
    obtain ⟨_, _, _, _, rfl⟩ := ht
    exact ⟨_, rfl⟩

/-- End of a block: what has matured is paid and leaves the queues. -/
lemma releaseMature_pays (hs : s.Queued) (h : s.releaseMature env (appHooks env) = .ok s') :
    s'.Queued ∧ (∀ a denom, s'.bank.balance a denom = s.bank.balance a denom + s.matured a denom) ∧
      ∀ pair, s'.unbondingAt pair =
        (s.unbondingAt pair).filter (fun ubd => s.blockTime < ubd.minTime) := by
  simp only [releaseMature, bind_ok] at h
  obtain ⟨s₁, hunbond, s2, hcomplete, hredelegate⟩ := h
  obtain ⟨hapart, hvalidators1⟩ := (unbondAllMatureValidatorQueue_sat hs.validators).of_ok hunbond
  have hunbonding : Sliced s₁.stake.unbondingQueue s₁.dueUnbonding := by
    rw [hapart.unbondingQueue, dueUnbonding_congr hapart.unbondingDelegations]
    exact hs.unbonding
  have hmature : ∀ pair, pair ∈ matureItems s₁.stake.unbondingQueue s₁.blockTime ↔
      ∃ ubd, s₁.unbondingAt pair = some ubd ∧ ubd.minTime ≤ s₁.blockTime := by
    intro pair
    rw [hunbonding.mem_matureItems]
    simp only [dueUnbonding, map_eq_some_iff]
    constructor
    · rintro ⟨_, ⟨ubd, hubd, rfl⟩, hle⟩
      exact ⟨ubd, hubd, hle⟩
    · rintro ⟨ubd, hubd, hle⟩
      exact ⟨ubd.minTime, ⟨ubd, hubd, rfl⟩, hle⟩
  have hpaid : Paid _ s₁.dequeueAllMatureUnbondingQueue.2 s2 :=
    completeMature_paid (hunbonding.nodup_matureItems s₁.blockTime)
      (fun pair hpair => (hmature pair).mp hpair) hcomplete
  obtain ⟨hleft, hbalance⟩ := hpaid.all hmature
  obtain ⟨_, _, rfl⟩ := hpaid.rest
  obtain ⟨_, rfl⟩ := completeRedelegations_ok hredelegate
  refine ⟨⟨hvalidators1, ?_⟩, fun a denom => ?_, fun pair => ?_⟩
  · refine (hunbonding.dequeue s₁.blockTime).congr (funext (fun pair => ?_))
    rw [dueUnbonding, dueUnbonding, filter_map]
    exact congrArg (Option.map UbdValue.minTime) (hleft pair)
  · have hmatured : s₁.matured a denom = s.matured a denom := by
      rw [matured, matured, hapart.unbondingDelegations, hapart.blockTime]
    rw [← hapart.bank, ← hmatured]
    exact hbalance a denom
  · rw [← unbondingAt_congr hapart.unbondingDelegations, ← hapart.blockTime]
    exact hleft pair

end

section
variable {env : Env} {op : Op} {s s' : State}

lemma applyAndReturnValidatorSetUpdates_queued {updates : List ValidatorUpdate} (hs : s.Queued)
    (h : s.applyAndReturnValidatorSetUpdates env (appHooks env) = .ok (s', updates)) :
    s'.Queued ∧ s'.stake.unbondingDelegations = s.stake.unbondingDelegations ∧
      s'.blockTime = s.blockTime := by
  have heffects : ReflTransGen (Effect env .chain) s.rest s'.rest :=
    applyAndReturnValidatorSetUpdates_effects h
  refine invariant_of_step (I := fun t : Transit => t.state.Queued ∧
    t.state.stake.unbondingDelegations = s.stake.unbondingDelegations ∧
    t.state.blockTime = s.blockTime) ?_ heffects ⟨hs, rfl, rfl⟩
  rintro t t' ⟨hqueued, hubds, htime⟩ heffect
  have htrace := heffect.trace [] False
  have hpending := htrace.pending
  refine ⟨⟨htrace.recording.queued not_false hqueued.validators,
    hpending.queued not_false hqueued.unbonding⟩, ?_⟩
  obtain ⟨hubds', htime'⟩ := hpending.of_chain not_false
  exact ⟨hubds'.trans hubds, htime'.trans htime⟩

lemma queued_of_op (hproper : s.Proper) (hs : s.Queued) (hend : ¬op.Ends)
    (h : op.run env (appHooks env) s = .ok s') : s'.Queued ∧ Stays op.actor s s' := by
  refine invariant_of_step (I := fun t : Transit => t.state.Queued ∧ Stays op.actor s t.state) ?_
    (Op.run_writes hproper h) ⟨hs, .refl _ s⟩
  rintro t t' ⟨hqueued, hstays⟩ hwrite
  exact ⟨⟨hwrite.recording.queued hend hqueued.validators,
    hwrite.pending.queued hend hqueued.unbonding⟩, hstays.trans (hwrite.pending.stays hend)⟩

/-- End of a block pays what has reached its time after the validator set has been updated. -/
lemma queued_of_endBlock {nextTime : ℤ} (hs : s.Queued)
    (h : s.endBlock env (appHooks env) nextTime = .ok s') : s'.Queued ∧ ∃ s₁ updates,
      s.applyAndReturnValidatorSetUpdates env (appHooks env) = .ok (s₁, updates) ∧
      (∀ a denom, s'.bank.balance a denom = s₁.bank.balance a denom + s.matured a denom) ∧
      ∀ pair, s'.unbondingAt pair =
        (s.unbondingAt pair).filter (fun ubd => s.blockTime < ubd.minTime) := by
  obtain ⟨s₁, updates, s2, happly, hrelease, rfl⟩ := endBlock_ok h
  obtain ⟨hqueued1, hubds, htime⟩ := applyAndReturnValidatorSetUpdates_queued hs happly
  obtain ⟨hqueued2, hbalance, hleft⟩ := releaseMature_pays hqueued1 hrelease
  have hmatured : s₁.matured = s.matured := by
    funext a denom
    rw [matured, matured, hubds, htime]
  rw [hmatured] at hbalance
  rw [unbondingAt_congr hubds, htime] at hleft
  exact ⟨⟨hqueued2.validators, hqueued2.unbonding⟩, s₁, updates, happly, hbalance, hleft⟩

lemma State.Genesis.queued (hs : s.Genesis) : s.Queued := by
  have hvalidator : s.dueValidator = fun _ => none := by
    funext v
    rw [dueValidator, hs.validators]
    rfl
  have hunbonding : s.dueUnbonding = fun _ => none := by
    funext pair
    rw [dueUnbonding, unbondingAt, hs.unbondingDelegations]
    rfl
  refine ⟨?_, ?_⟩
  · rw [hs.validatorQueue, hvalidator]
    exact sliced_empty
  · rw [hs.unbondingQueue, hunbonding]
    exact sliced_empty

lemma queued_of_run {ops : List Op} (hs : s.Genesis) (h : run env s ops = .ok s') : s'.Queued := by
  have hloop : Sat AnyFault (fun s => s.Proper ∧ s.Queued) (run env s ops) := by
    refine Sat.foldlM ops s ⟨hs.proper, hs.queued⟩
      (fun op _ s₁ hs1 => Sat.of_forall (fun s2 hs2 => ?_))
    refine ⟨proper_of_op hs1.1 hs2, ?_⟩
    by_cases hend : op.Ends
    · obtain ⟨nextTime, rfl⟩ := hend
      exact (queued_of_endBlock hs1.2 hs2).1
    · exact (queued_of_op hs1.1 hs1.2 hend hs2).1
  exact (hloop.of_ok h).2

/-- In the state `s`, unbonding delegations and unbonding validators wait for their time, and what
is done next pays an unbonding delegation exactly when its time has come. -/
structure State.PaysOnTime (env : Env) (s : State) : Prop where
  /-- An unbonding delegation is listed in the unbonding queue once, at its time. -/
  unbondingQueue : ∀ d v time, (slice s.stake.unbondingQueue time).count ⟨d, v⟩ =
    if (s.getUnbondingDelegation d v).map (fun ubd => ubd.minTime) = some time then 1 else 0
  /-- An unbonding validator is in the validator queue, at its time. -/
  validatorQueue : ∀ v time, v ∈ slice s.stake.validatorQueue time ↔
    ∃ val, s.getValidator v = some val ∧ val.status = .unbonding ∧ val.unbondingMinTime = time
  /-- Before the end of a block nothing of an unbonding delegation is paid: coins move as rewards,
  fees and payments only, and every unbonding delegation stays with its balance, unless it is
  slashed. -/
  waits : ∀ (op : Op) (s' : State), ¬op.Ends → op.run env (appHooks env) s = .ok s' →
    ReflTransGen (Moved op.actor) s.rest s'.rest ∧
    ∀ d v ubd, s.getUnbondingDelegation d v = some ubd →
      ∃ ubd', s'.getUnbondingDelegation d v = some ubd' ∧ ubd'.minTime = ubd.minTime ∧
        (op.actor ≠ .slashing → ubd' = ubd)
  /-- The end of a block first updates the validator set, where coins move as rewards only. It then
  adds to every account what its unbonding delegations that have reached their time hold, removes
  these, and leaves the others as they are. -/
  pays : ∀ nextTime s', s.endBlock env (appHooks env) nextTime = .ok s' →
    ∃ s₁ updates, s.applyAndReturnValidatorSetUpdates env (appHooks env) = .ok (s₁, updates) ∧
      ReflTransGen (Moved .chain) s.rest s₁.rest ∧
      (∀ a denom, s'.bank.balance a denom = s₁.bank.balance a denom + s.matured a denom) ∧
      ∀ d v, s'.getUnbondingDelegation d v =
        (s.getUnbondingDelegation d v).filter (fun ubd => s.blockTime < ubd.minTime)
  /-- The search for mature validators finds none that is not unbonding. -/
  statuses : ∀ s₁ updates,
    s.applyAndReturnValidatorSetUpdates env (appHooks env) = .ok (s₁, updates) →
      s₁.unbondAllMatureValidatorQueue env (appHooks env) ≠
        .error (.panic .unexpectedInValidatorQueue)

/-- Unbonding is paid once and on time, in every state of a run. -/
theorem unbonding_paid_once (hs : s.Genesis) {ops : List Op} (h : run env s ops = .ok s') :
    s'.PaysOnTime env := by
  have hqueued := queued_of_run hs h
  have hproper := proper_of_run hs.proper h
  refine ⟨fun d v time => ?_, fun v time => ?_, fun op s'' hend hop => ?_,
    fun nextTime s'' hend => ?_, fun s₁ updates happly herror => ?_⟩
  · rw [hqueued.unbonding time ⟨d, v⟩, getUnbondingDelegation, Option.map_map]
    rfl
  · rw [hqueued.validators.mem_slice]
    exact dueValidator_eq_some
  · refine ⟨moved_of_op hproper hend hop, fun d v ubd hubd => ?_⟩
    obtain ⟨_, hstays⟩ := queued_of_op hproper hqueued hend hop
    obtain ⟨value, hvalue, rfl⟩ := map_eq_some_iff.mp hubd
    obtain ⟨value', hvalue', htime, hsame⟩ := hstays _ value hvalue
    refine ⟨_, map_eq_some_iff.mpr ⟨value', hvalue', rfl⟩, htime, fun hactor => ?_⟩
    rw [hsame hactor]
  · obtain ⟨_, s₁, updates, happly, hbalance, hleft⟩ := queued_of_endBlock hqueued hend
    refine ⟨s₁, updates, happly, moved_of_validatorSetUpdates happly, hbalance, fun d v => ?_⟩
    change (s''.unbondingAt ⟨d, v⟩).map _ = ((s'.unbondingAt ⟨d, v⟩).map _).filter _
    rw [hleft, filter_map]
    rfl
  · obtain ⟨hqueued1, _⟩ := applyAndReturnValidatorSetUpdates_queued hqueued happly
    exact (unbondAllMatureValidatorQueue_sat hqueued1.validators).of_error herror rfl

/-- What the operator of the first validator has unbonded is listed once, at its time. Until the
last block has reached it, the account holds what it held before it unbonded; the next end of a
block adds the balance of the unbonding delegation to it. -/
theorem unbonding_paid_of_sampleOps :
    ∃ s s' s'' s₁ updates, run sampleEnv sampleGenesis (sampleOps.take 6) = .ok s ∧
      run sampleEnv sampleGenesis sampleOps = .ok s' ∧
      s'.endBlock sampleEnv (appHooks sampleEnv) (2 * 10 ^ 10) = .ok s'' ∧
      s'.applyAndReturnValidatorSetUpdates sampleEnv (appHooks sampleEnv) = .ok (s₁, updates) ∧
      (slice s'.stake.unbondingQueue (10 ^ 9)).count ⟨1, 1⟩ = 1 ∧
      s.bank.balance 1 irisAtto = 9 * 10 ^ 20 ∧ s'.bank.balance 1 irisAtto = 9 * 10 ^ 20 ∧
      s'.matured 1 irisAtto = 27692307693000000000 ∧
      s''.bank.balance 1 irisAtto = s₁.bank.balance 1 irisAtto + s'.matured 1 irisAtto ∧
      s''.getUnbondingDelegation 1 1 = none := by
  obtain ⟨s, hs, hbefore⟩ := of_returns
    (p := fun s : State => decide (s.bank.balance 1 irisAtto = 9 * 10 ^ 20))
    (x := run sampleEnv sampleGenesis (sampleOps.take 6)) (by decide +kernel)
  obtain ⟨s', hs', htest⟩ := of_returns
    (p := fun s : State =>
      decide ((s.getUnbondingDelegation 1 1).map (fun ubd => ubd.minTime) = some (10 ^ 9) ∧
        s.blockTime = 10 ^ 10 ∧ s.bank.balance 1 irisAtto = 9 * 10 ^ 20 ∧
        s.matured 1 irisAtto = 27692307693000000000) &&
      returns (fun _ => true) (s.endBlock sampleEnv (appHooks sampleEnv) (2 * 10 ^ 10)))
    (x := run sampleEnv sampleGenesis sampleOps) (by decide +kernel)
  obtain ⟨htimes, hreturns⟩ := Bool.and_eq_true_iff.mp htest
  obtain ⟨hubd, htime, hsame, hmatured⟩ := of_decide_eq_true htimes
  obtain ⟨s'', hs'', _⟩ := of_returns hreturns
  have hpays := unbonding_paid_once sampleGenesis_genesis hs'
  obtain ⟨s₁, updates, happly, _, hbalance, hleft⟩ := hpays.pays _ s'' hs''
  refine ⟨s, s', s'', s₁, updates, hs, hs', hs'', happly, ?_, of_decide_eq_true hbefore, hsame,
    hmatured, hbalance 1 irisAtto, ?_⟩
  · rw [hpays.unbondingQueue 1 1 (10 ^ 9), if_pos hubd]
  · obtain ⟨ubd, hget, hmin⟩ := map_eq_some_iff.mp hubd
    rw [hleft 1 1, hget, filter_some, if_neg]
    rw [htime, hmin]
    decide

end
end Irishub.Stake
