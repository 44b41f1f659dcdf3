import Irishub.Lib.Index
import Irishub.Stake.Writes

/-!
# Stake: the power index

The validators that are not jailed are indexed by their power. A write that
changes the tokens of a validator takes its old rank out of the index and puts the
new one in, jailing takes the rank out and unjailing puts it in. Every write keeps
the index right, and so does every run.
-/

namespace Irishub.Stake
open Lib Relation Irishub.Distribution Store

section

def indexKey (v : Address) (val : ValidatorValue) : Option PowerRank :=
  if val.jailed then none else (State.getValidatorPowerRank ⟨val, v⟩).toOption

def rankOwner (rank : PowerRank) : Address := (2 ^ 160 - 1 - (ofLex rank).2).toNat

variable {v : Address} {val val' : ValidatorValue} {rank : PowerRank}

lemma rankOwner_of_getValidatorPowerRank
    (h : State.getValidatorPowerRank ⟨val, v⟩ = .ok rank) : rankOwner rank = v := by
  simp only [State.getValidatorPowerRank, bind_ok, pure_eq_ok] at h
  obtain ⟨power, _, rfl⟩ := h
  simp [rankOwner]

lemma indexKey_eq_some : indexKey v val = some rank ↔
    val.jailed = false ∧ State.getValidatorPowerRank ⟨val, v⟩ = .ok rank := by
  unfold indexKey
  cases hrank : State.getValidatorPowerRank ⟨val, v⟩ with
  | error e | ok r => simp [Except.toOption]

lemma indexKey_of_jailed (h : val.jailed = true) : indexKey v val = none := if_pos h

lemma rankOwner_of_indexKey :
    ∀ (v : Address) (val : ValidatorValue) (rank : PowerRank), indexKey v val = some rank →
      rankOwner rank = v :=
  fun _ _ _ h => rankOwner_of_getValidatorPowerRank (indexKey_eq_some.mp h).2

lemma getValidatorPowerRank_congr (h : val'.tokens = val.tokens) :
    State.getValidatorPowerRank ⟨val', v⟩ = State.getValidatorPowerRank ⟨val, v⟩ := by
  simp only [State.getValidatorPowerRank, Validator.getPotentialPower, h]

lemma indexKey_congr (hjailed : val'.jailed = val.jailed) (htokens : val'.tokens = val.tokens) :
    indexKey v val' = indexKey v val := by
  unfold indexKey
  rw [hjailed, getValidatorPowerRank_congr htokens]

lemma indexKey_of_rank (h : State.getValidatorPowerRank ⟨val, v⟩ = .ok rank) :
    indexKey v val = none ∨ indexKey v val = some rank := by
  cases hjailed : val.jailed with
  | false => exact Or.inr (indexKey_eq_some.mpr ⟨hjailed, h⟩)
  | true => exact Or.inl (indexKey_of_jailed hjailed)

end

section

/-- Power index holds the rank of every validator that is not jailed, and nothing else. -/
structure State.Indexed (s : State) : Prop where
  index : Indexes indexKey s.stake.validators s.stake.validatorsByPowerIndex
  ranked : ∀ v val, s.stake.validators.get v = some val → val.jailed = false →
    ∃ rank, State.getValidatorPowerRank ⟨val, v⟩ = .ok rank

variable {env : Env} {s s' : State} {v : Address} {val : ValidatorValue}

lemma State.Indexed.congr (h : s.Indexed) (hval : s'.stake.validators = s.stake.validators)
    (hindex : s'.stake.validatorsByPowerIndex = s.stake.validatorsByPowerIndex) : s'.Indexed where
  index := by
    rw [hval, hindex]
    exact h.index
  ranked := by
    rw [hval]
    exact h.ranked

lemma State.Indexed.but_rank {rank : PowerRank} (h : s.Indexed)
    (hval : s.stake.validators.get v = some val)
    (hrank : State.getValidatorPowerRank ⟨val, v⟩ = .ok rank) :
    IndexesBut indexKey v s.stake.validators (s.stake.validatorsByPowerIndex.delete rank) := by
  refine h.index.but_delete rankOwner_of_indexKey (rankOwner_of_getValidatorPowerRank hrank) ?_
  intro a ha
  cases hval.symm.trans ha
  exact indexKey_of_rank hrank

/-- Record of a validator is rewritten, and the index follows it. -/
lemma Reranked.indexes {val' : ValidatorValue} {index : Store PowerRank Address} (hs : s.Indexed)
    (hval : s.stake.validators.get v = some val)
    (h : Reranked v val val' s.stake.validatorsByPowerIndex index) :
    Indexes indexKey (s.stake.validators.set v val') index ∧
      (val'.jailed = false → ∃ rank, State.getValidatorPowerRank ⟨val', v⟩ = .ok rank) := by
  cases h with
  | same hjailed htokens =>
    refine ⟨hs.index.rewrite hval (indexKey_congr hjailed htokens), fun hnot => ?_⟩
    rw [getValidatorPowerRank_congr htokens]
    exact hs.ranked v val hval (hjailed.symm.trans hnot)
  | leave hrank hjailed =>
    refine ⟨(hs.but_rank hval hrank).set (indexKey_of_jailed hjailed), fun hnot => ?_⟩
    rw [hjailed] at hnot
    cases hnot
  | @enter rank hold hjailed hrank =>
    have hbut : IndexesBut indexKey v s.stake.validators s.stake.validatorsByPowerIndex := by
      refine hs.index.but (fun a ha => ?_)
      cases hval.symm.trans ha
      exact indexKey_of_jailed hold
    exact ⟨hbut.enter rankOwner_of_indexKey (indexKey_eq_some.mpr ⟨hjailed, hrank⟩),
      fun _ => ⟨rank, hrank⟩⟩
  | @replace _ rank' hrank hjailed hrank' =>
    exact ⟨(hs.but_rank hval hrank).enter rankOwner_of_indexKey
      (indexKey_eq_some.mpr ⟨hjailed, hrank'⟩), fun _ => ⟨rank', hrank'⟩⟩

lemma State.Admits.indexed {validator : Validator} {rank : PowerRank} {slashing : SlashingStore}
    (h : s.Admits validator rank) (hs : s.Indexed) :
    (s.created env validator rank slashing).Indexed := by
  refine ⟨IndexesBut.enter (hs.index.but (fun a ha => ?_)) rankOwner_of_indexKey
    (indexKey_eq_some.mpr ⟨h.jailed, h.rank⟩), forall_set hs.ranked (fun _ => ⟨rank, h.rank⟩)⟩
  cases h.none.symm.trans ha

lemma Recording.indexed {actor : Actor} {signers : List Address} {ending : Prop}
    (h : Recording env actor signers ending s s') (hs : s.Indexed) : s'.Indexed := by
  cases h with
  | same h => exact hs.congr h.validators h.powerIndex
  | rewrite h =>
    obtain ⟨hindex, hranked⟩ := h.ranks.indexes hs h.get
    exact ⟨hindex, forall_set hs.ranked hranked⟩
  | remove hval hshares hstatus hkey =>
    exact ⟨(hs.but_rank hval hkey).delete, forall_delete hs.ranked _⟩
  | create hv h => exact h.indexed hs

lemma State.Genesis.indexed (hs : s.Genesis) : s.Indexed := by
  refine ⟨?_, fun v val hval => ?_⟩
  · rw [hs.validators, hs.validatorsByPowerIndex]
    exact indexes_empty
  · rw [hs.validators] at hval
    cases hval

lemma indexed_of_run {ops : List Op} (hs : s.Genesis) (h : run env s ops = .ok s') :
    s'.Indexed := by
  refine invariant_of_writes (I := fun t => t.state.Indexed) (C := fun _ => True) ?_
    (fun _ _ => trivial) hs.proper hs.indexed h
  exact fun op t t' _ ht hwrite => hwrite.recording.indexed ht

end

section
variable {env : Env} {s s' : State}

/-- In every state of a run, a validator that is not jailed has one entry in the power index, at the
rank of its current tokens, and every entry is one of a validator that is not jailed. -/
theorem powerIndex_consistent (hs : s.Genesis) {ops : List Op} (h : run env s ops = .ok s') :
    (∀ v val, s'.stake.validators.get v = some val → val.jailed = false →
      ∃ rank, State.getValidatorPowerRank ⟨val, v⟩ = .ok rank ∧
        ∀ rank', s'.stake.validatorsByPowerIndex.get rank' = some v ↔ rank' = rank) ∧
    ∀ rank v, s'.stake.validatorsByPowerIndex.get rank = some v →
      ∃ val, s'.stake.validators.get v = some val ∧ val.jailed = false := by
  have hindexed := indexed_of_run hs h
  constructor
  · intro v val hval hjailed
    obtain ⟨rank, hrank⟩ := hindexed.ranked v val hval hjailed
    refine ⟨rank, hrank, fun rank' => ?_⟩
    rw [hindexed.index rank' v]
    constructor
    · rintro ⟨val', hval', hkey⟩
      cases hval.symm.trans hval'
      exact Except.ok.inj ((indexKey_eq_some.mp hkey).2.symm.trans hrank)
    · rintro rfl
      exact ⟨val, hval, indexKey_eq_some.mpr ⟨hjailed, hrank⟩⟩
  · intro rank v hrank
    obtain ⟨val, hval, hkey⟩ := (hindexed.index rank v).mp hrank
    exact ⟨val, hval, (indexKey_eq_some.mp hkey).1⟩

/-- One validator has one entry, the jailed one has none. -/
theorem powerIndex_of_sampleOps : ∃ s', run sampleEnv sampleGenesis sampleOps = .ok s' ∧
      (∃ rank, ∀ rank', s'.stake.validatorsByPowerIndex.get rank' = some 1 ↔ rank' = rank) ∧
      ∀ rank, s'.stake.validatorsByPowerIndex.get rank ≠ some 2 := by
  obtain ⟨s', hs', htest⟩ := of_returns
    (p := fun s : State =>
      decide ((s.stake.validators.get 1).map ValidatorValue.jailed = some false ∧
        (s.stake.validators.get 2).map ValidatorValue.jailed = some true))
    (x := run sampleEnv sampleGenesis sampleOps) (by decide +kernel)
  obtain ⟨h1, h2⟩ := of_decide_eq_true htest
  obtain ⟨val1, hval1, hjailed1⟩ := Option.map_eq_some_iff.mp h1
  obtain ⟨val2, hval2, hjailed2⟩ := Option.map_eq_some_iff.mp h2
  obtain ⟨hone, hentries⟩ := powerIndex_consistent sampleGenesis_genesis hs'
  obtain ⟨rank, _, hrank⟩ := hone 1 val1 hval1 hjailed1
  refine ⟨s', hs', ⟨rank, hrank⟩, fun rank' hrank' => ?_⟩
  obtain ⟨val, hval, hjailed⟩ := hentries rank' 2 hrank'
  cases hval2.symm.trans hval
  rw [hjailed2] at hjailed
  cases hjailed

end
end Irishub.Stake
