import Irishub.Gov.Queues

/-!
# Gov: the proposal numbers

`GovStore.Exact` says that the number stored for a level is the number of its live
proposals, which is at most the maximum of the level. The end of a proposal keeps
it; a submission keeps it exactly when reading the Normal number does not reset an
Important number that counts something.
-/

namespace Irishub.Gov
open Lib Store GovStore

section

def Proposal.live (p : Proposal) : Bool :=
  p.status = .depositPeriod || p.status = .votingPeriod

def Proposal.countsFor (p : Proposal) (level : ProposalLevel) : Bool :=
  p.live && p.level = level

def GovStore.liveNum (g : GovStore) (level : ProposalLevel) : ℕ :=
  g.proposals.values.countP (fun p => p.countsFor level)

variable {g g' : GovStore} {p : Proposal} {level : ProposalLevel}

lemma liveNum_pos (hp : g.getProposal p.proposalID = some p) (hlive : p.live = true) :
    0 < g.liveNum p.level := by
  refine List.countP_pos_iff.mpr ⟨p, mem_values.mpr ⟨_, hp⟩, ?_⟩
  simp [Proposal.countsFor, hlive]

lemma liveNum_new (hnone : g.getProposal p.proposalID = none) (hlive : p.live = true)
    (hset : g'.proposals = g.proposals.set p.proposalID p) :
    g'.liveNum level = g.liveNum level + if level = p.level then 1 else 0 := by
  rw [liveNum, hset, (perm_values_set hnone p).countP_eq, List.countP_cons]
  simp [liveNum, Proposal.countsFor, hlive, eq_comm]

lemma liveNum_update (hp : g.getProposal p.proposalID = some p) {q : Proposal}
    (hlive : q.live = p.live) (hlevel : q.level = p.level)
    (hset : g'.proposals = g.proposals.set p.proposalID q) :
    g'.liveNum level = g.liveNum level := by
  have hperm := (perm_values_replace hp q).countP_eq (fun p => p.countsFor level)
  rw [List.countP_cons, List.countP_cons, ← hset] at hperm
  have hsame : q.countsFor level = p.countsFor level := by simp [Proposal.countsFor, hlive, hlevel]
  rw [hsame] at hperm
  exact Nat.add_right_cancel hperm

lemma liveNum_ended (hp : g.getProposal p.proposalID = some p) (hlive : p.live = true)
    (hend : g'.proposals = g.proposals.delete p.proposalID ∨
      ∃ p', p'.live = false ∧ g'.proposals = g.proposals.set p.proposalID p') :
    g.liveNum level = g'.liveNum level + if level = p.level then 1 else 0 := by
  have hcounts : p.countsFor level = decide (level = p.level) := by
    simp [Proposal.countsFor, hlive, eq_comm]
  rcases hend with hdelete | ⟨p', hlive', hset⟩
  · have hperm := (perm_values_delete hp).countP_eq (fun q => q.countsFor level)
    rw [List.countP_cons, ← hdelete] at hperm
    simpa [liveNum, hcounts] using hperm
  · have hperm := (perm_values_replace hp p').countP_eq (fun q => q.countsFor level)
    rw [List.countP_cons, List.countP_cons, ← hset] at hperm
    have hnot : p'.countsFor level = false := by simp [Proposal.countsFor, hlive']
    simpa [liveNum, hcounts, hnot] using hperm.symm

end

section
variable {n : Nums} {level l : ProposalLevel} {k : ℕ}

lemma Nums.num_read :
    n.read.num level = if level = .important ∧ n.normal = none then 0 else n.num level := by
  cases level <;> cases h : n.normal <;> simp [Nums.read, Nums.readNormal, Nums.num, h]

lemma Nums.num_read_le : n.read.num level ≤ n.num level := by
  rw [num_read]
  split_ifs
  · exact Nat.zero_le _
  · exact le_rfl

lemma increment_eq (h : k + 1 < 2 ^ 64) : GovStore.increment k = k + 1 := Nat.mod_eq_of_lt h

lemma decrement_eq (hpos : 0 < k) (h : k < 2 ^ 64) : GovStore.decrement k = k - 1 := by
  unfold decrement
  omega

lemma Nums.num_add_read {proposalID : ℕ} (hlt : n.read.num l + 1 < 2 ^ 64)
    (hcritical : l = .critical → n.read.num l = 0) :
    (n.read.add proposalID l).num level = n.read.num level + if level = l then 1 else 0 := by
  have hnormal : n.read.readNormal = n.read := by
    cases h : n.normal <;> simp [Nums.read, Nums.readNormal, h]
  cases l with
  | critical =>
    have hzero := hcritical rfl
    cases level <;> simp_all [Nums.add, Nums.num]
  | important | normal =>
    have hinc := increment_eq hlt
    cases level <;> simp_all [Nums.add, Nums.num]

lemma Nums.num_sub (hpos : 0 < n.num l) (hlt : n.num l < 2 ^ 64) :
    n.num level = (n.sub l).num level + if level = l then 1 else 0 := by
  cases l with
  | critical =>
    have hstored : n.critical.isSome = true := by
      by_contra hnone
      simp [Nums.num, hnone] at hpos
    cases level <;> simp [Nums.sub, Nums.num, hstored]
  | important =>
    have hdec := decrement_eq hpos hlt
    cases level <;> simp_all [Nums.sub, Nums.num]
    omega
  | normal =>
    have hdec := decrement_eq hpos hlt
    have hstored : n.readNormal = n := by
      cases h : n.normal <;> simp_all [Nums.readNormal, Nums.num]
    cases level <;> simp_all [Nums.sub, Nums.num]
    omega

end

section

/-- Limits that the check of the parameters and their type impose. -/
structure GovParams.Limited (params : GovParams) : Prop where
  critical : params.critical.maxNum = 1
  maxNum : ∀ level, (params.level level).maxNum < 2 ^ 64

/-- Numbers are those of the live proposals, of which no level has too many. -/
structure GovStore.Exact (g : GovStore) : Prop where
  num : ∀ level, g.nums.num level = g.liveNum level
  max : ∀ level, g.liveNum level ≤ (g.params.level level).maxNum

variable {env : Env} {s : State} {g g' : GovStore} {p : Proposal} {proposalID : ℕ}

lemma GovStore.Exact.ended (h : g.Exact) (hlimits : g.params.Limited)
    (hp : g.getProposal p.proposalID = some p) (hlive : p.live = true)
    (hend : g'.proposals = g.proposals.delete p.proposalID ∨
      ∃ p', p'.live = false ∧ g'.proposals = g.proposals.set p.proposalID p')
    (hnums : g'.nums = g.nums.sub p.level) (hparams : g'.params = g.params) : g'.Exact := by
  have hpos : 0 < g.nums.num p.level := by
    rw [h.num]
    exact liveNum_pos hp hlive
  have hlt : g.nums.num p.level < 2 ^ 64 := by
    rw [h.num]
    exact (h.max _).trans_lt (hlimits.maxNum _)
  have hlower : ∀ level, g.liveNum level = g'.liveNum level + if level = p.level then 1 else 0 :=
    fun level => liveNum_ended hp hlive hend
  refine ⟨fun level => ?_, fun level => ?_⟩
  · have hsub : g.nums.num level =
        (g.nums.sub p.level).num level + if level = p.level then 1 else 0 :=
      Nums.num_sub hpos hlt
    rw [← hnums, h.num level, hlower level] at hsub
    exact (Nat.add_right_cancel hsub).symm
  · have hmax := h.max level
    rw [hlower level] at hmax
    rw [hparams]
    omega

lemma GovStore.Exact.dropped (h : g.Exact) (hlimits : g.params.Limited)
    (hp : g.getProposal p.proposalID = some p) (hstatus : p.status = .depositPeriod) :
    (g.dropped p).Exact :=
  h.ended hlimits hp (by simp [Proposal.live, hstatus]) (.inl rfl) rfl rfl

lemma GovStore.Exact.finished (h : g.Exact) (hlimits : g.params.Limited)
    (hp : g.getProposal p.proposalID = some p) (hstatus : p.status = .votingPeriod)
    {status : ProposalStatus} (hend : status = .passed ∨ status = .rejected)
    (tallyResults : TallyResult) (halt : Option ℤ) :
    (g.finished p status tallyResults halt).Exact := by
  refine h.ended hlimits hp (by simp [Proposal.live, hstatus]) (.inr ⟨_, ?_, rfl⟩) rfl rfl
  rcases hend with rfl | rfl <;> rfl

lemma DepositAdded.counts {depositor : Address} {amount : Coins} {r : State × Bool}
    (h : DepositAdded s proposalID depositor amount r) (hs : s.gov.Agrees) :
    r.1.gov.nums = s.gov.nums ∧ r.1.gov.params = s.gov.params ∧
      ∀ level, r.1.gov.liveNum level = s.gov.liveNum level := by
  obtain ⟨p, total, record, bank, validators, hp, hstatus, _, _, _, _, hr⟩ := h
  have hid := hs.key _ _ hp
  subst hid
  have hpaid : ∀ level, (s.gov.paid p total depositor record).liveNum level = s.gov.liveNum level :=
    fun level => liveNum_update hp (q := { p with totalDeposit := total }) rfl rfl rfl
  rw [hr]
  cases r.2 with
  | false => exact ⟨rfl, rfl, hpaid⟩
  | true =>
    refine ⟨rfl, rfl, fun level => Eq.trans ?_ (hpaid level)⟩
    let paid := { p with totalDeposit := total }
    have hlive : (paid.voting s.app.blockTime (s.gov.params.level p.level).votingPeriod).live =
        paid.live := by simp [paid, Proposal.voting, Proposal.live, hstatus]
    exact liveNum_update (g := s.gov.paid p total depositor record) (p := paid)
      (get_set_self _ _ _) hlive rfl rfl

def GovStore.ReadsExactly (g : GovStore) : Prop :=
  g.normalProposalNum.isSome ∨ g.liveNum .important = 0

lemma GovStore.Exact.num_read_eq_iff (h : g.Exact) :
    (∀ level, g.nums.read.num level = g.liveNum level) ↔ g.ReadsExactly := by
  have hnormal : g.nums.normal = g.normalProposalNum := rfl
  simp only [Nums.num_read, h.num, hnormal]
  constructor
  · intro hread
    have himportant := hread .important
    cases hstored : g.normalProposalNum with
    | none => exact Or.inr (by simpa [hstored, eq_comm] using himportant)
    | some num => exact Or.inl (by simp [hstored])
  · rintro (hstored | hzero) level
    · rw [if_neg (fun hand => by simp [hand.2] at hstored)]
    · split_ifs with hand
      · rw [hand.1, hzero]
      · rfl

lemma Submitted.exact_iff {content : Content} {r : State × List Tag}
    (h : Submitted env s content r) (hs : s.gov.Agrees) (hlimits : s.gov.params.Limited)
    (hexact : s.gov.Exact) : r.1.gov.Exact ↔ s.gov.ReadsExactly := by
  obtain ⟨p0, p, id, _, t, started, hp0, _, hnum, hid, hp, hdeposit, rfl⟩ := h
  obtain ⟨hstatus, _, _⟩ := newProposal_ok hp0
  have hstatus' : p.status = .depositPeriod := by rw [hp]; exact hstatus
  have hlevel : p.level = p0.level := by rw [hp]; rfl
  have hpid : p.proposalID = id := by rw [hp]; rfl
  have hopened : (s.submissionOpened p).gov.Agrees :=
    (hs.setNums s.gov.nums.read).opened (p := p) (by rw [hpid]; exact hid) hstatus'
  obtain ⟨next, hnext, hfresh⟩ := hs.fresh
  have hnone : s.gov.getProposal p.proposalID = none := by
    rw [hid] at hnext
    cases hnext
    rw [hpid]
    exact hfresh _ le_rfl
  obtain ⟨hnums, hparams, hsame⟩ := hdeposit.counts hopened
  have hparams' : t.gov.params = s.gov.params := hparams
  have hnums' : t.gov.nums = s.gov.nums.read := hnums
  have hlive : ∀ level, t.gov.liveNum level =
      s.gov.liveNum level + if level = p0.level then 1 else 0 := by
    intro level
    rw [hsame level, ← hlevel]
    exact liveNum_new hnone (by simp [Proposal.live, hstatus']) rfl
  -- the number that was compared is below the maximum, whatever the reading has done to it
  have hbelow : s.gov.nums.read.num p0.level < (s.gov.params.level p0.level).maxNum := by
    refine lt_of_le_of_ne ?_ hnum
    calc s.gov.nums.read.num p0.level ≤ s.gov.nums.num p0.level := Nums.num_read_le
      _ = s.gov.liveNum p0.level := hexact.num _
      _ ≤ (s.gov.params.level p0.level).maxNum := hexact.max _
  have hadd : ∀ level, (s.gov.nums.read.add id p0.level).num level =
      s.gov.nums.read.num level + if level = p0.level then 1 else 0 := by
    intro level
    refine Nums.num_add_read ?_ (fun hcritical => ?_)
    · have := hlimits.maxNum p0.level
      omega
    · have hone : (s.gov.params.level p0.level).maxNum = 1 := by
        rw [hcritical]
        exact hlimits.critical
      omega
  have hnum_iff : (∀ level, (s.gov.nums.read.add id p0.level).num level = t.gov.liveNum level) ↔
      s.gov.ReadsExactly := by
    rw [← hexact.num_read_eq_iff]
    refine forall_congr' (fun level => ?_)
    rw [hadd, hlive]
    exact Nat.add_right_cancel_iff
  rw [hnums', hlevel]
  constructor
  · intro hafter
    exact hnum_iff.mp hafter.num
  · intro hreads
    refine ⟨hnum_iff.mpr hreads, fun level => ?_⟩
    change t.gov.liveNum level ≤ (t.gov.params.level level).maxNum
    rw [hlive level, hparams']
    split_ifs with heq
    · rw [heq, ← hexact.num_read_eq_iff.mpr hreads]
      exact hbelow
    · exact hexact.max level

end

section
variable {env : Env} {s : State} {op : Op} {r : State × List Tag}

/-- Condition on a step: before a submission a Normal number is stored or no Important
proposal is live. -/
def Op.ReadsExactly (s : State) : Op → Prop
  | submit _ => s.gov.ReadsExactly
  | _ => True

lemma State.Genesis.limited (h : s.Genesis) : s.gov.params.Limited := by
  refine ⟨?_, h.maxNum⟩
  have hvalid := h.validParams
  obtain ⟨⟨⟩, _, hvalid⟩ := bind_ok.mp hvalid
  obtain ⟨⟨⟩, _, hvalid⟩ := bind_ok.mp hvalid
  obtain ⟨⟨⟩, _, hvalid⟩ := bind_ok.mp hvalid
  obtain ⟨⟨⟩, hmax, _⟩ := bind_ok.mp hvalid
  obtain ⟨⟨⟩, hcritical, _⟩ := bind_ok.mp hmax
  simpa using hcritical

lemma State.Genesis.exact (h : s.Genesis) : s.gov.Exact := by
  have hlive : ∀ level, s.gov.liveNum level = 0 := by
    intro level
    rw [liveNum, h.proposals]
    rfl
  refine ⟨fun level => ?_, fun level => by rw [hlive]; exact Nat.zero_le _⟩
  rw [hlive]
  cases level <;>
    simp [nums, Nums.num, h.criticalProposal, h.importantProposalNum, h.normalProposalNum]

lemma endKept_exact : EndKept env (fun s => s.gov.Agrees ∧ s.gov.params.Limited ∧ s.gov.Exact) where
  agrees _ hs := hs.1
  drop s s' p hs hp hstatus h := by
    refine ⟨(dropProposal_agrees hs.1 ⟨p, hp, hstatus⟩ h).1, ?_⟩
    obtain ⟨p', t, hp', _, rfl⟩ := dropProposal_ok (hs.1.key _) h
    cases hp.symm.trans hp'
    exact ⟨hs.2.1, hs.2.2.dropped hs.2.1 hp hstatus⟩
  finish s p r hs hp hstatus h := by
    refine ⟨(finishProposal_agrees hs.1 ⟨p, hp, hstatus⟩ h).1, ?_⟩
    obtain ⟨p', _, _, _, _, _, _, hp', _, _, _, ⟨halt, hr⟩, hend, _⟩ := finishProposal_ok h
    cases hp.symm.trans hp'
    rw [hr]
    exact ⟨hs.2.1, hs.2.2.finished hs.2.1 hp hstatus hend _ _⟩

lemma Op.run_params (hs : s.gov.Agrees)
    (h : op.run env s = .ok r) : r.1.gov.params = s.gov.params := by
  cases op with
  | submit content =>
    obtain ⟨_, _, h⟩ := bind_ok.mp h
    obtain ⟨p0, p, id, _, t, _, hp0, _, _, hid, rfl, hdeposit, rfl⟩ := submitProposal_ok h
    have hopened := (hs.setNums s.gov.nums.read).opened
      (p := p0.submitted id s.app.blockTime (s.gov.params.level p0.level).depositPeriod) hid
      (newProposal_ok hp0).1
    exact (hdeposit.counts hopened).2.1
  | deposit msg =>
    obtain ⟨_, _, h⟩ := bind_ok.mp h
    obtain ⟨a, hdeposit, h⟩ := bind_ok.mp h
    cases h
    exact ((addDeposit_ok (hs.key _) hdeposit).counts hs).2.1
  | vote msg =>
    obtain ⟨_, _, h⟩ := bind_ok.mp h
    obtain ⟨_, hvote, h⟩ := bind_ok.mp h
    cases h
    obtain ⟨votes, rfl⟩ := addVote_gov hvote
    rfl
  | endBlock =>
    have hkept : EndKept env (fun t => t.gov.Agrees ∧ t.gov.params = s.gov.params) :=
      { agrees := fun _ ht => ht.1
        drop := fun t t' p ht hp hstatus hstep => by
          refine ⟨(dropProposal_agrees ht.1 ⟨p, hp, hstatus⟩ hstep).1, ?_⟩
          obtain ⟨_, _, _, _, rfl⟩ := dropProposal_ok (ht.1.key _) hstep
          exact ht.2
        finish := fun t p r ht hp hstatus hstep => by
          refine ⟨(finishProposal_agrees ht.1 ⟨p, hp, hstatus⟩ hstep).1, ?_⟩
          obtain ⟨_, _, _, _, _, _, _, _, _, _, _, ⟨_, hr⟩, _⟩ := finishProposal_ok hstep
          rw [hr]
          exact ht.2 }
    exact (hkept.endBlocker ⟨hs, rfl⟩ h).2
  | outside app assets protocol guardian =>
    cases h
    rfl

lemma Op.run_exact_iff (hs : s.gov.Agrees)
    (hlimits : s.gov.params.Limited) (hexact : s.gov.Exact) (h : op.run env s = .ok r) :
    r.1.gov.Exact ↔ op.ReadsExactly s := by
  cases op with
  | submit content =>
    obtain ⟨_, _, h⟩ := bind_ok.mp h
    exact (submitProposal_ok h).exact_iff hs hlimits hexact
  | deposit msg =>
    obtain ⟨_, _, h⟩ := bind_ok.mp h
    obtain ⟨a, hdeposit, h⟩ := bind_ok.mp h
    cases h
    obtain ⟨hnums, hparams, hlive⟩ := (addDeposit_ok (hs.key _) hdeposit).counts hs
    refine iff_of_true ⟨fun level => ?_, fun level => ?_⟩ trivial
    · rw [hnums, hlive]
      exact hexact.num level
    · rw [hparams, hlive]
      exact hexact.max level
  | vote msg =>
    obtain ⟨_, _, h⟩ := bind_ok.mp h
    obtain ⟨_, hvote, h⟩ := bind_ok.mp h
    cases h
    obtain ⟨votes, rfl⟩ := addVote_gov hvote
    exact iff_of_true ⟨hexact.num, hexact.max⟩ trivial
  | endBlock => exact iff_of_true (endKept_exact.endBlocker ⟨hs, hlimits, hexact⟩ h).2.2 trivial
  | outside app assets protocol guardian =>
    cases h
    exact iff_of_true hexact trivial

/-- Numbers are exact in the state, and wherever an iteration of an end blocker called in it
begins, which finds a positive number to subtract from. -/
structure State.Exact (env : Env) (s : State) : Prop where
  exact : s.gov.Exact
  iterates : ∀ i t, Iterates env s i t → t.gov.Exact ∧
    ∃ p, t.gov.getProposal i.proposalID = some p ∧ 0 < t.gov.nums.num p.level

lemma State.exact_iff (hs : s.gov.Agrees) (hlimits : s.gov.params.Limited) :
    s.Exact env ↔ s.gov.Exact := by
  refine ⟨State.Exact.exact, fun hexact => ⟨hexact, fun i t hi => ?_⟩⟩
  obtain ⟨⟨hagrees, _, hexact'⟩, p, hp, hstatus⟩ := endKept_exact.iterates ⟨hs, hlimits, hexact⟩ hi
  refine ⟨hexact', p, hp, ?_⟩
  have hkey := hagrees.key _ _ hp
  rw [← hkey] at hp
  rw [hexact'.num]
  refine liveNum_pos hp ?_
  rw [Proposal.live, hstatus]
  cases i <;> rfl

/-- Along a run the numbers are exact in every state reached exactly when every submission meets
the condition. -/
theorem counters_exact_iff {ops : List Op} {r : State × List Tag} (hs : s.Genesis)
    (h : run env s ops = .ok r) :
    (∀ before op after t, ops = before ++ op :: after → run env s before = .ok t →
        op.ReadsExactly t.1) ↔
      ∀ before after t, ops = before ++ after → run env s before = .ok t → t.1.Exact env := by
  refine forall_steps_iff_forall_reached
    (J := fun a : State × List Tag => a.1.gov.Agrees ∧ a.1.gov.params.Limited)
    (I := fun a => a.1.Exact env) (C := fun a op => op.ReadsExactly a.1) ?_ ?_
    ⟨hs.agrees, hs.limited⟩ ((State.exact_iff hs.agrees hs.limited).mpr hs.exact) h
  · intro a a' op ha hstep
    obtain ⟨r', hr', hstep⟩ := bind_ok.mp hstep
    cases hstep
    refine ⟨(Op.run_agrees (r := r') ha.1 hr').1, ?_⟩
    rw [Op.run_params ha.1 hr']
    exact ha.2
  · intro a a' op ha hexact hstep
    obtain ⟨r', hr', hstep⟩ := bind_ok.mp hstep
    cases hstep
    have hlimits : r'.1.gov.params.Limited := by
      rw [Op.run_params ha.1 hr']
      exact ha.2
    rw [State.exact_iff (Op.run_agrees ha.1 hr').1 hlimits]
    exact Op.run_exact_iff ha.1 ha.2 hexact.exact hr'

end

def sampleTaxUsage (percent : Dec) (deposit : ℕ) : Op :=
  .submit (.communityTaxUsage { sampleMsg .communityTaxUsage deposit with
    usage := .burn
    destAddress := none
    percent := some percent })

def sampleStart : State := sampleState (sampleApp (sampleBank (10 ^ 22) 0) 0)

/-- Two Important proposals before any Normal one: one is counted, two are live; when the deposit
periods end, the number becomes `2 ^ 64 - 1`. -/
theorem important_num_reset : sampleStart.Genesis ∧ (∃ r, run sampleEnv sampleStart
          [sampleTaxUsage ⟨10 ^ 9⟩ (6 * 10 ^ 20), sampleTaxUsage ⟨10 ^ 9⟩ (6 * 10 ^ 20)] = .ok r ∧
        r.1.gov.importantProposalNum = some 1 ∧ r.1.gov.liveNum .important = 2) ∧
      ∃ r, run sampleEnv sampleStart
          [sampleTaxUsage ⟨10 ^ 9⟩ (6 * 10 ^ 20), sampleTaxUsage ⟨10 ^ 9⟩ (6 * 10 ^ 20),
            sampleOutside (sampleApp (sampleBank (88 * 10 ^ 20) (12 * 10 ^ 20)) (2 * day)),
            .endBlock] = .ok r ∧
        r.1.gov.importantProposalNum = some (2 ^ 64 - 1) ∧ r.1.gov.liveNum .important = 0 := by
  refine ⟨sampleState_genesis _, ?_, ?_⟩
  · obtain ⟨r, hr, htest⟩ := of_returns
      (p := fun r : State × List Tag => decide (r.1.gov.importantProposalNum = some 1 ∧
        r.1.gov.liveNum .important = 2))
      (x := run sampleEnv sampleStart
        [sampleTaxUsage ⟨10 ^ 9⟩ (6 * 10 ^ 20), sampleTaxUsage ⟨10 ^ 9⟩ (6 * 10 ^ 20)])
      (by decide +kernel)
    exact ⟨r, hr, of_decide_eq_true htest⟩
  · obtain ⟨r, hr, htest⟩ := of_returns
      (p := fun r : State × List Tag => decide (r.1.gov.importantProposalNum = some (2 ^ 64 - 1) ∧
        r.1.gov.liveNum .important = 0))
      (x := run sampleEnv sampleStart
        [sampleTaxUsage ⟨10 ^ 9⟩ (6 * 10 ^ 20), sampleTaxUsage ⟨10 ^ 9⟩ (6 * 10 ^ 20),
          sampleOutside (sampleApp (sampleBank (88 * 10 ^ 20) (12 * 10 ^ 20)) (2 * day)),
          .endBlock])
      (by decide +kernel)
    exact ⟨r, hr, of_decide_eq_true htest⟩

/-- A Normal proposal and two Important ones after it, whose deposit periods then end. -/
def sampleCountedOps : List Op :=
  [.submit (.submitProposal (sampleMsg .plainText (3 * 10 ^ 20))),
    sampleTaxUsage ⟨10 ^ 9⟩ (6 * 10 ^ 20), sampleTaxUsage ⟨10 ^ 9⟩ (6 * 10 ^ 20),
    sampleOutside (sampleApp (sampleBank (85 * 10 ^ 20) (15 * 10 ^ 20)) (2 * day)), .endBlock]

lemma sampleCountedOps_readsExactly {before after : List Op} {op : Op} {t : State × List Tag}
    (hops : sampleCountedOps = before ++ op :: after)
    (ht : run sampleEnv sampleStart before = .ok t) : op.ReadsExactly t.1 := by
  have hstored : ∀ n ∈ [1, 2],
      returns (fun r : State × List Tag => r.1.gov.normalProposalNum.isSome)
        (run sampleEnv sampleStart (sampleCountedOps.take n)) = true := by
    intro n hn
    simp only [List.mem_cons, List.not_mem_nil, or_false] at hn
    rcases hn with rfl | rfl <;> decide +kernel
  have hbefore : before = sampleCountedOps.take before.length := by rw [hops]; simp
  have hop : sampleCountedOps[before.length]? = some op := by rw [hops]; simp
  match hlen : before.length with
  | 0 =>
    rw [hlen] at hbefore hop
    cases hop
    rw [hbefore] at ht
    cases ht
    exact Or.inr (by decide +kernel)
  | 1 | 2 =>
    -- the Normal proposal has left a number
    rw [hlen] at hbefore hop
    cases hop
    rw [hbefore] at ht
    obtain ⟨t', ht', hsome⟩ := of_returns (hstored before.length (by simp [hlen]))
    rw [hlen] at ht'
    cases ht.symm.trans ht'
    exact Or.inl hsome
  | 3 | 4 =>
    rw [hlen] at hop
    cases hop
    trivial
  | n + 5 =>
    rw [hlen] at hop
    cases hop

/-- All three proposals are counted while they are live, and none after their end. -/
theorem important_num_exact :
    (∃ r, run sampleEnv sampleStart (sampleCountedOps.take 3) = .ok r ∧
      r.1.gov.importantProposalNum = some 2 ∧ r.1.gov.normalProposalNum = some 1 ∧
      r.1.Exact sampleEnv) ∧
    ∃ r, run sampleEnv sampleStart sampleCountedOps = .ok r ∧
      r.1.gov.importantProposalNum = some 0 ∧ r.1.gov.normalProposalNum = some 0 ∧
      r.1.Exact sampleEnv := by
  obtain ⟨r, hr, htest⟩ := of_returns
    (p := fun r : State × List Tag => decide (r.1.gov.importantProposalNum = some 2 ∧
      r.1.gov.normalProposalNum = some 1))
    (x := run sampleEnv sampleStart (sampleCountedOps.take 3)) (by decide +kernel)
  obtain ⟨r', hr', htest'⟩ := of_returns
    (p := fun r : State × List Tag => decide (r.1.gov.importantProposalNum = some 0 ∧
      r.1.gov.normalProposalNum = some 0))
    (x := run sampleEnv sampleStart sampleCountedOps) (by decide +kernel)
  obtain ⟨himportant, hnormal⟩ := of_decide_eq_true htest
  obtain ⟨himportant', hnormal'⟩ := of_decide_eq_true htest'
  have hexact := (counters_exact_iff (sampleState_genesis _) hr').mp
    (fun _ _ _ _ hops ht => sampleCountedOps_readsExactly hops ht)
  exact ⟨⟨r, hr, himportant, hnormal, hexact _ _ r (List.take_append_drop 3 _).symm hr⟩,
    r', hr', himportant', hnormal', hexact _ [] r' (List.append_nil _).symm hr'⟩

end Irishub.Gov
