import Irishub.Gov.EndBlock

/-!
# Gov: what an operation does to the gov store

Each operation of the keeper that returns is one of a few changes of the gov
store, given here as functions: a proposal is opened, paid for, activated,
dropped or finished. `Nums` are the three proposal numbers; what the lazy
initialisation makes of them is `Nums.read`, `Nums.add` and `Nums.sub`.
-/

namespace Irishub.Gov
open Lib State GovStore

section

/-- Stored numbers of proposals. -/
structure Nums where
  critical : Option ℕ
  important : Option ℕ
  normal : Option ℕ
  deriving DecidableEq

namespace Nums
variable (n : Nums)

/-- Numbers after `GetNormalProposalNum`. -/
def readNormal : Nums := if n.normal.isNone then { n with important := some 0 } else n

/-- Numbers after the debug message of `HasReachedTheMaxProposalNum`. -/
def read : Nums := { n with important := some (n.important.getD 0) }.readNormal

def num : ProposalLevel → ℕ
  | .critical => if n.critical.isSome then 1 else 0
  | .important => n.important.getD 0
  | .normal => n.normal.getD 0

/-- Numbers after `AddProposalNum`. -/
def add (proposalID : ℕ) : ProposalLevel → Nums
  | .critical => { n with critical := some proposalID }
  | .important => { n with important := some (GovStore.increment (n.important.getD 0)) }
  | .normal => { n.readNormal with normal := some (GovStore.increment (n.normal.getD 0)) }

/-- Numbers after `SubProposalNum`. -/
def sub : ProposalLevel → Nums
  | .critical => { n with critical := none }
  | .important => { n with important := some (GovStore.decrement (n.important.getD 0)) }
  | .normal => { n.readNormal with normal := some (GovStore.decrement (n.normal.getD 0)) }

end Nums

namespace GovStore
variable (g : GovStore)

def nums : Nums := ⟨g.criticalProposal, g.importantProposalNum, g.normalProposalNum⟩

def setNums (n : Nums) : GovStore :=
  { g with
    criticalProposal := n.critical
    importantProposalNum := n.important
    normalProposalNum := n.normal }

lemma getImportantProposalNum_eq : g.getImportantProposalNum =
      (g.nums.num .important,
        g.setNums { g.nums with important := some (g.nums.num .important) }) := by
  unfold getImportantProposalNum
  cases h : g.importantProposalNum with
  | none => simp [Nums.num, nums, setNums, setImportantProposalNum, h]
  | some num =>
    obtain ⟨params, proposals, next, deposits, votes, active, inactive, critical, important,
      normal, sets, halt⟩ := g
    cases h
    rfl

lemma getNormalProposalNum_eq :
    g.getNormalProposalNum = (g.nums.num .normal, g.setNums g.nums.readNormal) := by
  unfold getNormalProposalNum
  cases h : g.normalProposalNum with
  | none => simp [Nums.num, Nums.readNormal, nums, setNums, setImportantProposalNum, h]
  | some num =>
    obtain ⟨params, proposals, next, deposits, votes, active, inactive, critical, important,
      normal, sets, halt⟩ := g
    cases h
    rfl

lemma addProposalNum_eq (level : ProposalLevel) (proposalID : ℕ) :
    g.addProposalNum level proposalID = g.setNums (g.nums.add proposalID level) := by
  cases level with
  | critical => rfl
  | important =>
    simp only [addProposalNum, getImportantProposalNum_eq]
    rfl
  | normal =>
    simp only [addProposalNum, getNormalProposalNum_eq]
    rfl

lemma subProposalNum_eq (level : ProposalLevel) :
    g.subProposalNum level = g.setNums (g.nums.sub level) := by
  cases level with
  | critical => rfl
  | important =>
    simp only [subProposalNum, getImportantProposalNum_eq]
    rfl
  | normal =>
    simp only [subProposalNum, getNormalProposalNum_eq]
    rfl

lemma getProposalNum_read (level : ProposalLevel) : (g.setNums g.nums.read).getProposalNum level =
      (g.nums.read.num level, g.setNums g.nums.read) := by
  cases level with
  | critical => rfl
  | important =>
    simp only [getProposalNum, getImportantProposalNum_eq]
    cases h : g.normalProposalNum <;>
      simp [Nums.num, Nums.read, Nums.readNormal, nums, setNums, h]
  | normal =>
    simp only [getProposalNum, getNormalProposalNum_eq]
    cases h : g.normalProposalNum <;>
      simp [Nums.num, Nums.read, Nums.readNormal, nums, setNums, h]

lemma hasReachedTheMaxProposalNum_eq (level : ProposalLevel) : g.hasReachedTheMaxProposalNum level =
      (g.nums.read.num level, decide (g.nums.read.num level = (g.params.level level).maxNum),
        g.setNums g.nums.read) := by
  have hread : (g.getImportantProposalNum.2.getNormalProposalNum).2 = g.setNums g.nums.read := by
    rw [getNormalProposalNum_eq, getImportantProposalNum_eq]
    rfl
  unfold hasReachedTheMaxProposalNum
  simp only [hread, getProposalNum_read]
  rfl

end GovStore
end

section

def Proposal.voting (p : Proposal) (now votingPeriod : ℤ) : Proposal :=
  { p with
    votingStartTime := now
    votingEndTime := now + votingPeriod
    status := .votingPeriod }

namespace GovStore
variable (g : GovStore)

def opened (p : Proposal) : GovStore :=
  { g with
    proposals := g.proposals.set p.proposalID p
    inactiveProposalQueue :=
      g.inactiveProposalQueue.set (toLex (p.depositEndTime, p.proposalID)) p.proposalID
    nextProposalID := some (p.proposalID + 1) }

def paid (p : Proposal) (total : Coins) (depositor : Address) (record : Deposit) : GovStore :=
  { g with
    proposals := g.proposals.set p.proposalID { p with totalDeposit := total }
    deposits := g.deposits.set (toLex (p.proposalID, depositor)) record }

/-- Beginning of a voting period. -/
def activated (p : Proposal) (now : ℤ) (validators : List Address) : GovStore :=
  let p' := p.voting now (g.params.level p.level).votingPeriod
  { g with
    proposals := g.proposals.set p.proposalID p'
    inactiveProposalQueue :=
      g.inactiveProposalQueue.delete (toLex (p.depositEndTime, p.proposalID))
    activeProposalQueue :=
      g.activeProposalQueue.set (toLex (p'.votingEndTime, p.proposalID)) p.proposalID
    validatorSets := g.validatorSets.set p.proposalID validators }

def cleared (proposalID : ℕ) : GovStore :=
  { g with deposits := g.deposits.filter (fun k => !decide ((ofLex k).1 = proposalID)) }

/-- End of a proposal in the deposit period. -/
def dropped (p : Proposal) : GovStore :=
  { (g.cleared p.proposalID).setNums (g.nums.sub p.level) with
    proposals := g.proposals.delete p.proposalID
    inactiveProposalQueue :=
      g.inactiveProposalQueue.delete (toLex (p.depositEndTime, p.proposalID))
    activeProposalQueue :=
      g.activeProposalQueue.delete (toLex (p.votingEndTime, p.proposalID)) }

/-- End of a voting period. -/
def finished (p : Proposal) (status : ProposalStatus) (tallyResults : TallyResult)
    (halt : Option ℤ) : GovStore :=
  { (g.cleared p.proposalID).setNums (g.nums.sub p.level) with
    proposals :=
      g.proposals.set p.proposalID { p with status := status, tallyResult := tallyResults }
    activeProposalQueue :=
      g.activeProposalQueue.delete (toLex (p.votingEndTime, p.proposalID))
    validatorSets := g.validatorSets.delete p.proposalID
    systemHaltHeight := halt }

lemma removeDeposits_eq (s : State) (proposalID : ℕ) :
    s.removeDeposits (s.gov.getDeposits proposalID) = s.withGov (s.gov.cleared proposalID) := by
  unfold removeDeposits getDeposits cleared
  rw [Store.foldl_delete_filter s.gov.deposits (fun k => decide ((ofLex k).1 = proposalID))]

end GovStore
end

section
variable {s s' : State} {proposalID : ℕ} {depositor : Address} {amount : Coins}

/-- Record that a deposit leaves. -/
inductive Recorded (g : GovStore) (proposalID : ℕ) (depositor : Address) (amount : Coins) :
    Deposit → Prop
  | first (hnone : g.getDeposit proposalID depositor = none) :
      Recorded g proposalID depositor amount ⟨depositor, proposalID, amount⟩
  | more {old : Deposit} {sum : Coins} (hold : g.getDeposit proposalID depositor = some old)
      (hsum : old.amount.add amount = .ok sum) :
      Recorded g proposalID depositor amount { old with amount := sum }

lemma addToDeposit_ok {g g' : GovStore} (h : g.addToDeposit proposalID depositor amount = .ok g') :
    ∃ record, Recorded g proposalID depositor amount record ∧
      g' = g.setDeposit proposalID depositor record := by
  unfold addToDeposit at h
  split at h
  · rename_i hnone
    cases h
    exact ⟨_, .first hnone, rfl⟩
  · rename_i old hold
    obtain ⟨sum, hsum, h⟩ := bind_ok.mp h
    cases h
    exact ⟨_, .more hold hsum, rfl⟩

lemma activateVotingPeriod_ok {p : Proposal} (h : s.activateVotingPeriod p = .ok s') :
    ∃ validators, s' = s.withGov (s.gov.activated p s.app.blockTime validators) := by
  obtain ⟨validators, _, h⟩ := bind_ok.mp h
  cases h
  exact ⟨_, rfl⟩

/-- What a deposit that returns has done. -/
structure DepositAdded (s : State) (proposalID : ℕ) (depositor : Address) (amount : Coins)
    (r : State × Bool) : Prop where
  effect : ∃ p total record bank validators,
    s.gov.getProposal proposalID = some p ∧ p.status = .depositPeriod ∧
    s.app.bank.sendCoins depositor govDepositCoinsAccAddr amount = .ok bank ∧
    p.totalDeposit.add amount = .ok total ∧
    Recorded s.gov proposalID depositor amount record ∧
    r.2 = total.isAllGTE (s.gov.params.level p.level).minDeposit ∧
    r.1 = (s.withBank bank).withGov
      (if r.2 then (s.gov.paid p total depositor record).activated
          { p with totalDeposit := total } s.app.blockTime validators
        else s.gov.paid p total depositor record)

lemma addDeposit_ok
    {r : State × Bool}
    (hkey : ∀ p, s.gov.getProposal proposalID = some p → p.proposalID = proposalID)
    (h : s.addDeposit proposalID depositor amount = .ok r) :
    DepositAdded s proposalID depositor amount r := by
  obtain ⟨p, hp, h⟩ := bind_ok.mp h
  obtain ⟨_, hstatus, h⟩ := bind_ok.mp h
  obtain ⟨bank, hbank, h⟩ := bind_ok.mp h
  obtain ⟨total, htotal, h⟩ := bind_ok.mp h
  obtain ⟨⟨t, started⟩, ht, h⟩ := bind_ok.mp h
  obtain ⟨g, hg, h⟩ := bind_ok.mp h
  cases h
  rw [found_ok] at hp
  have hid := hkey p hp
  obtain ⟨record, hrecord, rfl⟩ := addToDeposit_ok hg
  unfold activateIfFunded at ht
  split_ifs at ht with hfunded
  · obtain ⟨t', ht', ht⟩ := bind_ok.mp ht
    cases ht
    obtain ⟨validators, rfl⟩ := activateVotingPeriod_ok ht'
    refine ⟨p, total, record, bank, validators, hp, by simpa using hstatus, hbank, htotal, ?_,
      hfunded.symm, ?_⟩
    · cases hrecord with
      | first hnone => exact .first hnone
      | more hold hsum => exact .more hold hsum
    · subst hid
      simp [withGov, withBank, activated, paid, setDeposit, setProposal]
  · cases ht
    refine ⟨p, total, record, bank, [], hp, by simpa using hstatus, hbank, htotal, ?_,
      (Bool.eq_false_iff.mpr hfunded).symm, ?_⟩
    · cases hrecord with
      | first hnone => exact .first hnone
      | more hold hsum => exact .more hold hsum
    · subst hid
      rfl

end

section
variable {env : Env} {s s' : State} {content : Content} {p : Proposal}

lemma newProposal_ok (h : content.newProposal = .ok p) :
    p.status = .depositPeriod ∧ p.totalDeposit = [] ∧ p.proposer = content.base.proposer := by
  obtain ⟨_, _, h⟩ := bind_ok.mp h
  cases h
  exact ⟨rfl, rfl, rfl⟩

/-- A proposal as `SubmitProposal` stores it first. -/
def Proposal.submitted (p : Proposal) (proposalID : ℕ) (now depositPeriod : ℤ) : Proposal :=
  { p with proposalID := proposalID, submitTime := now, depositEndTime := now + depositPeriod }

def State.submissionOpened (s : State) (p : Proposal) : State :=
  s.withGov ((s.gov.setNums s.gov.nums.read).opened p)

/-- What a submission that returns has done. -/
structure Submitted (env : Env) (s : State) (content : Content) (r : State × List Tag) : Prop where
  effect : ∃ (p₀ p : Proposal) (proposalID : ℕ) (minInitialDeposit : Coins) (t : State)
      (started : Bool),
    content.newProposal = .ok p₀ ∧
    s.gov.getMinInitialDeposit p₀.level = .ok minInitialDeposit ∧
    s.gov.nums.read.num p₀.level ≠ (s.gov.params.level p₀.level).maxNum ∧
    s.gov.nextProposalID = some proposalID ∧
    p = p₀.submitted proposalID s.app.blockTime (s.gov.params.level p₀.level).depositPeriod ∧
    DepositAdded (s.submissionOpened p) proposalID p.proposer content.base.initialDeposit
      (t, started) ∧
    r = (t.withGov (t.gov.setNums (t.gov.nums.add proposalID p.level)),
      [.proposer p.proposer, .proposalID proposalID] ++ State.votingTags started proposalID ++
        State.kindTags content p)

lemma verifyProposal_ok (h : s.verifyProposal env p = .ok s') :
    s.gov.nums.read.num p.level ≠ (s.gov.params.level p.level).maxNum ∧
      s' = s.withGov (s.gov.setNums s.gov.nums.read) := by
  unfold verifyProposal at h
  rw [hasReachedTheMaxProposalNum_eq] at h
  obtain ⟨_, hreached, h⟩ := bind_ok.mp h
  obtain ⟨_, _, h⟩ := bind_ok.mp h
  cases h
  exact ⟨by simpa using hreached, rfl⟩

lemma submitProposal_ok {r : State × List Tag}
    (h : s.submitProposal env content = .ok r) : Submitted env s content r := by
  obtain ⟨p₀, hp0, h⟩ := bind_ok.mp h
  obtain ⟨minInitialDeposit, hmin, h⟩ := bind_ok.mp h
  obtain ⟨_, _, h⟩ := bind_ok.mp h
  obtain ⟨t, ht, h⟩ := bind_ok.mp h
  obtain ⟨hnum, rfl⟩ := verifyProposal_ok ht
  obtain ⟨⟨t, p⟩, ht, h⟩ := bind_ok.mp h
  obtain ⟨⟨proposalID, g⟩, hnext, ht⟩ := bind_ok.mp ht
  obtain ⟨_, hid, hnext⟩ := bind_ok.mp hnext
  rw [found_ok] at hid
  cases hnext
  cases ht
  obtain ⟨⟨t, started⟩, hdeposit, h⟩ := bind_ok.mp h
  cases h
  refine ⟨p₀, _, proposalID, minInitialDeposit, t, started, hp0, hmin, hnum, hid, rfl, ?_, ?_⟩
  · refine addDeposit_ok (fun p' hp' => ?_) hdeposit
    rw [getProposal, submissionOpened] at hp'
    simp only [withGov, opened, Proposal.submitted, Store.get_set_self, Option.some.injEq] at hp'
    rw [← hp']
  · rw [addProposalNum_eq]
    rfl

end

section
variable {env : Env} {s s' : State} {proposalID : ℕ} {p : Proposal} {votingVals : List Address}
  {penalty : Dec}

lemma deleteDeposits_gov (h : s.deleteDeposits proposalID = .ok s') :
    s' = (s.withBank s'.app.bank).withGov (s.gov.cleared proposalID) := by
  have hloop : ∀ (l : List ((ℕ ×ₗ Address) × Deposit)) (t t' : State),
      l.foldlM (fun (s : State) e => do
        let bank ← panicOnError (s.app.bank.burnCoins govDepositCoinsAccAddr e.2.amount)
        return (s.withBank bank).withGov { s.gov with deposits := s.gov.deposits.delete e.1 }) t =
          .ok t' → t' = (t.removeDeposits l).withBank t'.app.bank := by
    intro l
    induction l with
    | nil =>
      intro t t' ht
      cases ht
      rfl
    | cons e l ih =>
      intro t t' ht
      rw [List.foldlM_cons] at ht
      obtain ⟨t1, ht1, ht⟩ := bind_ok.mp ht
      obtain ⟨bank, _, ht1⟩ := bind_ok.mp ht1
      cases ht1
      rw [ih _ _ ht]
      rfl
  rw [hloop _ s s' h, removeDeposits_eq]
  rfl

lemma refundDeposits_gov (h : s.refundDeposits proposalID = .ok s') :
    s' = (s.withBank s'.app.bank).withGov (s.gov.cleared proposalID) := by
  obtain ⟨_, _, h⟩ := bind_ok.mp h
  obtain ⟨_, _, h⟩ := bind_ok.mp h
  obtain ⟨_, _, h⟩ := bind_ok.mp h
  obtain ⟨_, _, h⟩ := bind_ok.mp h
  obtain ⟨⟨_, _⟩, _, h⟩ := bind_ok.mp h
  obtain ⟨_, _, h⟩ := bind_ok.mp h
  obtain ⟨_, _, h⟩ := bind_ok.mp h
  obtain ⟨_, _, h⟩ := bind_ok.mp h
  cases h
  rw [removeDeposits_eq]
  rfl

lemma execute_gov (h : s.execute env p = .ok s') :
    ∃ halt, s'.gov = { s.gov with systemHaltHeight := halt } := by
  unfold execute at h
  split at h
  · obtain ⟨_, _, h⟩ := bind_ok.mp h
    cases h
    exact ⟨_, rfl⟩
  · rename_i params _
    unfold executeParameter at h
    split at h
    · split_ifs at h
      · simp at h
      · obtain ⟨_, _, h⟩ := bind_ok.mp h
        obtain ⟨_, _, h⟩ := bind_ok.mp h
        cases h
        exact ⟨_, rfl⟩
    · cases h
      exact ⟨_, rfl⟩
  · cases h
    unfold executeSoftwareUpgrade
    split_ifs <;> exact ⟨_, rfl⟩
  · obtain ⟨_, _, h⟩ := bind_ok.mp h
    cases h
    unfold executeSystemHalt
    split_ifs <;> exact ⟨_, rfl⟩
  · obtain ⟨_, _, h⟩ := bind_ok.mp h
    obtain ⟨_, _, h⟩ := bind_ok.mp h
    cases h
    exact ⟨_, rfl⟩
  · obtain ⟨_, _, h⟩ := bind_ok.mp h
    cases h
    exact ⟨_, rfl⟩

lemma executeIgnoringError_ok (h : s.executeIgnoringError env p = .ok s') :
    s' = s ∨ s.execute env p = .ok s' := by
  unfold executeIgnoringError at h
  split at h
  · cases h
    exact Or.inl rfl
  · exact Or.inr h

lemma settle_gov {result : ProposalResult} {status : ProposalStatus}
    (h : s.settle env p result = .ok (s', status)) : (status = .passed ∨ status = .rejected) ∧
      ∃ halt, s'.gov = { s.gov.cleared p.proposalID with systemHaltHeight := halt } := by
  cases result with
  | pass =>
    obtain ⟨t, ht, h⟩ := bind_ok.mp h
    obtain ⟨t', ht', h⟩ := bind_ok.mp h
    cases h
    refine ⟨Or.inl rfl, ?_⟩
    have hgov : t.gov = s.gov.cleared p.proposalID := by rw [refundDeposits_gov ht]; rfl
    rw [← hgov]
    rcases executeIgnoringError_ok ht' with rfl | hexec
    · exact ⟨_, rfl⟩
    · exact execute_gov hexec
  | reject =>
    obtain ⟨t, ht, h⟩ := bind_ok.mp h
    cases h
    exact ⟨Or.inr rfl, _, by rw [refundDeposits_gov ht]; rfl⟩
  | rejectVeto =>
    obtain ⟨t, ht, h⟩ := bind_ok.mp h
    cases h
    exact ⟨Or.inr rfl, _, by rw [deleteDeposits_gov ht]; rfl⟩

lemma slashNonVoter_gov {valAddr : Address}
    (h : State.slashNonVoter env votingVals penalty s valAddr = .ok s') :
    s' = { s with app := s'.app } := by
  unfold slashNonVoter at h
  split_ifs at h with hvoted
  · cases h
    rfl
  · split at h
    · cases h
      rfl
    · split_ifs at h with hbonded
      · obtain ⟨_, _, h⟩ := bind_ok.mp h
        obtain ⟨_, _, h⟩ := bind_ok.mp h
        cases h
        rfl
      · cases h
        rfl

lemma slashNonVoters_gov {valAddrs : List Address}
    (h : valAddrs.foldlM (State.slashNonVoter env votingVals penalty) s = .ok s') :
    s' = { s with app := s'.app } := by
  refine invariant_of_foldlM (I := fun t => t = { s with app := t.app })
    (fun t t' a ht hstep => ?_) h rfl
  rw [slashNonVoter_gov hstep, ht]

/-- Steps of a proposal's end after its voting period. -/
structure Finish (env : Env) (s : State) (proposalID : ℕ) (r : State × Tag) : Prop where
  effect : ∃ (p : Proposal) (result : ProposalResult) (tallyResults : TallyResult)
      (votingVals : List Address) (t u : State) (status : ProposalStatus),
    s.gov.getProposal proposalID = some p ∧
    s.tally p = .ok (result, tallyResults, votingVals) ∧
    s.settle env p result = .ok (t, status) ∧
    (t.gov.getValidatorSet proposalID).foldlM
      (State.slashNonVoter env votingVals (s.gov.params.level p.level).penalty)
      (t.withGov ((t.gov.removeFromActiveProposalQueue p.votingEndTime p.proposalID).setProposal
        { p with status := status, tallyResult := tallyResults })) = .ok u ∧
    (∃ halt, r.1 = u.withGov (s.gov.finished p status tallyResults halt)) ∧
    (status = .passed ∨ status = .rejected) ∧
    r.2 = State.tallyTag status proposalID

lemma finishProposal_ok {r : State × Tag}
    (h : s.finishProposal env proposalID = .ok r) : Finish env s proposalID r := by
  obtain ⟨p, hp, h⟩ := bind_ok.mp h
  obtain ⟨⟨result, tallyResults, votingVals⟩, htally, h⟩ := bind_ok.mp h
  obtain ⟨⟨t, status⟩, hsettle, h⟩ := bind_ok.mp h
  obtain ⟨u, hu, h⟩ := bind_ok.mp h
  cases h
  obtain ⟨hstatus, halt, hgov⟩ := settle_gov hsettle
  have hparams : t.gov.params = s.gov.params := by rw [hgov]; rfl
  refine ⟨p, result, tallyResults, votingVals, t, u, status, by simpa using hp, htally, hsettle, ?_,
    ⟨halt, ?_⟩, hstatus, rfl⟩
  · rw [← hparams]
    exact hu
  · have hu' : u.gov = _ := congrArg gov (slashNonVoters_gov hu)
    rw [subProposalNum_eq, hu']
    simp only [withGov, hgov]
    rfl

lemma dropProposal_ok
    (hkey : ∀ p, s.gov.getProposal proposalID = some p → p.proposalID = proposalID)
    (h : s.dropProposal proposalID = .ok s') : ∃ p t, s.gov.getProposal proposalID = some p ∧
      (s.withGov (s.gov.setNums (s.gov.nums.sub p.level))).deleteDeposits proposalID = .ok t ∧
      s' = (s.withBank t.app.bank).withGov (s.gov.dropped p) := by
  obtain ⟨p, hp, h⟩ := bind_ok.mp h
  obtain ⟨t, ht, h⟩ := bind_ok.mp h
  obtain ⟨g, hg, h⟩ := bind_ok.mp h
  obtain ⟨p', hp', hg⟩ := bind_ok.mp hg
  cases hg
  cases h
  rw [deref_ok] at hp hp'
  rw [subProposalNum_eq] at ht
  have hgov := deleteDeposits_gov ht
  have hid := hkey p hp
  have hsame : p' = p := by
    rw [hgov] at hp'
    exact Option.some.inj (hp'.symm.trans hp)
  subst hsame hid
  refine ⟨p', t, hp, ht, ?_⟩
  rw [hgov]
  simp [withGov, withBank, dropped, cleared, setNums,
    removeFromInactiveProposalQueue, removeFromActiveProposalQueue]

end
end Irishub.Gov
