import Irishub.Gov.Effects
import Irishub.Lib.DueQueue
import Mathlib.Algebra.Group.Prod

/-!
# Gov: the queues agree with the proposals

`GovStore.Agrees` says that a proposal is in the inactive queue at the end of its
deposit period exactly while it is in that period, and in the active queue, with
a stored set of validators, exactly while it is in the voting period. Every
change of the gov store keeps this, and an iteration of the end blocker finds the
proposal that the queue told it.
-/

namespace Irishub.Gov
open Lib Store Option

section

/-- End of the period of the given status, while the proposal is in it. -/
def Proposal.due (status : ProposalStatus) (time : Proposal → ℤ) (p : Proposal) : Option ℤ :=
  if p.status = status then some (time p) else none

def Proposal.depositDue : Proposal → Option ℤ := Proposal.due .depositPeriod depositEndTime

def Proposal.votingDue : Proposal → Option ℤ := Proposal.due .votingPeriod votingEndTime

def dueBy (f : Proposal → Option ℤ) (proposals : Store ℕ Proposal) (proposalID : ℕ) : Option ℤ :=
  (proposals.get proposalID).bind f

variable {f : Proposal → Option ℤ} {proposals : Store ℕ Proposal} {p : Proposal} {proposalID : ℕ}

lemma dueBy_of_get (h : proposals.get proposalID = some p) :
    dueBy f proposals proposalID = f p := by
  rw [dueBy, h]
  rfl

lemma dueBy_set : dueBy f (proposals.set proposalID p) =
    Function.update (dueBy f proposals) proposalID (f p) := by
  funext k
  rw [dueBy, get_set, Function.update_apply]
  split_ifs <;> rfl

lemma dueBy_set_eq_self (h : dueBy f proposals proposalID = f p) :
    dueBy f (proposals.set proposalID p) = dueBy f proposals := by
  rw [dueBy_set, ← h, Function.update_eq_self]

lemma dueBy_eq_some {status : ProposalStatus} {time : Proposal → ℤ} {t : ℤ} :
    dueBy (Proposal.due status time) proposals proposalID = some t ↔
      ∃ p, proposals.get proposalID = some p ∧ p.status = status ∧ time p = t := by
  simp only [dueBy, Proposal.due, bind_eq_some_iff, ite_none_right_eq_some, some.injEq]

end

section

/-- Two queues and the validator sets say what the proposals say. -/
structure GovStore.Agrees (g : GovStore) : Prop where
  key : ∀ k p, g.getProposal k = some p → p.proposalID = k
  fresh : ∃ next, g.nextProposalID = some next ∧ ∀ k, next ≤ k → g.getProposal k = none
  inactive : Tracks g.inactiveProposalQueue (dueBy Proposal.depositDue g.proposals)
  active : Tracks g.activeProposalQueue (dueBy Proposal.votingDue g.proposals)
  sets : ∀ k, (g.validatorSets.get k).isSome = (dueBy Proposal.votingDue g.proposals k).isSome

namespace GovStore.Agrees
variable {g : GovStore} {p : Proposal}

lemma setNums (h : g.Agrees) (n : Nums) : (g.setNums n).Agrees :=
  ⟨h.key, h.fresh, h.inactive, h.active, h.sets⟩

lemma opened (h : g.Agrees) (hnext : g.nextProposalID = some p.proposalID)
    (hstatus : p.status = .depositPeriod) : (g.opened p).Agrees := by
  obtain ⟨next, hnext', hfresh⟩ := h.fresh
  rw [hnext] at hnext'
  cases hnext'
  have hnone : g.proposals.get p.proposalID = none := hfresh _ le_rfl
  have hdue : ∀ f, dueBy f g.proposals p.proposalID = none := fun f => by rw [dueBy, hnone]; rfl
  have hdeposit : p.depositDue = some p.depositEndTime := by
    simp [Proposal.depositDue, Proposal.due, hstatus]
  have hvoting : p.votingDue = none := by simp [Proposal.votingDue, Proposal.due, hstatus]
  refine ⟨forall_set h.key rfl, ⟨_, rfl, fun k hk => ?_⟩, ?_, ?_, fun k => ?_⟩
  · have hne : k ≠ p.proposalID := by omega
    exact (get_set_ne _ p hne).trans (hfresh k (by omega))
  · have hinsert := h.inactive.insert (t := p.depositEndTime) (hdue Proposal.depositDue)
    exact hinsert.congr (by rw [← hdeposit]; exact dueBy_set)
  · refine h.active.congr (dueBy_set_eq_self ?_)
    rw [hdue, hvoting]
  · refine (h.sets k).trans (congrArg isSome (congrFun (dueBy_set_eq_self ?_).symm k))
    rw [hdue, hvoting]

lemma ne_of_fresh {k : ℕ} (hp : g.getProposal p.proposalID = some p)
    (hk : g.getProposal k = none) : k ≠ p.proposalID := by
  rintro rfl
  cases hk.symm.trans hp

lemma due_of_depositPeriod (hp : g.getProposal p.proposalID = some p)
    (hstatus : p.status = .depositPeriod) :
    dueBy Proposal.depositDue g.proposals p.proposalID = some p.depositEndTime ∧
      dueBy Proposal.votingDue g.proposals p.proposalID = none := by
  rw [dueBy_of_get hp, dueBy_of_get hp]
  simp [Proposal.depositDue, Proposal.votingDue, Proposal.due, hstatus]

lemma paid (h : g.Agrees) (hp : g.getProposal p.proposalID = some p) (total : Coins)
    (depositor : Address) (record : Deposit) : (g.paid p total depositor record).Agrees := by
  obtain ⟨next, hnext, hfresh⟩ := h.fresh
  have hsame : ∀ f : Proposal → Option ℤ, f { p with totalDeposit := total } = f p →
      dueBy f (g.proposals.set p.proposalID { p with totalDeposit := total }) =
        dueBy f g.proposals := by
    intro f hf
    exact dueBy_set_eq_self (by rw [dueBy_of_get hp, hf])
  refine ⟨forall_set h.key rfl, ⟨next, hnext, fun k hk => ?_⟩, ?_, ?_, fun k => ?_⟩
  · exact (get_set_ne _ _ (ne_of_fresh hp (hfresh k hk))).trans (hfresh k hk)
  · exact h.inactive.congr (hsame _ rfl)
  · exact h.active.congr (hsame _ rfl)
  · exact (h.sets k).trans (congrArg isSome (congrFun (hsame _ rfl).symm k))

lemma activated (h : g.Agrees) (hp : g.getProposal p.proposalID = some p)
    (hstatus : p.status = .depositPeriod) (now : ℤ) (validators : List Address) :
    (g.activated p now validators).Agrees := by
  obtain ⟨next, hnext, hfresh⟩ := h.fresh
  obtain ⟨hdeposit, hvoting⟩ := due_of_depositPeriod hp hstatus
  refine ⟨forall_set h.key rfl, ⟨next, hnext, fun k hk => ?_⟩, ?_, ?_, fun k => ?_⟩
  · exact (get_set_ne _ _ (ne_of_fresh hp (hfresh k hk))).trans (hfresh k hk)
  · refine (h.inactive.remove (t := p.depositEndTime) (fun t' ht' => ?_)).congr dueBy_set
    exact some.inj (ht'.symm.trans hdeposit)
  · exact (h.active.insert hvoting).congr dueBy_set
  · change ((g.validatorSets.set p.proposalID validators).get k).isSome = _
    rw [get_set, GovStore.activated, dueBy_set, Function.update_apply]
    split_ifs
    · rfl
    · exact h.sets k

/-- End of a proposal `p`: nothing or a finished proposal remains. -/
lemma ended (h : g.Agrees) (hp : g.getProposal p.proposalID = some p) {g' : GovStore}
    (hnext : g'.nextProposalID = g.nextProposalID)
    (hproposals : ∀ k, k ≠ p.proposalID → g'.getProposal k = g.getProposal k)
    (hp' : ∀ p', g'.getProposal p.proposalID = some p' →
      p'.proposalID = p.proposalID ∧ p'.depositDue = none ∧ p'.votingDue = none)
    (hinactive : Tracks g'.inactiveProposalQueue
      (Function.update (dueBy Proposal.depositDue g.proposals) p.proposalID none))
    (hactive : Tracks g'.activeProposalQueue
      (Function.update (dueBy Proposal.votingDue g.proposals) p.proposalID none))
    (hsets : ∀ k, (g'.validatorSets.get k).isSome =
      (Function.update (dueBy Proposal.votingDue g.proposals) p.proposalID none k).isSome) :
    g'.Agrees := by
  obtain ⟨next, hnext', hfresh⟩ := h.fresh
  have hdue : ∀ f : Proposal → Option ℤ,
      (∀ p', g'.getProposal p.proposalID = some p' → f p' = none) →
      dueBy f g'.proposals = Function.update (dueBy f g.proposals) p.proposalID none := by
    intro f hf
    funext k
    rw [Function.update_apply]
    split_ifs with hk
    · subst hk
      cases hget : g'.proposals.get p.proposalID with
      | none => rw [dueBy, hget]; rfl
      | some p' => rw [dueBy_of_get hget, hf p' hget]
    · exact congrArg (bind · f) (hproposals k hk)
  refine ⟨fun k p' hk => ?_, ⟨next, hnext.trans hnext', fun k hk => ?_⟩, ?_, ?_, fun k => ?_⟩
  · by_cases heq : k = p.proposalID
    · subst heq
      exact (hp' p' hk).1
    · exact h.key k p' ((hproposals k heq).symm.trans hk)
  · exact (hproposals k (ne_of_fresh hp (hfresh k hk))).trans (hfresh k hk)
  · exact hinactive.congr (hdue _ (fun p' hk => (hp' p' hk).2.1))
  · exact hactive.congr (hdue _ (fun p' hk => (hp' p' hk).2.2))
  · rw [hsets k, hdue _ (fun p' hk => (hp' p' hk).2.2)]

lemma dropped (h : g.Agrees) (hp : g.getProposal p.proposalID = some p)
    (hstatus : p.status = .depositPeriod) : (g.dropped p).Agrees := by
  obtain ⟨hdeposit, hvoting⟩ := due_of_depositPeriod hp hstatus
  refine h.ended hp rfl (fun k hk => get_delete_ne _ hk) (fun p' hp' => ?_) ?_ ?_
    (fun k => ?_)
  · have hnone : (g.dropped p).getProposal p.proposalID = none := get_delete_self _ _
    rw [hnone] at hp'
    cases hp'
  · exact h.inactive.remove (fun t' ht' => some.inj (ht'.symm.trans hdeposit))
  · exact h.active.remove (fun t' ht' => absurd (ht'.symm.trans hvoting) (by simp))
  · rw [← hvoting, Function.update_eq_self]
    exact h.sets k

lemma finished (h : g.Agrees) (hp : g.getProposal p.proposalID = some p)
    (hstatus : p.status = .votingPeriod) {status : ProposalStatus}
    (hend : status = .passed ∨ status = .rejected) (tallyResults : TallyResult)
    (halt : Option ℤ) : (g.finished p status tallyResults halt).Agrees := by
  have hdeposit : dueBy Proposal.depositDue g.proposals p.proposalID = none := by
    rw [dueBy_of_get hp]
    simp [Proposal.depositDue, Proposal.due, hstatus]
  have hvoting : dueBy Proposal.votingDue g.proposals p.proposalID = some p.votingEndTime := by
    rw [dueBy_of_get hp]
    simp [Proposal.votingDue, Proposal.due, hstatus]
  refine h.ended hp rfl (fun k hk => get_set_ne _ _ hk) (fun p' hp' => ?_) ?_ ?_
    (fun k => ?_)
  · have hself : (g.finished p status tallyResults halt).getProposal p.proposalID =
        some { p with status := status, tallyResult := tallyResults } := get_set_self _ _ _
    rw [hself] at hp'
    cases hp'
    rcases hend with rfl | rfl
    · exact ⟨rfl, rfl, rfl⟩
    · exact ⟨rfl, rfl, rfl⟩
  · rw [← hdeposit, Function.update_eq_self]
    exact h.inactive
  · exact h.active.remove (fun t' ht' => some.inj (ht'.symm.trans hvoting))
  · change ((g.validatorSets.delete p.proposalID).get k).isSome = _
    rw [get_delete, Function.update_apply]
    split_ifs
    · rfl
    · exact h.sets k

end GovStore.Agrees
end

section
variable {env : Env} {s s' : State} {proposalID : ℕ} {g : GovStore} {now : ℤ}

def GovStore.HasStatus (g : GovStore) (proposalID : ℕ) (status : ProposalStatus) : Prop :=
  ∃ p, g.getProposal proposalID = some p ∧ p.status = status

section
variable {q : Store (ℤ ×ₗ ℕ) ℕ} {status : ProposalStatus} {time : Proposal → ℤ}
  (h : Tracks q (dueBy (Proposal.due status time) g.proposals))
include h

lemma mem_dueItems_iff : proposalID ∈ dueItems q now ↔
    ∃ p, g.getProposal proposalID = some p ∧ p.status = status ∧ time p ≤ now := by
  rw [h.mem_dueItems]
  simp only [dueBy_eq_some]
  constructor
  · rintro ⟨t, ⟨p, hp, hstatus, rfl⟩, hle⟩
    exact ⟨p, hp, hstatus, hle⟩
  · rintro ⟨p, hp, hstatus, hle⟩
    exact ⟨_, ⟨p, hp, hstatus, rfl⟩, hle⟩

lemma hasStatus_of_dueItems (now : ℤ) :
    (dueItems q now).Nodup ∧ ∀ id ∈ dueItems q now, g.HasStatus id status := by
  refine ⟨h.nodup_dueItems now, fun id hid => ?_⟩
  obtain ⟨p, hp, hstatus, _⟩ := (mem_dueItems_iff h).mp hid
  exact ⟨p, hp, hstatus⟩

lemma tracked_iff {t : ℤ} {k id : ℕ} : q.get (toLex (t, k)) = some id ↔
    k = id ∧ ∃ p, g.getProposal id = some p ∧ p.status = status ∧ time p = t := by
  rw [h t k, ite_none_right_eq_some, dueBy_eq_some, some.injEq, and_comm]
  exact and_congr_right (fun hk => hk ▸ Iff.rfl)

end

lemma DepositAdded.agrees {depositor : Address} {amount : Coins} {r : State × Bool}
    (h : DepositAdded s proposalID depositor amount r) (hs : s.gov.Agrees) : r.1.gov.Agrees := by
  obtain ⟨p, total, record, bank, validators, hp, hstatus, _, _, _, _, hr⟩ := h
  have hid := hs.key _ _ hp
  subst hid
  have hpaid := hs.paid hp total depositor record
  rw [hr]
  change GovStore.Agrees (if r.2 then _ else _)
  split_ifs
  · exact hpaid.activated (p := { p with totalDeposit := total }) (get_set_self _ _ _)
      hstatus _ _
  · exact hpaid

lemma Submitted.agrees {content : Content} {r : State × List Tag}
    (h : Submitted env s content r) (hs : s.gov.Agrees) : r.1.gov.Agrees := by
  obtain ⟨p0, p, id, _, t, started, hp0, _, _, hid, rfl, hdeposit, rfl⟩ := h
  have hopened := (hs.setNums s.gov.nums.read).opened
    (p := p0.submitted id s.app.blockTime (s.gov.params.level p0.level).depositPeriod) hid
    (newProposal_ok hp0).1
  exact (hdeposit.agrees hopened).setNums _

lemma addVote_gov {voter : Address} {option : VoteOption}
    (h : s.addVote proposalID voter option = .ok s') :
    ∃ votes, s' = s.withGov { s.gov with votes := votes } := by
  obtain ⟨_, _, h⟩ := bind_ok.mp h
  obtain ⟨_, _, h⟩ := bind_ok.mp h
  obtain ⟨_, _, h⟩ := bind_ok.mp h
  obtain ⟨_, _, h⟩ := bind_ok.mp h
  obtain ⟨_, _, h⟩ := bind_ok.mp h
  cases h
  exact ⟨_, rfl⟩

lemma dropProposal_agrees (hs : s.gov.Agrees) (hstatus : s.gov.HasStatus proposalID .depositPeriod)
    (h : s.dropProposal proposalID = .ok s') :
    s'.gov.Agrees ∧ s'.gov.getProposal proposalID = none ∧
      ∀ k, k ≠ proposalID → s'.gov.getProposal k = s.gov.getProposal k := by
  obtain ⟨p, t, hp, _, rfl⟩ := dropProposal_ok (hs.key _) h
  obtain ⟨p', hp', hstatus⟩ := hstatus
  have hid := hs.key _ _ hp
  have hsame : p' = p := some.inj (hp'.symm.trans hp)
  subst hsame hid
  exact ⟨hs.dropped hp hstatus, get_delete_self _ _, fun k hk => get_delete_ne _ hk⟩

/-- An iteration of the second loop: the proposal has passed or is rejected, the others stay. -/
lemma finishProposal_agrees {r : State × Tag} (hs : s.gov.Agrees)
    (hstatus : s.gov.HasStatus proposalID .votingPeriod)
    (h : s.finishProposal env proposalID = .ok r) : r.1.gov.Agrees ∧
      (r.1.gov.HasStatus proposalID .passed ∧ r.2 = .proposalPassed proposalID ∨
        r.1.gov.HasStatus proposalID .rejected ∧ r.2 = .proposalRejected proposalID) ∧
      ∀ k, k ≠ proposalID → r.1.gov.getProposal k = s.gov.getProposal k := by
  obtain ⟨p, result, tallyResults, votingVals, t, u, status, hp, _, _, _, ⟨halt, hr⟩, hend, htag⟩ :=
    finishProposal_ok h
  obtain ⟨p', hp', hstatus⟩ := hstatus
  have hid := hs.key _ _ hp
  have hsame : p' = p := some.inj (hp'.symm.trans hp)
  subst hsame hid
  rw [hr, htag]
  refine ⟨hs.finished hp hstatus hend _ _, ?_, fun k hk => get_set_ne _ _ hk⟩
  rcases hend with rfl | rfl
  · exact Or.inl ⟨⟨_, get_set_self _ _ _, rfl⟩, rfl⟩
  · exact Or.inr ⟨⟨_, get_set_self _ _ _, rfl⟩, rfl⟩

end

section
variable {env : Env} {s t : State} {proposalIDs : List ℕ} {g : GovStore}

/-- First loop: what every iteration keeps holds at its end. -/
lemma dropProposals_each {I : State → Prop} (hagrees : ∀ s, I s → s.gov.Agrees)
    (hdrop : ∀ s s' p, I s → s.gov.getProposal p.proposalID = some p → p.status = .depositPeriod →
      s.dropProposal p.proposalID = .ok s' → I s') (hnodup : proposalIDs.Nodup) (hs : I s)
    (hstatus : ∀ id ∈ proposalIDs, s.gov.HasStatus id .depositPeriod)
    (h : s.dropProposals proposalIDs = .ok t) :
    I t ∧ (∀ id ∈ proposalIDs, t.gov.getProposal id = none) ∧
      ∀ id, id ∉ proposalIDs → t.gov.getProposal id = s.gov.getProposal id := by
  refine foldlM_each (I := I) (v := fun (s : State) id => s.gov.getProposal id)
    (P := fun _ v => ∃ p : Proposal, v = some p ∧ p.status = .depositPeriod)
    (Q := fun _ v => v = none) (fun s s' id hs hid hstep => ?_) hnodup hs hstatus h
  obtain ⟨_, hnone, hother⟩ := dropProposal_agrees (hagrees s hs) hid hstep
  obtain ⟨p, hp, hp'⟩ := hid
  have hkey := (hagrees s hs).key _ _ hp
  subst hkey
  exact ⟨hdrop s s' p hs hp hp' hstep, hnone, hother⟩

lemma finishProposals_each {J : State × List Tag → Prop} (hagrees : ∀ a, J a → a.1.gov.Agrees)
    (hfinish : ∀ a p r, J a → a.1.gov.getProposal p.proposalID = some p →
      p.status = .votingPeriod → a.1.finishProposal env p.proposalID = .ok r →
      J (r.1, a.2 ++ [r.2]))
    {tags : List Tag} {a : State × List Tag} (hnodup : proposalIDs.Nodup) (hs : J (s, tags))
    (hstatus : ∀ id ∈ proposalIDs, s.gov.HasStatus id .votingPeriod)
    (h : s.finishProposals env proposalIDs tags = .ok a) :
    J a ∧ (∀ id ∈ proposalIDs, a.1.gov.HasStatus id .passed ∨ a.1.gov.HasStatus id .rejected) ∧
      ∀ id, id ∉ proposalIDs → a.1.gov.getProposal id = s.gov.getProposal id := by
  refine foldlM_each (I := J) (v := fun (a : State × List Tag) id => a.1.gov.getProposal id)
    (P := fun _ v => ∃ p : Proposal, v = some p ∧ p.status = .votingPeriod)
    (Q := fun _ v => (∃ p : Proposal, v = some p ∧ p.status = .passed) ∨
      ∃ p : Proposal, v = some p ∧ p.status = .rejected)
    (fun a a' id ha hid hstep => ?_) hnodup hs hstatus h
  obtain ⟨r, hr, hstep⟩ := bind_ok.mp hstep
  cases hstep
  obtain ⟨_, hend, hother⟩ := finishProposal_agrees (hagrees a ha) hid hr
  obtain ⟨p, hp, hp'⟩ := hid
  have hkey := (hagrees a ha).key _ _ hp
  subst hkey
  exact ⟨hfinish a p r ha hp hp' hr, hend.imp And.left And.left, hother⟩

/-- A property of states that the iterations of the end blocker keep. -/
structure EndKept (env : Env) (I : State → Prop) : Prop where
  agrees : ∀ s, I s → s.gov.Agrees
  drop : ∀ s s' p, I s → s.gov.getProposal p.proposalID = some p → p.status = .depositPeriod →
    s.dropProposal p.proposalID = .ok s' → I s'
  finish : ∀ s p r, I s → s.gov.getProposal p.proposalID = some p → p.status = .votingPeriod →
    s.finishProposal env p.proposalID = .ok r → I r.1

def Iteration.proposalID : Iteration → ℕ
  | drop proposalID => proposalID
  | finish proposalID => proposalID

def Iteration.status : Iteration → ProposalStatus
  | drop _ => .depositPeriod
  | finish _ => .votingPeriod

lemma GovStore.Agrees.inactive_due (h : g.Agrees) (now : ℤ) :
    (g.inactiveProposalQueueIterator now).Nodup ∧
      ∀ id ∈ g.inactiveProposalQueueIterator now, g.HasStatus id .depositPeriod :=
  hasStatus_of_dueItems h.inactive now

lemma GovStore.Agrees.active_due (h : g.Agrees) (now : ℤ) :
    (g.activeProposalQueueIterator now).Nodup ∧
      ∀ id ∈ g.activeProposalQueueIterator now, g.HasStatus id .votingPeriod :=
  hasStatus_of_dueItems h.active now

namespace EndKept
variable {I : State → Prop} (hI : EndKept env I)
include hI

lemma iterates {i : Iteration} (hs : I s) (h : Iterates env s i t) :
    I t ∧ t.gov.HasStatus i.proposalID i.status := by
  cases h with
  | @drop before after id t hdue hbefore =>
    obtain ⟨hnodup, hstatus⟩ := (hI.agrees s hs).inactive_due s.app.blockTime
    rw [hdue] at hnodup hstatus
    obtain ⟨hbefore_nodup, _, hdisjoint⟩ := List.nodup_append.mp hnodup
    obtain ⟨ht, _, hother⟩ := dropProposals_each hI.agrees hI.drop hbefore_nodup hs
      (fun k hk => hstatus k (by simp [hk])) hbefore
    refine ⟨ht, ?_⟩
    obtain ⟨p, hp, hp'⟩ := hstatus id (by simp)
    exact ⟨p, (hother id (fun hmem => hdisjoint id hmem id (by simp) rfl)).trans hp, hp'⟩
  | @finish s1 t before after id tags hdrop hdue hbefore =>
    obtain ⟨hnodup, hstatus⟩ := (hI.agrees s hs).inactive_due s.app.blockTime
    obtain ⟨hs1, _, _⟩ := dropProposals_each hI.agrees hI.drop hnodup hs hstatus hdrop
    obtain ⟨hnodup, hstatus⟩ := (hI.agrees s1 hs1).active_due s1.app.blockTime
    rw [hdue] at hnodup hstatus
    obtain ⟨hbefore_nodup, _, hdisjoint⟩ := List.nodup_append.mp hnodup
    obtain ⟨ht, _, hother⟩ := finishProposals_each (J := fun a => I a.1)
      (fun a => hI.agrees a.1) (fun a p r => hI.finish a.1 p r) hbefore_nodup hs1
      (fun k hk => hstatus k (by simp [hk])) hbefore
    refine ⟨ht, ?_⟩
    obtain ⟨p, hp, hp'⟩ := hstatus id (by simp)
    exact ⟨p, (hother id (fun hmem => hdisjoint id hmem id (by simp) rfl)).trans hp, hp'⟩

lemma endBlocker {r : State × List Tag} (hs : I s) (h : s.endBlocker env = .ok r) : I r.1 := by
  obtain ⟨s1, hdrop, h⟩ := bind_ok.mp h
  obtain ⟨hnodup, hstatus⟩ := (hI.agrees s hs).inactive_due s.app.blockTime
  obtain ⟨hs1, _, _⟩ := dropProposals_each hI.agrees hI.drop hnodup hs hstatus hdrop
  obtain ⟨hnodup, hstatus⟩ := (hI.agrees s1 hs1).active_due s1.app.blockTime
  exact (finishProposals_each (J := fun a => I a.1) (fun a => hI.agrees a.1)
    (fun a p r => hI.finish a.1 p r) hnodup hs1 hstatus h).1

end EndKept
end

section
variable {tags new : List Tag} {depositor : Address} {amount : Coins}

def Tag.starts (proposalID : ℕ) : Tag → Bool
  | votingPeriodStart id => id = proposalID
  | _ => false

def Tag.tallies (proposalID : ℕ) : Tag → Bool
  | proposalPassed id => id = proposalID
  | proposalRejected id => id = proposalID
  | _ => false

def marks (tags : List Tag) (proposalID : ℕ) : ℕ × ℕ :=
  (tags.countP (Tag.starts proposalID), tags.countP (Tag.tallies proposalID))

@[simp] lemma marks_nil (proposalID : ℕ) : marks [] proposalID = 0 := rfl

@[simp] lemma marks_append (tags tags' : List Tag) (proposalID : ℕ) :
    marks (tags ++ tags') proposalID = marks tags proposalID + marks tags' proposalID := by
  simp [marks]

lemma marks_eq_zero {proposalID : ℕ}
    (h : ∀ tag ∈ tags, tag.starts proposalID = false ∧ tag.tallies proposalID = false) :
    marks tags proposalID = 0 := by
  refine Prod.ext ?_ ?_
  · exact List.countP_eq_zero.mpr (fun tag htag => by simp [(h tag htag).1])
  · exact List.countP_eq_zero.mpr (fun tag htag => by simp [(h tag htag).2])

lemma marks_votingTags (started : Bool) (id proposalID : ℕ) :
    marks (State.votingTags started id) proposalID =
      if started ∧ id = proposalID then (1, 0) else 0 := by
  by_cases hid : id = proposalID <;> cases started <;>
    simp [State.votingTags, marks, Tag.starts, Tag.tallies, hid]

lemma marks_kindTags (content : Content) (p : Proposal) (proposalID : ℕ) :
    marks (State.kindTags content p) proposalID = 0 := by
  unfold State.kindTags
  split <;> rfl

lemma marks_dropped (proposalIDs : List ℕ) (proposalID : ℕ) :
    marks (proposalIDs.map Tag.proposalDropped) proposalID = 0 := by
  refine marks_eq_zero (fun tag htag => ?_)
  obtain ⟨id, _, rfl⟩ := List.mem_map.mp htag
  exact ⟨rfl, rfl⟩

def ProposalStatus.marks : ProposalStatus → ℕ × ℕ
  | depositPeriod => (0, 0)
  | votingPeriod => (1, 0)
  | passed => (1, 1)
  | rejected => (1, 1)

def Counted (g : GovStore) (tags : List Tag) : Prop :=
  ∀ id, marks tags id = (g.getProposal id).elim 0 (fun p => p.status.marks)

lemma Counted.append {g g' : GovStore} (h : Counted g tags) (proposalID : ℕ)
    (hother : ∀ id, id ≠ proposalID → g'.getProposal id = g.getProposal id ∧ marks new id = 0)
    (hself : (g'.getProposal proposalID).elim 0 (fun p => p.status.marks) =
      (g.getProposal proposalID).elim 0 (fun p => p.status.marks) + marks new proposalID) :
    Counted g' (tags ++ new) := by
  intro id
  rw [marks_append, h id]
  by_cases hid : id = proposalID
  · rw [hid]
    exact hself.symm
  · obtain ⟨hget, hnew⟩ := hother id hid
    rw [hget, hnew, add_zero]

variable {env : Env} {s : State} {tags : List Tag} {proposalID : ℕ}

lemma DepositAdded.proposals {r : State × Bool}
    (h : DepositAdded s proposalID depositor amount r) (hs : s.gov.Agrees) :
    s.gov.HasStatus proposalID .depositPeriod ∧
      r.1.gov.HasStatus proposalID (if r.2 then .votingPeriod else .depositPeriod) ∧
      ∀ k, k ≠ proposalID → r.1.gov.getProposal k = s.gov.getProposal k := by
  obtain ⟨p, total, record, bank, validators, hp, hstatus, _, _, _, _, hr⟩ := h
  have hid := hs.key _ _ hp
  subst hid
  refine ⟨⟨p, hp, hstatus⟩, ?_⟩
  rw [hr]
  cases r.2 with
  | false => exact ⟨⟨_, get_set_self _ _ _, hstatus⟩, fun k hk => get_set_ne _ _ hk⟩
  | true =>
    refine ⟨⟨_, get_set_self _ _ _, rfl⟩, fun k hk => ?_⟩
    exact (get_set_ne _ _ hk).trans (get_set_ne _ _ hk)

lemma DepositAdded.counted {r : State × Bool}
    (h : DepositAdded s proposalID depositor amount r) (hs : s.gov.Agrees)
    (hcount : Counted s.gov tags)
    (hnew : ∀ id, marks new id = if r.2 ∧ proposalID = id then (1, 0) else 0) :
    Counted r.1.gov (tags ++ new) := by
  obtain ⟨⟨p, hp, hstatus⟩, ⟨p', hp', hstatus'⟩, hother⟩ := h.proposals hs
  refine hcount.append proposalID (fun id hid => ⟨hother id hid, ?_⟩) ?_
  · rw [hnew, if_neg (fun hand => hid hand.2.symm)]
  · rw [hp, hp', hnew]
    cases hr : r.2 with
    | false | true => simp [hstatus, hstatus', hr, ProposalStatus.marks]

lemma Submitted.counted {content : Content} {r : State × List Tag}
    (h : Submitted env s content r) (hs : s.gov.Agrees) (hcount : Counted s.gov tags) :
    Counted r.1.gov (tags ++ r.2) := by
  obtain ⟨p0, p, id, _, t, started, hp0, _, _, hid, rfl, hdeposit, rfl⟩ := h
  obtain ⟨hstatus, _, _⟩ := newProposal_ok hp0
  have hopened := (hs.setNums s.gov.nums.read).opened
    (p := p0.submitted id s.app.blockTime (s.gov.params.level p0.level).depositPeriod) hid hstatus
  obtain ⟨next, hnext, hfresh⟩ := hs.fresh
  have hnone : s.gov.getProposal id = none := by
    rw [hid] at hnext
    cases hnext
    exact hfresh _ le_rfl
  -- a proposal in the deposit period counts as little as no proposal
  have hcount1 : Counted (s.submissionOpened
      (p0.submitted id s.app.blockTime (s.gov.params.level p0.level).depositPeriod)).gov
      (tags ++ []) := by
    refine hcount.append id (fun k hk => ⟨get_set_ne _ _ hk, rfl⟩) ?_
    rw [hnone]
    have hself : (s.submissionOpened
        (p0.submitted id s.app.blockTime
          (s.gov.params.level p0.level).depositPeriod)).gov.getProposal
        id = some _ := get_set_self _ _ _
    rw [hself]
    simp [Proposal.submitted, hstatus, ProposalStatus.marks]
  rw [List.append_nil] at hcount1
  refine hdeposit.counted hopened hcount1 (fun k => ?_)
  rw [marks_append, marks_append, marks_votingTags, marks_kindTags]
  simp [marks, Tag.starts, Tag.tallies]

lemma dropProposal_counted {s' : State} (hs : s.gov.Agrees) (hcount : Counted s.gov tags)
    (hstatus : s.gov.HasStatus proposalID .depositPeriod)
    (h : s.dropProposal proposalID = .ok s') : Counted s'.gov tags := by
  obtain ⟨_, hnone, hother⟩ := dropProposal_agrees hs hstatus h
  obtain ⟨p, hp, hstatus⟩ := hstatus
  have happend : Counted s'.gov (tags ++ []) := by
    refine hcount.append proposalID (fun k hk => ⟨hother k hk, rfl⟩) ?_
    rw [hnone, hp, elim_some, hstatus]
    rfl
  rwa [List.append_nil] at happend

lemma finishProposal_counted {r : State × Tag} (hs : s.gov.Agrees) (hcount : Counted s.gov tags)
    (hstatus : s.gov.HasStatus proposalID .votingPeriod)
    (h : s.finishProposal env proposalID = .ok r) : Counted r.1.gov (tags ++ [r.2]) := by
  obtain ⟨_, hend, hother⟩ := finishProposal_agrees hs hstatus h
  obtain ⟨p, hp, hstatus⟩ := hstatus
  refine hcount.append proposalID (fun k hk => ⟨hother k hk, ?_⟩) ?_
  · rcases hend with ⟨_, htag⟩ | ⟨_, htag⟩ <;>
      simp [htag, marks, Tag.starts, Tag.tallies, Ne.symm hk]
  · rcases hend with ⟨⟨q, hq, hq'⟩, htag⟩ | ⟨⟨q, hq, hq'⟩, htag⟩ <;>
      simp [hp, hq, hq', hstatus, htag, marks, Tag.starts, Tag.tallies, ProposalStatus.marks]

def GovStore.NoneDue (g : GovStore) (now : ℤ) : Prop :=
  ∀ id p, g.getProposal id = some p →
    (p.status = .depositPeriod → now < p.depositEndTime) ∧
    (p.status = .votingPeriod → now < p.votingEndTime)

lemma endBlocker_counted {r : State × List Tag} (hs : s.gov.Agrees)
    (hcount : Counted s.gov tags) (h : s.endBlocker env = .ok r) :
    Counted r.1.gov (tags ++ r.2) ∧ r.1.gov.NoneDue s.app.blockTime := by
  obtain ⟨s1, hdrop, h⟩ := bind_ok.mp h
  obtain ⟨hnodup, hstatus⟩ := hs.inactive_due s.app.blockTime
  obtain ⟨⟨hs1, hcount1, htime⟩, hgone, hother⟩ := dropProposals_each
    (I := fun t => t.gov.Agrees ∧ Counted t.gov tags ∧ t.app.blockTime = s.app.blockTime)
    (fun t ht => ht.1)
    (fun t t' p ht hp hp' hstep => by
      obtain ⟨_, _, _, _, heq⟩ := dropProposal_ok (ht.1.key _) hstep
      exact ⟨(dropProposal_agrees ht.1 ⟨p, hp, hp'⟩ hstep).1,
        dropProposal_counted ht.1 ht.2.1 ⟨p, hp, hp'⟩ hstep, by rw [heq]; exact ht.2.2⟩)
    hnodup ⟨hs, hcount, rfl⟩ hstatus hdrop
  obtain ⟨hnodup1, hstatus1⟩ := hs1.active_due s1.app.blockTime
  obtain ⟨⟨hs2, hcount2⟩, hended, hother2⟩ := finishProposals_each
    (J := fun a => a.1.gov.Agrees ∧ Counted a.1.gov (tags ++ a.2))
    (fun a ha => ha.1)
    (fun a p r' ha hp hp' hstep => by
      refine ⟨(finishProposal_agrees ha.1 ⟨p, hp, hp'⟩ hstep).1, ?_⟩
      rw [← List.append_assoc]
      exact finishProposal_counted ha.1 ha.2 ⟨p, hp, hp'⟩ hstep)
    hnodup1 ⟨hs1, fun id => by
      rw [marks_append, marks_append, marks_dropped, hcount1 id]
      split_ifs <;> rfl⟩ hstatus1 h
  -- the second loop leaves no live proposal that it has read
  have hactive : ∀ id p, r.1.gov.getProposal id = some p →
      (p.status = .depositPeriod ∨ p.status = .votingPeriod) →
      id ∉ s1.gov.activeProposalQueueIterator s1.app.blockTime := by
    intro id p hp hlive hmem
    rcases hended id hmem with ⟨q, hq, hq'⟩ | ⟨q, hq, hq'⟩ <;>
      cases hp.symm.trans hq <;> rcases hlive with hlive | hlive <;>
      exact absurd (hlive.symm.trans hq') (by decide)
  refine ⟨hcount2, fun id p hp => ⟨fun hlive => ?_, fun hlive => ?_⟩⟩
  · by_contra hdue
    have hget1 := (hother2 id (hactive id p hp (.inl hlive))).symm.trans hp
    have hinactive : id ∉ s.gov.inactiveProposalQueueIterator s.app.blockTime := by
      intro hmem
      rw [hgone id hmem] at hget1
      cases hget1
    exact hinactive ((mem_dueItems_iff hs.inactive).mpr
      ⟨p, (hother id hinactive).symm.trans hget1, hlive, not_lt.mp hdue⟩)
  · by_contra hdue
    exact hactive id p hp (.inr hlive) ((mem_dueItems_iff hs1.active).mpr
      ⟨p, (hother2 id (hactive id p hp (.inr hlive))).symm.trans hp, hlive,
        by rw [htime]; exact not_lt.mp hdue⟩)

end

section
variable {env : Env} {s : State} {op : Op} {r : State × List Tag} {tags : List Tag} {g : GovStore}

lemma State.Genesis.agrees (h : s.Genesis) : s.gov.Agrees := by
  have hempty : ∀ f, dueBy f s.gov.proposals = fun _ => none := by
    intro f
    rw [h.proposals]
    rfl
  refine ⟨fun k p hp => ?_, ⟨1, h.nextProposalID, fun k _ => ?_⟩, ?_, ?_, fun k => ?_⟩
  · rw [GovStore.getProposal, h.proposals] at hp
    cases hp
  · rw [GovStore.getProposal, h.proposals]
    rfl
  · rw [h.inactiveProposalQueue, hempty]
    exact tracks_empty
  · rw [h.activeProposalQueue, hempty]
    exact tracks_empty
  · rw [h.validatorSets, hempty]
    rfl

lemma endKept_agrees : EndKept env (fun s => s.gov.Agrees) where
  agrees _ hs := hs
  drop _ _ p hs hp hstatus h := (dropProposal_agrees hs ⟨p, hp, hstatus⟩ h).1
  finish _ p _ hs hp hstatus h := (finishProposal_agrees hs ⟨p, hp, hstatus⟩ h).1

lemma Op.run_agrees (hs : s.gov.Agrees) (h : op.run env s = .ok r) : r.1.gov.Agrees ∧
    ∀ tags, Counted s.gov tags → Counted r.1.gov (tags ++ r.2) := by
  cases op with
  | submit content =>
    obtain ⟨_, _, h⟩ := bind_ok.mp h
    have hsubmitted := submitProposal_ok h
    exact ⟨hsubmitted.agrees hs, fun _ => hsubmitted.counted hs⟩
  | deposit msg =>
    obtain ⟨_, _, h⟩ := bind_ok.mp h
    obtain ⟨_, hdeposit, h⟩ := bind_ok.mp h
    cases h
    have hadded := addDeposit_ok (hs.key _) hdeposit
    refine ⟨hadded.agrees hs, fun _ hcount => hadded.counted hs hcount (fun id => ?_)⟩
    rw [marks_append, marks_votingTags]
    simp [marks, Tag.starts, Tag.tallies]
  | vote msg =>
    obtain ⟨_, _, h⟩ := bind_ok.mp h
    obtain ⟨_, hvote, h⟩ := bind_ok.mp h
    cases h
    obtain ⟨votes, rfl⟩ := addVote_gov hvote
    refine ⟨⟨hs.key, hs.fresh, hs.inactive, hs.active, hs.sets⟩, fun _ hcount id => ?_⟩
    rw [marks_append, hcount id]
    rfl
  | endBlock =>
    exact ⟨endKept_agrees.endBlocker hs h, fun _ hcount => (endBlocker_counted hs hcount h).1⟩
  | outside app assets protocol guardian =>
    cases h
    exact ⟨hs, fun _ hcount => by simpa using hcount⟩

lemma run_agrees {ops : List Op} (hs : s.Genesis)
    (h : run env s ops = .ok r) : r.1.gov.Agrees ∧ Counted r.1.gov r.2 := by
  refine invariant_of_foldlM (I := fun a : State × List Tag => a.1.gov.Agrees ∧ Counted a.1.gov a.2)
    (fun a a' op ha hstep => ?_) h ⟨hs.agrees, fun id => ?_⟩
  · obtain ⟨r', hr', hstep⟩ := bind_ok.mp hstep
    cases hstep
    obtain ⟨hagrees, hcounted⟩ := Op.run_agrees ha.1 hr'
    exact ⟨hagrees, hcounted _ ha.2⟩
  · rw [GovStore.getProposal, hs.proposals]
    rfl

/-- Indexes of the proposals as a reader of the store sees them. -/
structure GovStore.Indexed (g : GovStore) : Prop where
  inactive : ∀ t k id, g.inactiveProposalQueue.get (toLex (t, k)) = some id ↔
    k = id ∧ ∃ p, g.getProposal id = some p ∧ p.status = .depositPeriod ∧ p.depositEndTime = t
  active : ∀ t k id, g.activeProposalQueue.get (toLex (t, k)) = some id ↔
    k = id ∧ ∃ p, g.getProposal id = some p ∧ p.status = .votingPeriod ∧ p.votingEndTime = t
  validatorSet : ∀ id, (g.validatorSets.get id).isSome ↔ g.HasStatus id .votingPeriod

lemma GovStore.Agrees.indexed (h : g.Agrees) : g.Indexed := by
  refine ⟨fun t k id => tracked_iff h.inactive, fun t k id => tracked_iff h.active, fun id => ?_⟩
  simp only [h.sets id, isSome_iff_exists, Proposal.votingDue, dueBy_eq_some]
  exact ⟨fun ⟨_, p, hp, hstatus, _⟩ => ⟨p, hp, hstatus⟩,
    fun ⟨p, hp, hstatus⟩ => ⟨_, p, hp, hstatus, rfl⟩⟩

/-- Voting on a proposal begins at most once; it is tallied once when it is over, and not
before. -/
structure Tallied (g : GovStore) (tags : List Tag) : Prop where
  once : ∀ id, (marks tags id).1 ≤ 1
  pending : ∀ id, g.HasStatus id .votingPeriod ↔ (marks tags id).1 = 1 ∧ (marks tags id).2 = 0
  closed : ∀ id, ¬ g.HasStatus id .votingPeriod → (marks tags id).2 = (marks tags id).1

lemma Counted.tallied (h : Counted g tags) : Tallied g tags := by
  have hcases : ∀ id, (g.HasStatus id .votingPeriod ∧ marks tags id = (1, 0)) ∨
      (¬ g.HasStatus id .votingPeriod ∧ (marks tags id = (0, 0) ∨ marks tags id = (1, 1))) := by
    intro id
    rw [h id, GovStore.HasStatus]
    cases hp : g.getProposal id with
    | none => exact .inr ⟨by simp, .inl rfl⟩
    | some p => cases hstatus : p.status <;> simp [hstatus, ProposalStatus.marks]
  refine ⟨fun id => ?_, fun id => ?_, fun id hnot => ?_⟩
  · rcases hcases id with ⟨_, hm⟩ | ⟨_, hm | hm⟩ <;> simp [hm]
  · rcases hcases id with ⟨hv, hm⟩ | ⟨hv, hm | hm⟩ <;> simp [hv, hm]
  · rcases hcases id with ⟨hv, hm⟩ | ⟨_, hm | hm⟩
    · exact absurd hv hnot
    · simp [hm]
    · simp [hm]

/-- After every run the queues and validator sets are those of the proposals, also where an
iteration of the end blocker begins, which finds its proposal; the voting on every proposal is
tallied once, by the end of the first block that is not before the end of its voting period. -/
theorem queues_agree {ops : List Op} {r : State × List Tag} (hs : s.Genesis)
    (h : run env s ops = .ok r) : r.1.gov.Indexed ∧ Tallied r.1.gov r.2 ∧
      (∀ i t, Iterates env r.1 i t → t.gov.Indexed ∧ t.gov.HasStatus i.proposalID i.status) ∧
      ∀ r', r.1.endBlocker env = .ok r' →
        r'.1.gov.Indexed ∧ Tallied r'.1.gov (r.2 ++ r'.2) ∧ r'.1.gov.NoneDue r.1.app.blockTime := by
  obtain ⟨hagrees, hcount⟩ := run_agrees hs h
  refine ⟨hagrees.indexed, hcount.tallied, fun i t hi => ?_, fun r' hr' => ?_⟩
  · obtain ⟨ht, hstatus⟩ := endKept_agrees.iterates hagrees hi
    exact ⟨ht.indexed, hstatus⟩
  · obtain ⟨hcount', hnone⟩ := endBlocker_counted hagrees hcount hr'
    exact ⟨(endKept_agrees.endBlocker hagrees hr').indexed, hcount'.tallied, hnone⟩

end

def sampleEnv : Env where
  consAddress key := key.bytes
  pubKeyTypes := none
  paramSet _ := none

/-- Account 1 is the operator of the only validator. -/
def sampleApp (bank : Bank) (time : ℤ) : Stake.State :=
  { Stake.sampleGenesis with
    bank := bank
    stake := { Stake.sampleGenesis.stake with
      params := ⟨0, 1⟩
      bondedTokens := .newDecFromInt (10 ^ 20)
      lastTotalPower := 100
      lastValidatorPowers := Store.empty.set 1 100
      validators := Store.empty.set 1
        { (Stake.newValidator 1 ⟨"", 0⟩ Stake.Description.zero).toValidatorValue with
          status := .bonded
          tokens := .newDecFromInt (10 ^ 20)
          delegatorShares := .newDecFromInt (10 ^ 20) }
      validatorsByConsAddr := Store.empty.set 0 1
      validatorsByPowerIndex := Store.empty.set (toLex (100, 2 ^ 160 - 2)) 1
      delegations := Store.empty.set (toLex (1, 1)) ⟨.newDecFromInt (10 ^ 20), 0⟩ }
    height := 1
    blockTime := time }

def sampleBank (held escrow : ℕ) : Bank where
  accounts := (Store.empty.set 1 (Stake.sampleAccount held)).set govDepositCoinsAccAddr
    (Stake.sampleAccount escrow)
  totalLoosenToken := Stake.sampleAccount (held + escrow)
  totalSupply := Store.empty

/-- Gov store of a new chain. -/
def sampleGov : GovStore where
  params := defaultParams
  proposals := Store.empty
  nextProposalID := some 1
  deposits := Store.empty
  votes := Store.empty
  activeProposalQueue := Store.empty
  inactiveProposalQueue := Store.empty
  criticalProposal := none
  importantProposalNum := none
  normalProposalNum := none
  validatorSets := Store.empty
  systemHaltHeight := some (-1)

def sampleState (app : Stake.State) : State where
  app := app
  assets := ⟨Store.empty, Store.empty, Store.empty, Store.empty, Store.empty⟩
  protocol := ⟨0, 0, none⟩
  guardian := ⟨[], []⟩
  gov := sampleGov

lemma sampleState_genesis (app : Stake.State) : (sampleState app).Genesis where
  validParams := validateParams_defaultParams
  maxNum level := by
    change (defaultParams.level level).maxNum < 2 ^ 64
    cases level <;> decide
  proposals := rfl
  nextProposalID := rfl
  deposits := rfl
  votes := rfl
  activeProposalQueue := rfl
  inactiveProposalQueue := rfl
  criticalProposal := rfl
  importantProposalNum := rfl
  normalProposalNum := rfl
  validatorSets := rfl
  systemHaltHeight := rfl

def sampleMsg (kind : ProposalKind) (deposit : ℕ) : MsgSubmitProposal where
  title := "title"
  description := "description"
  proposalType := kind
  proposer := 1
  initialDeposit := [⟨irisAtto, deposit⟩]
  params := []

def sampleOutside (app : Stake.State) : Op :=
  .outside app (sampleState app).assets (sampleState app).protocol (sampleState app).guardian

/-- A text is submitted with the whole deposit, and the validator votes for it; another one stays in
the deposit period. The block after five days ends both. -/
def sampleOps : List Op :=
  [.submit (.submitProposal (sampleMsg .plainText (10 ^ 21))), .vote ⟨1, 1, .yes⟩,
    .submit (.submitProposal (sampleMsg .plainText (3 * 10 ^ 20))),
    sampleOutside (sampleApp (sampleBank 0 (13 * 10 ^ 20)) (5 * day)), .endBlock]

theorem sampleOps_agree :
    ∃ r, run sampleEnv (sampleState (sampleApp (sampleBank (13 * 10 ^ 20) 0) 0)) sampleOps = .ok r ∧
      r.1.gov.proposals.values.map (·.status) = [.passed] ∧ r.1.gov.Indexed ∧
      Tallied r.1.gov r.2 := by
  obtain ⟨r, hr, htest⟩ := of_returns
    (p := fun r : State × List Tag => decide (r.1.gov.proposals.values.map (·.status) = [.passed]))
    (x := run sampleEnv (sampleState (sampleApp (sampleBank (13 * 10 ^ 20) 0) 0)) sampleOps)
    (by decide +kernel)
  obtain ⟨hindexed, htallied, _⟩ := queues_agree (sampleState_genesis _) hr
  exact ⟨r, hr, of_decide_eq_true htest, hindexed, htallied⟩

end Irishub.Gov
