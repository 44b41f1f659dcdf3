import Irishub.Gov.Keeper

/-!
# Gov: tally

`gov/tally.go`. The map of the bonded validators is a store ordered by operator
address, so the last loop of the source, which ranges over a Go map, visits them
in this order here.
-/

namespace Irishub.Gov
open Lib

inductive ProposalResult
  | pass
  | reject
  | rejectVeto
  deriving DecidableEq

/-- `validatorGovInfo`, without the address, which is the key. -/
structure ValidatorGovInfo where
  vote : VoteOption
  tokenPerShare : Dec
  delegatorShares : Dec
  delegatorDeductions : Dec
  deriving DecidableEq

/-- Map `results`. -/
structure Results where
  yes : Dec
  abstain : Dec
  no : Dec
  noWithVeto : Dec
  deriving DecidableEq

/-- `results[option] = results[option].Add(votingPower)`; an option that is not in the map has a nil
decimal. -/
def Results.add (r : Results) (option : VoteOption) (votingPower : Dec) : Outcome Results :=
  match option with
  | .yes => do return { r with yes := ← r.yes.add votingPower }
  | .abstain => do return { r with abstain := ← r.abstain.add votingPower }
  | .no => do return { r with no := ← r.no.add votingPower }
  | .noWithVeto => do return { r with noWithVeto := ← r.noWithVeto.add votingPower }
  | .empty | .undefined _ => raise .nilPointer

/-- Variables of the loop over the votes. -/
structure TallyLoop where
  results : Results
  totalVotingPower : Dec
  currValidators : Store Address ValidatorGovInfo
  votingVals : List Address

namespace TallyLoop

def recordVote (t : TallyLoop) (vote : Vote) : TallyLoop :=
  match t.currValidators.get vote.voter with
  | none => t
  | some val => { t with
      currValidators := t.currValidators.set vote.voter { val with vote := vote.option }
      votingVals := vote.voter :: t.votingVals }

/-- One delegation of a voter; a self-delegation counts with the validator. -/
def countDelegation (vote : Vote) (t : TallyLoop) (delegation : Stake.Delegation) :
    Outcome TallyLoop :=
  if delegation.validatorAddr = vote.voter then .ok t
  else
    match t.currValidators.get delegation.validatorAddr with
    | none => .ok t
    | some val => do
      let deductions ← val.delegatorDeductions.add delegation.shares
      let votingPower ← delegation.shares.mul val.tokenPerShare
      let results ← t.results.add vote.option votingPower
      let totalVotingPower ← t.totalVotingPower.add votingPower
      return { t with
        results := results
        totalVotingPower := totalVotingPower
        currValidators := t.currValidators.set delegation.validatorAddr
          { val with delegatorDeductions := deductions } }

end TallyLoop

/-- One bonded validator in the first loop, with the system voting power so far. -/
def addValidator (acc : Store Address ValidatorGovInfo × Dec) (validator : Stake.Validator) :
    Outcome (Store Address ValidatorGovInfo × Dec) := do
  let tokenPerShare ← validator.tokens.quo validator.delegatorShares
  let systemVotingPower ← acc.2.add validator.tokens
  return (acc.1.set validator.operatorAddr
      ⟨.empty, tokenPerShare, validator.delegatorShares, .zero⟩,
    systemVotingPower)

/-- One validator in the last loop. -/
def countValidator (acc : Results × Dec) (val : ValidatorGovInfo) : Outcome (Results × Dec) :=
  if val.vote = .empty then .ok acc
  else do
    let sharesAfterDeductions ← val.delegatorShares.sub val.delegatorDeductions
    let votingPower ← sharesAfterDeductions.mul val.tokenPerShare
    let results ← acc.1.add val.vote votingPower
    return (results, ← acc.2.add votingPower)

/-- Tally result in whole iris. -/
def tallyResult (results : Results) (systemVotingPower : Dec) : Outcome TallyResult := do
  return { yes := ← results.yes.quoInt Stake.attoScaleFactor
           abstain := ← results.abstain.quoInt Stake.attoScaleFactor
           no := ← results.no.quoInt Stake.attoScaleFactor
           noWithVeto := ← results.noWithVeto.quoInt Stake.attoScaleFactor
           systemVotingPower := ← systemVotingPower.quoInt Stake.attoScaleFactor }

/-- Four tests at the end of `tally`. -/
def decideResult (procedure : LevelParams) (results : Results)
    (totalVotingPower systemVotingPower : Dec) : Outcome ProposalResult := do
  let notAbstained ← totalVotingPower.sub results.abstain
  if notAbstained = .zero then return .reject
  let participation ← totalVotingPower.quo systemVotingPower
  if participation < procedure.participation then return .reject
  let veto ← results.noWithVeto.quo totalVotingPower
  if procedure.veto < veto then return .rejectVeto
  let yes ← results.yes.quo totalVotingPower
  if procedure.threshold < yes then return .pass
  return .reject

namespace State
variable (s : State)

def countVote (t : TallyLoop) (vote : Vote) : Outcome TallyLoop :=
  (s.app.delegatorDelegations vote.voter).foldlM (TallyLoop.countDelegation vote)
    (t.recordVote vote)

def tally (proposal : Proposal) : Outcome (ProposalResult × TallyResult × List Address) := do
  let validators ← s.bondedValidatorsByPower
  let (currValidators, systemVotingPower) ← validators.foldlM addValidator (Store.empty, .zero)
  let t ← (s.gov.getVotes proposal.proposalID).foldlM s.countVote
    { results := ⟨.zero, .zero, .zero, .zero⟩
      totalVotingPower := .zero
      currValidators := currValidators
      votingVals := [] }
  let (results, totalVotingPower) ←
    t.currValidators.values.foldlM countValidator (t.results, t.totalVotingPower)
  let tallyResults ← tallyResult results systemVotingPower
  let result ← decideResult (s.gov.params.level proposal.level) results totalVotingPower
    systemVotingPower
  return (result, tallyResults, t.votingVals)

end State
end Irishub.Gov
