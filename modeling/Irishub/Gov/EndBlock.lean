import Irishub.Gov.Tally

/-!
# Gov: execution of proposals, end blocker and runs

The `Execute` methods of the proposals, `gov/abci.go` and `gov/genesis.go`. The
iterators over the two queues do not see the writes of their loops.

A run interleaves the messages and end blocks of the module with steps of the
rest of the application, which may do anything to the other stores.
-/

namespace Irishub.Gov
open Lib

namespace State
variable (env : Env) (s : State)

def appParams : AppParams where
  stake := s.app.stake.params
  communityTax := s.app.distr.communityTax
  baseProposerReward := s.app.distr.baseProposerReward
  bonusProposerReward := s.app.distr.bonusProposerReward

/-- State with other parameters of the other modules. -/
def withAppParams (params : AppParams) : State :=
  { s with app := { s.app with
      stake := { s.app.stake with params := params.stake }
      distr := { s.app.distr with
        communityTax := params.communityTax
        baseProposerReward := params.baseProposerReward
        bonusProposerReward := params.bonusProposerReward } } }

/-- `ParameterProposal.Execute`. A value that was not accepted is nil, and so is every value of the
gov module: the write of a nil value panics. -/
def executeParameter (params : List Param) : Outcome State :=
  match params with
  | [param] =>
    if param.subspace = defaultParamSpace then raise .nilPointer
    else do
      let paramSet ← deref (env.paramSet param.subspace) .nilPointer
      assert (paramSet.validate param.key param.value).isNone .nilPointer
      return s.withAppParams (paramSet.write param.key param.value s.appParams)
  | _ => .ok s

/-- `SoftwareUpgradeProposal.Execute`. -/
def executeSoftwareUpgrade (proposalID : ℕ) (protocolDefinition : ProtocolDefinition) : State :=
  if s.protocol.upgradeConfig.isSome then s
  else if s.protocol.isValidVersion protocolDefinition.version = false then s
  else if protocolDefinition.height ≤ (Stake.uint64OfInt64 s.app.height + 1) % 2 ^ 64 then s
  else { s with protocol := { s.protocol with
    upgradeConfig := some ⟨proposalID, protocolDefinition⟩ } }

/-- `SystemHaltProposal.Execute` after its `Validate`. -/
def executeSystemHalt : State :=
  if s.gov.getSystemHaltHeight = -1 then
    s.withGov { s.gov with
      systemHaltHeight := some (s.gov.params.systemHaltPeriod + s.app.height) }
  else s

/-- `CommunityTaxUsageProposal.Execute` after its `Validate`. -/
def executeTaxUsage (taxUsage : TaxUsage) : Outcome State := do
  let app ← s.app.allocateFeeTax taxUsage.destAddress taxUsage.percent (taxUsage.usage = .burn)
  return { s with app := app }

def execute (proposal : Proposal) : Outcome State :=
  match proposal.content with
  | .plainText => do
    s.validateContent env proposal
    return s
  | .parameter params => s.executeParameter env params
  | .softwareUpgrade protocolDefinition =>
    .ok (s.executeSoftwareUpgrade proposal.proposalID protocolDefinition)
  | .systemHalt => do
    s.validateContent env proposal
    return s.executeSystemHalt
  | .communityTaxUsage taxUsage => do
    s.validateContent env proposal
    s.executeTaxUsage taxUsage
  | .tokenAddition fToken => do
    return s.withAsset (← s.asset.issueToken fToken)

/-- Call of `Execute`, whose error is ignored; no method writes before it returns one. -/
def executeIgnoringError (proposal : Proposal) : Outcome State :=
  match s.execute env proposal with
  | .error (.error _) => .ok s
  | r => r

/-- Body of the loop over the inactive proposals. -/
def dropProposal (proposalID : ℕ) : Outcome State := do
  let inactiveProposal ← deref (s.gov.getProposal proposalID) .nilPointer
  let s := s.withGov (s.gov.subProposalNum inactiveProposal.level)
  let s ← s.deleteDeposits proposalID
  let g ← s.gov.deleteProposal proposalID
  return s.withGov (g.removeFromInactiveProposalQueue inactiveProposal.depositEndTime
    inactiveProposal.proposalID)

/-- What follows from the result of the tally: the deposits are settled, and a proposal that has
passed is executed. -/
def settle (proposal : Proposal) : ProposalResult → Outcome (State × ProposalStatus)
  | .pass => do
    let s ← s.refundDeposits proposal.proposalID
    return (← s.executeIgnoringError env { proposal with status := .passed }, .passed)
  | .reject => do return (← s.refundDeposits proposal.proposalID, .rejected)
  | .rejectVeto => do return (← s.deleteDeposits proposal.proposalID, .rejected)

/-- Punishment of one validator of the stored set. -/
def slashNonVoter (votingVals : List Address) (penalty : Dec) (s : State) (valAddr : Address) :
    Outcome State :=
  if valAddr ∈ votingVals then .ok s
  else
    match s.app.getValidator valAddr with
    | none => .ok s
    | some val =>
      if val.status = .bonded then do
        let power ← val.getPower.roundInt64
        let app ← s.app.slash env.toEnv (Stake.appHooks env.toEnv)
          (env.consAddress val.consPubKey) s.app.height power penalty
        return { s with app := app }
      else .ok s

def tallyTag (status : ProposalStatus) (proposalID : ℕ) : Tag :=
  if status = .passed then .proposalPassed proposalID else .proposalRejected proposalID

/-- Body of the loop over the active proposals. -/
def finishProposal (proposalID : ℕ) : Outcome (State × Tag) := do
  let activeProposal ← deref (s.gov.getProposal proposalID) .nilPointer
  let (result, tallyResults, votingVals) ← s.tally activeProposal
  let (s, status) ← s.settle env activeProposal result
  let g := s.gov.removeFromActiveProposalQueue activeProposal.votingEndTime
    activeProposal.proposalID
  let s := s.withGov
    (g.setProposal { activeProposal with status := status, tallyResult := tallyResults })
  let penalty := (s.gov.params.level activeProposal.level).penalty
  let s ← (s.gov.getValidatorSet proposalID).foldlM (slashNonVoter env votingVals penalty) s
  let g := s.gov.subProposalNum activeProposal.level
  return (s.withGov (g.deleteValidatorSet activeProposal.proposalID), tallyTag status proposalID)

def dropProposals (proposalIDs : List ℕ) : Outcome State :=
  proposalIDs.foldlM (fun s proposalID => s.dropProposal proposalID) s

def finishProposals (proposalIDs : List ℕ) (tags : List Tag) : Outcome (State × List Tag) :=
  proposalIDs.foldlM (fun acc proposalID => do
    let (s, tag) ← acc.1.finishProposal env proposalID
    return (s, acc.2 ++ [tag])) (s, tags)

def endBlocker : Outcome (State × List Tag) := do
  let haltTags := if s.app.height = s.gov.getSystemHaltHeight then [Tag.halt] else []
  let inactive := s.gov.inactiveProposalQueueIterator s.app.blockTime
  let s ← s.dropProposals inactive
  s.finishProposals env (s.gov.activeProposalQueueIterator s.app.blockTime)
    (haltTags ++ inactive.map .proposalDropped)

end State

/-- A step of a chain. An outside step is whatever the other modules do: it leaves new stores of
theirs, and the height and the time of the block in progress. -/
inductive Op
  | submit (content : Content)
  | deposit (msg : MsgDeposit)
  | vote (msg : MsgVote)
  | endBlock
  | outside (app : Stake.State) (assets : AssetStore) (protocol : ProtocolStore)
      (guardian : GuardianStore)

/-- State after an operation, and its tags. -/
def Op.run (env : Env) (s : State) : Op → Outcome (State × List Tag)
  | submit content => do
    content.validateBasic
    s.submitProposal env content
  | deposit msg => do
    msg.validateBasic
    s.handleMsgDeposit msg
  | vote msg => do
    msg.validateBasic
    s.handleMsgVote msg
  | endBlock => s.endBlocker env
  | outside app assets protocol guardian =>
    .ok ({ s with app := app, assets := assets, protocol := protocol, guardian := guardian }, [])

/-- State after a list of operations and all their tags; an operation that fails leaves no
trace and is not listed. -/
def run (env : Env) (s : State) (ops : List Op) : Outcome (State × List Tag) :=
  ops.foldlM (fun acc op => do
    let (s, tags) ← op.run env acc.1
    return (s, acc.2 ++ tags)) (s, [])

/-- State after `InitGenesis`; the maximal numbers are `uint64`. -/
structure State.Genesis (s : State) : Prop where
  validParams : validateParams s.gov.params = .ok ()
  maxNum : ∀ level, (s.gov.params.level level).maxNum < 2 ^ 64
  proposals : s.gov.proposals = Store.empty
  nextProposalID : s.gov.nextProposalID = some 1
  deposits : s.gov.deposits = Store.empty
  votes : s.gov.votes = Store.empty
  activeProposalQueue : s.gov.activeProposalQueue = Store.empty
  inactiveProposalQueue : s.gov.inactiveProposalQueue = Store.empty
  criticalProposal : s.gov.criticalProposal = none
  importantProposalNum : s.gov.importantProposalNum = none
  normalProposalNum : s.gov.normalProposalNum = none
  validatorSets : s.gov.validatorSets = Store.empty
  systemHaltHeight : s.gov.systemHaltHeight = some (-1)

/-- A proposal at which an iteration of the end blocker begins, by the loop it is in. -/
inductive Iteration
  | drop (proposalID : ℕ)
  | finish (proposalID : ℕ)
  deriving DecidableEq

/-- `Iterates env s i t`: the end blocker called in `s` begins the iteration `i` in the
state `t`. -/
inductive Iterates (env : Env) (s : State) : Iteration → State → Prop
  | drop {before after : List ℕ} {proposalID : ℕ} {t : State}
      (hdue : s.gov.inactiveProposalQueueIterator s.app.blockTime = before ++ proposalID :: after)
      (hbefore : s.dropProposals before = .ok t) : Iterates env s (.drop proposalID) t
  | finish {s₁ t : State} {before after : List ℕ} {proposalID : ℕ} {tags : List Tag}
      (hdrop : s.dropProposals (s.gov.inactiveProposalQueueIterator s.app.blockTime) = .ok s₁)
      (hdue : s₁.gov.activeProposalQueueIterator s₁.app.blockTime = before ++ proposalID :: after)
      (hbefore : s₁.finishProposals env before [] = .ok (t, tags)) :
      Iterates env s (.finish proposalID) t

end Irishub.Gov
