import Irishub.Asset.Keeper
import Irishub.Gov.Types
import Irishub.Stake.Run

/-!
# Gov: keeper and handlers

`gov/keeper.go` and `handler.go`, with the `Validate` methods of the proposals.
A write of the keeper is a function on `GovStore`; a function that also reads the
rest of the application is one on `State`.

Reading a proposal number that was never written writes a zero, and the function
for the Normal number writes it to the Important one, as in the source.
-/

namespace Irishub.Gov
open Lib

/-- Store of the gov keeper, with its parameters. The numbers of proposals are `uint64`. -/
structure GovStore where
  params : GovParams
  proposals : Store ℕ Proposal
  nextProposalID : Option ℕ
  deposits : Store (ℕ ×ₗ Address) Deposit
  votes : Store (ℕ ×ₗ Address) Vote
  activeProposalQueue : Store (ℤ ×ₗ ℕ) ℕ
  inactiveProposalQueue : Store (ℤ ×ₗ ℕ) ℕ
  criticalProposal : Option ℕ
  importantProposalNum : Option ℕ
  normalProposalNum : Option ℕ
  validatorSets : Store ℕ (List Address)
  systemHaltHeight : Option ℤ

/-- Stores of the asset keeper. -/
structure AssetStore where
  tokens : Store String Asset.FungibleToken
  tokensIndex : Store String String
  ownerTokens : Store (Address ×ₗ String) String
  gateways : Store String Asset.Gateway
  ownerGateways : Store (Address ×ₗ String) String

/-- Store of the protocol keeper. -/
structure ProtocolStore where
  currentVersion : ℕ
  lastFailedVersion : ℕ
  upgradeConfig : Option UpgradeConfig

/-- Lists of the guardian module. -/
structure GuardianStore where
  profilers : List Address
  trustees : List Address

structure State where
  app : Stake.State
  assets : AssetStore
  protocol : ProtocolStore
  guardian : GuardianStore
  gov : GovStore

/-- Parameters of other modules that are part of the state. -/
structure AppParams where
  stake : Stake.Params
  communityTax : Dec
  baseProposerReward : Dec
  bonusProposerReward : Dec

/-- Parameter set of another module: the error of `Validate`, if any, and the write of a value
that was accepted. -/
structure ParamSet where
  validate : (key value : String) → Option SdkError
  write : (key value : String) → AppParams → AppParams

/-- What the keeper takes from elsewhere: the addresses of consensus keys, and the parameter sets
registered for the other modules. -/
structure Env extends Stake.Env where
  paramSet : String → Option ParamSet

def ProtocolStore.isValidVersion (p : ProtocolStore) (version : ℕ) : Bool :=
  if p.lastFailedVersion ≤ p.currentVersion then (p.currentVersion + 1) % 2 ^ 64 = version
  else p.lastFailedVersion = version || (p.lastFailedVersion + 1) % 2 ^ 64 = version

/-- Tags of the results. The first and the last group of an end block are pairs of an action
and a proposal identifier; for a dropped proposal the text of the identifier is the character
with that number. -/
inductive Tag
  | proposer (addr : Address)
  | proposalID (id : ℕ)
  | votingPeriodStart (id : ℕ)
  | param (params : List Param)
  | destAddress (addr : Option Address)
  | tokenId (id : String)
  | depositor (addr : Address)
  | voter (addr : Address)
  | halt
  | proposalDropped (id : ℕ)
  | proposalPassed (id : ℕ)
  | proposalRejected (id : ℕ)
  deriving DecidableEq

namespace GovStore
variable (g : GovStore)

def getProposal (proposalID : ℕ) : Option Proposal := g.proposals.get proposalID

def setProposal (proposal : Proposal) : GovStore :=
  { g with proposals := g.proposals.set proposal.proposalID proposal }

def insertActiveProposalQueue (endTime : ℤ) (proposalID : ℕ) : GovStore :=
  { g with
    activeProposalQueue := g.activeProposalQueue.set (toLex (endTime, proposalID)) proposalID }

def removeFromActiveProposalQueue (endTime : ℤ) (proposalID : ℕ) : GovStore :=
  { g with activeProposalQueue := g.activeProposalQueue.delete (toLex (endTime, proposalID)) }

def insertInactiveProposalQueue (endTime : ℤ) (proposalID : ℕ) : GovStore :=
  { g with
    inactiveProposalQueue := g.inactiveProposalQueue.set (toLex (endTime, proposalID)) proposalID }

def removeFromInactiveProposalQueue (endTime : ℤ) (proposalID : ℕ) : GovStore :=
  { g with inactiveProposalQueue := g.inactiveProposalQueue.delete (toLex (endTime, proposalID)) }

/-- `ActiveProposalQueueIterator`: the identifiers up to a time. -/
def activeProposalQueueIterator (endTime : ℤ) : List ℕ :=
  (g.activeProposalQueue.entries.filter (fun e => (ofLex e.1).1 ≤ endTime)).map Prod.snd

def inactiveProposalQueueIterator (endTime : ℤ) : List ℕ :=
  (g.inactiveProposalQueue.entries.filter (fun e => (ofLex e.1).1 ≤ endTime)).map Prod.snd

def deleteProposal (proposalID : ℕ) : Outcome GovStore := do
  let proposal ← deref (g.getProposal proposalID) .nilPointer
  let g := g.removeFromInactiveProposalQueue proposal.depositEndTime proposalID
  let g := g.removeFromActiveProposalQueue proposal.votingEndTime proposalID
  return { g with proposals := g.proposals.delete proposalID }

/-- `getNewProposalID`. The counter is a `uint64` in the code and would wrap after `2 ^ 64`
proposals; it does not wrap here. -/
def getNewProposalID : Outcome (ℕ × GovStore) := do
  let proposalID ← found g.nextProposalID .errInvalidGenesis
  return (proposalID, { g with nextProposalID := some (proposalID + 1) })

def getValidatorSet (proposalID : ℕ) : List Address := (g.validatorSets.get proposalID).getD []

def deleteValidatorSet (proposalID : ℕ) : GovStore :=
  { g with validatorSets := g.validatorSets.delete proposalID }

def getSystemHaltHeight : ℤ := g.systemHaltHeight.getD (-1)

def getCriticalProposalNum : ℕ := if g.criticalProposal.isSome then 1 else 0

def setImportantProposalNum (num : ℕ) : GovStore := { g with importantProposalNum := some num }

def getImportantProposalNum : ℕ × GovStore :=
  match g.importantProposalNum with
  | none => (0, g.setImportantProposalNum 0)
  | some num => (num, g)

def setNormalProposalNum (num : ℕ) : GovStore := { g with normalProposalNum := some num }

/-- `GetNormalProposalNum`, which initialises the number of Important proposals. -/
def getNormalProposalNum : ℕ × GovStore :=
  match g.normalProposalNum with
  | none => (0, g.setImportantProposalNum 0)
  | some num => (num, g)

/-- `num + 1` on a `uint64`. -/
def increment (num : ℕ) : ℕ := (num + 1) % 2 ^ 64

/-- `num - 1` on a `uint64`. -/
def decrement (num : ℕ) : ℕ := (num + (2 ^ 64 - 1)) % 2 ^ 64

def addProposalNum (level : ProposalLevel) (proposalID : ℕ) : GovStore :=
  match level with
  | .critical => { g with criticalProposal := some proposalID }
  | .important =>
    let (num, g) := g.getImportantProposalNum
    g.setImportantProposalNum (increment num)
  | .normal =>
    let (num, g) := g.getNormalProposalNum
    g.setNormalProposalNum (increment num)

def subProposalNum (level : ProposalLevel) : GovStore :=
  match level with
  | .critical => { g with criticalProposal := none }
  | .important =>
    let (num, g) := g.getImportantProposalNum
    g.setImportantProposalNum (decrement num)
  | .normal =>
    let (num, g) := g.getNormalProposalNum
    g.setNormalProposalNum (decrement num)

/-- Number of a level, as the last lines of `HasReachedTheMaxProposalNum` read it. -/
def getProposalNum (level : ProposalLevel) : ℕ × GovStore :=
  match level with
  | .critical => (g.getCriticalProposalNum, g)
  | .important => g.getImportantProposalNum
  | .normal => g.getNormalProposalNum

/-- `HasReachedTheMaxProposalNum`: the debug message reads the numbers of all levels, and the number
of the level is read twice more. -/
def hasReachedTheMaxProposalNum (level : ProposalLevel) : ℕ × Bool × GovStore :=
  let (_, g) := g.getImportantProposalNum
  let (_, g) := g.getNormalProposalNum
  let maxNum := (g.params.level level).maxNum
  let (num, g) := g.getProposalNum level
  let (num', g) := g.getProposalNum level
  (num, num' = maxNum, g)

def getDeposit (proposalID : ℕ) (depositorAddr : Address) : Option Deposit :=
  g.deposits.get (toLex (proposalID, depositorAddr))

def setDeposit (proposalID : ℕ) (depositorAddr : Address) (deposit : Deposit) : GovStore :=
  { g with deposits := g.deposits.set (toLex (proposalID, depositorAddr)) deposit }

/-- `GetDeposits`: the records of a proposal with their keys. -/
def getDeposits (proposalID : ℕ) : List ((ℕ ×ₗ Address) × Deposit) :=
  g.deposits.entries.filter (fun e => (ofLex e.1).1 = proposalID)

def getVote (proposalID : ℕ) (voterAddr : Address) : Option Vote :=
  g.votes.get (toLex (proposalID, voterAddr))

def setVote (proposalID : ℕ) (voterAddr : Address) (vote : Vote) : GovStore :=
  { g with votes := g.votes.set (toLex (proposalID, voterAddr)) vote }

def getVotes (proposalID : ℕ) : List Vote :=
  (g.votes.entries.filter (fun e => (ofLex e.1).1 = proposalID)).map Prod.snd

def minDepositRate : Dec := .newDecWithPrec 3 1

def getMinInitialDeposit (level : ProposalLevel) : Outcome Coins := do
  let minDeposit := (g.params.level level).minDeposit
  let minDepositDec ← (Dec.newDecFromInt (minDeposit.amountOf Stake.stakeDenom)).mul minDepositRate
  return [← Coin.newCoin Stake.stakeDenom (← minDepositDec.roundInt)]

/-- Last write of `AddDeposit`: a new record, or an addition to the record of the depositor. -/
def addToDeposit (proposalID : ℕ) (depositorAddr : Address) (depositAmount : Coins) :
    Outcome GovStore :=
  match g.getDeposit proposalID depositorAddr with
  | none => .ok (g.setDeposit proposalID depositorAddr ⟨depositorAddr, proposalID, depositAmount⟩)
  | some currDeposit => do
    let amount ← currDeposit.amount.add depositAmount
    return g.setDeposit proposalID depositorAddr { currDeposit with amount := amount }

end GovStore

namespace State
variable (s : State)

def withGov (g : GovStore) : State := { s with gov := g }

def withBank (bank : Bank) : State := { s with app := { s.app with bank := bank } }

def asset : Asset.State where
  bank := s.app.bank
  tokens := s.assets.tokens
  tokensIndex := s.assets.tokensIndex
  ownerTokens := s.assets.ownerTokens
  gateways := s.assets.gateways
  ownerGateways := s.assets.ownerGateways

def withAsset (asset : Asset.State) : State :=
  { s.withBank asset.bank with
    assets := ⟨asset.tokens, asset.tokensIndex, asset.ownerTokens, asset.gateways,
      asset.ownerGateways⟩ }

/-- Loop of `IterateBondedValidatorsByPower`: at most `maxValidators` bonded validators, in the
order of the power index. -/
def bondedValidators : ℕ → List Address → Outcome (List Stake.Validator)
  | 0, _ => .ok []
  | _, [] => .ok []
  | maxValidators + 1, address :: addresses => do
    let validator ← s.app.mustGetValidator address
    if validator.status = .bonded then
      return validator :: (← bondedValidators maxValidators addresses)
    else bondedValidators (maxValidators + 1) addresses

/-- Validators visited by `IterateBondedValidatorsByPower`. -/
def bondedValidatorsByPower : Outcome (List Stake.Validator) :=
  s.bondedValidators s.app.stake.params.maxValidators
    s.app.stake.validatorsByPowerIndex.values.reverse

def setValidatorSet (proposalID : ℕ) : Outcome State := do
  let validators ← s.bondedValidatorsByPower
  return s.withGov { s.gov with
    validatorSets := s.gov.validatorSets.set proposalID (validators.map (·.operatorAddr)) }

def activateVotingPeriod (proposal : Proposal) : Outcome State :=
  let votingPeriod := (s.gov.params.level proposal.level).votingPeriod
  let proposal := { proposal with
    votingStartTime := s.app.blockTime
    votingEndTime := s.app.blockTime + votingPeriod
    status := .votingPeriod }
  let g := s.gov.setProposal proposal
  let g := g.removeFromInactiveProposalQueue proposal.depositEndTime proposal.proposalID
  let g := g.insertActiveProposalQueue proposal.votingEndTime proposal.proposalID
  (s.withGov g).setValidatorSet proposal.proposalID

def addVote (proposalID : ℕ) (voterAddr : Address) (option : VoteOption) : Outcome State := do
  let proposal ← found (s.gov.getProposal proposalID) .errUnknownProposal
  require (proposal.status = .votingPeriod) .errInactiveProposal
  require ((s.app.getValidator voterAddr).isSome || s.app.delegatorDelegations voterAddr ≠ [])
    .errOnlyValidatorOrDelegatorVote
  require (s.gov.getVote proposalID voterAddr).isNone .errAlreadyVote
  require option.valid .errInvalidVote
  return s.withGov (s.gov.setVote proposalID voterAddr ⟨voterAddr, proposalID, option⟩)

/-- Whether the total deposit has reached the minimum, and the state in which the voting period has
begun in that case. -/
def activateIfFunded (proposal : Proposal) : Outcome (State × Bool) :=
  if proposal.totalDeposit.isAllGTE (s.gov.params.level proposal.level).minDeposit then do
    return (← s.activateVotingPeriod proposal, true)
  else .ok (s, false)

/-- `AddDeposit`. The coins of a message are one iris-atto coin, which no addition overwrites. -/
def addDeposit (proposalID : ℕ) (depositorAddr : Address) (depositAmount : Coins) :
    Outcome (State × Bool) := do
  let proposal ← found (s.gov.getProposal proposalID) .errUnknownProposal
  require (proposal.status = .depositPeriod) .errNotInDepositPeriod
  let bank ← s.app.bank.sendCoins depositorAddr govDepositCoinsAccAddr depositAmount
  let totalDeposit ← proposal.totalDeposit.add depositAmount
  let proposal := { proposal with totalDeposit := totalDeposit }
  let s := (s.withBank bank).withGov (s.gov.setProposal proposal)
  let (s, activatedVotingPeriod) ← s.activateIfFunded proposal
  let g ← s.gov.addToDeposit proposalID depositorAddr depositAmount
  return (s.withGov g, activatedVotingPeriod)

def burnRate : Dec := .newDecWithPrec 2 1

/-- Amount returned for a deposit of `amount`. -/
def refundAmount (rate : Dec) (amount : ℤ) : Outcome ℤ := do
  let amountDec := Dec.newDecFromInt amount
  let refundDec ← amountDec.sub (← amountDec.mul rate)
  refundDec.roundInt

/-- One iteration of the second loop of `RefundDeposits`, with the sum of the refunds so far. -/
def refundDeposit (rate : Dec) (acc : Bank × ℤ) (deposit : Deposit) : Outcome (Bank × ℤ) := do
  let refundAmountInt ← refundAmount rate (deposit.amount.amountOf Stake.stakeDenom)
  let refundSumInt ← SdkInt.add acc.2 refundAmountInt
  let coin ← Coin.newCoin Stake.stakeDenom refundAmountInt
  let bank ← panicOnError (acc.1.sendCoins govDepositCoinsAccAddr deposit.depositor [coin])
  return (bank, refundSumInt)

def removeDeposits (deposits : List ((ℕ ×ₗ Address) × Deposit)) : State :=
  s.withGov { s.gov with
    deposits := deposits.foldl (fun store e => store.delete e.1) s.gov.deposits }

def refundDeposits (proposalID : ℕ) : Outcome State := do
  let deposits := s.gov.getDeposits proposalID
  let depositSum ← deposits.foldlM (fun (sum : Coins) e => sum.add e.2.amount) []
  let s := s.removeDeposits deposits
  let proposal ← deref (s.gov.getProposal proposalID) .nilPointer
  let minDeposit := (s.gov.params.level proposal.level).minDeposit
  let burnAmountDec ← (Dec.newDecFromInt (minDeposit.amountOf Stake.stakeDenom)).mul burnRate
  let depositSumInt := depositSum.amountOf Stake.stakeDenom
  let rate ← burnAmountDec.quo (.newDecFromInt depositSumInt)
  let (bank, refundSumInt) ← (deposits.map Prod.snd).foldlM (refundDeposit rate) (s.app.bank, 0)
  let burnCoin ← Coin.newCoin Stake.stakeDenom (← SdkInt.sub depositSumInt refundSumInt)
  let bank ← panicOnError (bank.burnCoins govDepositCoinsAccAddr [burnCoin])
  return s.withBank bank

def deleteDeposits (proposalID : ℕ) : Outcome State :=
  (s.gov.getDeposits proposalID).foldlM (fun s e => do
    let bank ← panicOnError (s.app.bank.burnCoins govDepositCoinsAccAddr e.2.amount)
    return (s.withBank bank).withGov { s.gov with deposits := s.gov.deposits.delete e.1 }) s

section
variable (env : Env)

/-- `Validate` of a parameter. The parameter set of the gov module accepts everything. -/
def validateParam (param : Param) : Outcome Unit :=
  if param.subspace = defaultParamSpace then .ok ()
  else
    match env.paramSet param.subspace with
    | none => fail .errInvalidParam
    | some paramSet => (paramSet.validate param.key param.value).elim (.ok ()) fail

/-- What the `Validate` methods check after `BasicProposal.Validate`. -/
def validateContent (proposal : Proposal) : Outcome Unit :=
  match proposal.content with
  | .plainText => .ok ()
  | .parameter params => do
    let param ← deref params.head? .indexOutOfRange
    validateParam env param
  | .softwareUpgrade protocolDefinition => do
    require (s.protocol.isValidVersion protocolDefinition.version) .errCodeInvalidVersion
    require (Stake.uint64OfInt64 s.app.height ≤ protocolDefinition.height)
      .errCodeInvalidSwitchHeight
    require (proposal.proposer ∈ s.guardian.profilers) .errNotProfiler
    require s.protocol.upgradeConfig.isNone .errSwitchPeriodInProcess
  | .systemHalt => require (proposal.proposer ∈ s.guardian.profilers) .errNotProfiler
  | .communityTaxUsage taxUsage =>
    require (taxUsage.usage = .burn || taxUsage.destAddress.any (· ∈ s.guardian.trustees))
      .errNotTrustee
  | .tokenAddition fToken => require (!s.asset.hasToken fToken.getUniqueID) .errAssetAlreadyExists

/-- `Validate` with `verify` set: the number of proposals is checked first. -/
def verifyProposal (proposal : Proposal) : Outcome State := do
  let (_, reached, g) := s.gov.hasReachedTheMaxProposalNum proposal.level
  require (!reached) .errMoreThanMaxProposal
  let s := s.withGov g
  s.validateContent env proposal
  return s

/-- Tags of `SubmitProposal` that depend on the kind. -/
def kindTags (content : Content) (proposal : Proposal) : List Tag :=
  match proposal.content with
  | .parameter _ => [.param content.base.params]
  | .communityTaxUsage taxUsage => [.destAddress taxUsage.destAddress]
  | .tokenAddition fToken => [.tokenId fToken.getUniqueID]
  | _ => []

def votingTags (votingStarted : Bool) (proposalID : ℕ) : List Tag :=
  if votingStarted then [.votingPeriodStart proposalID] else []

/-- Writes of `SubmitProposal` before the first deposit. -/
def openProposal (proposal : Proposal) : Outcome (State × Proposal) := do
  let (proposalID, g) ← s.gov.getNewProposalID
  let proposal := { proposal with
    proposalID := proposalID
    submitTime := s.app.blockTime
    depositEndTime := s.app.blockTime + (g.params.level proposal.level).depositPeriod }
  let g := g.setProposal proposal
  return (s.withGov (g.insertInactiveProposalQueue proposal.depositEndTime proposalID), proposal)

def submitProposal (content : Content) : Outcome (State × List Tag) := do
  let proposal ← content.newProposal
  let initialDeposit := content.base.initialDeposit
  let minInitialDeposit ← s.gov.getMinInitialDeposit proposal.level
  require (initialDeposit.isAllGTE minInitialDeposit) .errNotEnoughInitialDeposit
  let s ← s.verifyProposal env proposal
  let (s, proposal) ← s.openProposal proposal
  let (s, votingStarted) ← s.addDeposit proposal.proposalID proposal.proposer initialDeposit
  let s := s.withGov (s.gov.addProposalNum proposal.level proposal.proposalID)
  return (s, [.proposer proposal.proposer, .proposalID proposal.proposalID] ++
    votingTags votingStarted proposal.proposalID ++ kindTags content proposal)

end

def handleMsgDeposit (msg : MsgDeposit) : Outcome (State × List Tag) := do
  let (s, votingStarted) ← s.addDeposit msg.proposalID msg.depositor msg.amount
  return (s, [.depositor msg.depositor, .proposalID msg.proposalID] ++
    votingTags votingStarted msg.proposalID)

def handleMsgVote (msg : MsgVote) : Outcome (State × List Tag) := do
  let s ← s.addVote msg.proposalID msg.voter msg.option
  return (s, [.voter msg.voter, .proposalID msg.proposalID])

end State
end Irishub.Gov
