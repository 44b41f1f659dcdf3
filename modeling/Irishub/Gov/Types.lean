import Irishub.Asset.Types
import Irishub.Types.Dec

/-!
# Gov: proposals, messages and parameters

The types of `gov/proposals.go`, `proposal_*.go`, `depositsvotes.go` and
`params.go`, the messages of `msgs.go` with `ValidateBasic`, and
`types/protocol.go`.

The kind of a proposal is given by what it contains, and the level by the kind.
The three groups of parameters have the same fields and are three values of one
structure. Times are nanoseconds.
-/

namespace Irishub.Gov
open Lib

/-- `auth.GovDepositCoinsAccAddr`, the truncated SHA-256 hash of its name. -/
def govDepositCoinsAccAddr : Address := 0x0f694ddceee31b284b3e04473fc9912d8688f720

/-- Byte of a proposal type. -/
inductive ProposalKind
  | parameter
  | softwareUpgrade
  | systemHalt
  | communityTaxUsage
  | plainText
  | tokenAddition
  | undefined (byte : ℕ)
  deriving DecidableEq

/-- `ValidProposalType`. -/
def ProposalKind.valid : ProposalKind → Bool
  | .undefined _ => false
  | _ => true

inductive ProposalLevel
  | critical
  | important
  | normal
  deriving DecidableEq

inductive ProposalStatus
  | depositPeriod
  | votingPeriod
  | passed
  | rejected
  deriving DecidableEq

/-- Byte of a usage of the community tax. -/
inductive UsageType
  | burn
  | distribute
  | grant
  | undefined (byte : ℕ)
  deriving DecidableEq

/-- `ValidUsageType`. -/
def UsageType.valid : UsageType → Bool
  | .undefined _ => false
  | _ => true

/-- Byte of a vote. -/
inductive VoteOption
  | empty
  | yes
  | abstain
  | no
  | noWithVeto
  | undefined (byte : ℕ)
  deriving DecidableEq

/-- `ValidVoteOption`. -/
def VoteOption.valid : VoteOption → Bool
  | .yes | .abstain | .no | .noWithVeto => true
  | .empty | .undefined _ => false

structure Param where
  subspace : String
  key : String
  value : String
  deriving DecidableEq

structure ProtocolDefinition where
  version : ℕ
  software : String
  height : ℕ
  threshold : Dec
  deriving DecidableEq

structure UpgradeConfig where
  proposalID : ℕ
  protocol : ProtocolDefinition
  deriving DecidableEq

structure TaxUsage where
  usage : UsageType
  destAddress : Option Address
  percent : Dec
  deriving DecidableEq

/-- What the six kinds of proposals hold besides the `BasicProposal`. -/
inductive ProposalContent
  | plainText
  | parameter (params : List Param)
  | softwareUpgrade (protocolDefinition : ProtocolDefinition)
  | systemHalt
  | communityTaxUsage (taxUsage : TaxUsage)
  | tokenAddition (fToken : Asset.FungibleToken)
  deriving DecidableEq

/-- `GetProposalLevel`, by the table `pTypeMap`. -/
def ProposalContent.level : ProposalContent → ProposalLevel
  | plainText => .normal
  | parameter _ => .important
  | softwareUpgrade _ => .critical
  | systemHalt => .critical
  | communityTaxUsage _ => .important
  | tokenAddition _ => .important

structure TallyResult where
  yes : Dec
  abstain : Dec
  no : Dec
  noWithVeto : Dec
  systemVotingPower : Dec
  deriving DecidableEq

def emptyTallyResult : TallyResult := ⟨.zero, .zero, .zero, .zero, .zero⟩

/-- Zero value of `time.Time`, in nanoseconds since the Unix epoch. -/
def zeroTime : ℤ := -62135596800 * 10 ^ 9

structure Proposal where
  proposalID : ℕ
  title : String
  description : String
  content : ProposalContent
  status : ProposalStatus
  tallyResult : TallyResult
  submitTime : ℤ
  depositEndTime : ℤ
  totalDeposit : Coins
  votingStartTime : ℤ
  votingEndTime : ℤ
  proposer : Address
  deriving DecidableEq

/-- `Proposal.GetProposalLevel`. -/
def Proposal.level (p : Proposal) : ProposalLevel := p.content.level

structure Deposit where
  depositor : Address
  proposalID : ℕ
  amount : Coins
  deriving DecidableEq

structure Vote where
  voter : Address
  proposalID : ℕ
  option : VoteOption
  deriving DecidableEq

section

structure MsgSubmitProposal where
  title : String
  description : String
  proposalType : ProposalKind
  proposer : Address
  initialDeposit : Coins
  params : List Param
  deriving DecidableEq

def MsgSubmitProposal.ensureLength (msg : MsgSubmitProposal) : Outcome Unit := do
  require (byteLen msg.title ≤ 70) .errInvalidLength
  require (byteLen msg.description ≤ 280) .errInvalidLength

def MsgSubmitProposal.validateBasic (msg : MsgSubmitProposal) : Outcome Unit := do
  require (byteLen msg.title ≠ 0) .errInvalidTitle
  require (byteLen msg.description ≠ 0) .errInvalidDescription
  require msg.proposalType.valid .errInvalidProposalType
  require msg.initialDeposit.isValidIrisAtto .errInvalidCoins
  msg.ensureLength
  if msg.proposalType = .parameter then do
    require (msg.params.length ≠ 0) .errEmptyParam
    require (msg.params.length ≤ 1) .errInvalidParamNum
  else return ()

/-- Threshold is `none` for a nil decimal. -/
structure MsgSubmitSoftwareUpgradeProposal extends MsgSubmitProposal where
  version : ℕ
  software : String
  switchHeight : ℕ
  threshold : Option Dec
  deriving DecidableEq

def MsgSubmitSoftwareUpgradeProposal.validateBasic (msg : MsgSubmitSoftwareUpgradeProposal) :
    Outcome Unit := do
  msg.toMsgSubmitProposal.validateBasic
  require (byteLen msg.software ≤ 70) .errInvalidLength
  require (msg.threshold.any (fun t => Dec.newDecWithPrec 80 2 ≤ t && t < Dec.newDecFromInt 1))
    .errInvalidUpgradeThreshold

structure MsgSubmitCommunityTaxUsageProposal extends MsgSubmitProposal where
  usage : UsageType
  destAddress : Option Address
  percent : Option Dec
  deriving DecidableEq

def MsgSubmitCommunityTaxUsageProposal.validateBasic (msg : MsgSubmitCommunityTaxUsageProposal) :
    Outcome Unit := do
  msg.toMsgSubmitProposal.validateBasic
  require msg.usage.valid .errInvalidUsageType
  require (msg.usage = .burn || msg.destAddress.isSome) .errInvalidAddress
  require (msg.percent.any (fun p => Dec.newDecFromInt 0 < p && p ≤ Dec.newDecFromInt 1))
    .errInvalidPercent

structure MsgSubmitTokenAdditionProposal extends MsgSubmitProposal where
  symbol : String
  canonicalSymbol : String
  name : String
  decimal : ℕ
  minUnitAlias : String
  deriving DecidableEq

def MsgSubmitTokenAdditionProposal.validateBasic (msg : MsgSubmitTokenAdditionProposal) :
    Outcome Unit := do
  msg.toMsgSubmitProposal.validateBasic
  let issueToken : Asset.MsgIssueToken :=
    { family := .fungible, source := .external, gateway := "", symbol := msg.symbol
      canonicalSymbol := msg.canonicalSymbol, name := msg.name, decimal := msg.decimal
      minUnitAlias := msg.minUnitAlias, initialSupply := 0
      maxSupply := Asset.maximumAssetMaxSupply, mintable := true, owner := none }
  let _ ← issueToken.validateMsgIssueToken
  return ()

/-- `Content`: the messages that submit a proposal. -/
inductive Content
  | submitProposal (msg : MsgSubmitProposal)
  | softwareUpgrade (msg : MsgSubmitSoftwareUpgradeProposal)
  | communityTaxUsage (msg : MsgSubmitCommunityTaxUsageProposal)
  | tokenAddition (msg : MsgSubmitTokenAdditionProposal)
  deriving DecidableEq

namespace Content

/-- Embedded `MsgSubmitProposal`. -/
def base : Content → MsgSubmitProposal
  | submitProposal msg => msg
  | softwareUpgrade msg => msg.toMsgSubmitProposal
  | communityTaxUsage msg => msg.toMsgSubmitProposal
  | tokenAddition msg => msg.toMsgSubmitProposal

def validateBasic : Content → Outcome Unit
  | submitProposal msg => msg.validateBasic
  | softwareUpgrade msg => msg.validateBasic
  | communityTaxUsage msg => msg.validateBasic
  | tokenAddition msg => msg.validateBasic

/-- The `createProposal` functions: a message of another type than the kind demands fails the type
assertion. `ValidateBasic` has excluded nil decimals. -/
def proposalContent (content : Content) : Outcome ProposalContent :=
  match content.base.proposalType, content with
  | .plainText, _ => .ok .plainText
  | .parameter, _ => .ok (.parameter content.base.params)
  | .systemHalt, _ => .ok .systemHalt
  | .softwareUpgrade, softwareUpgrade msg =>
    .ok (.softwareUpgrade
      ⟨msg.version, msg.software, msg.switchHeight, msg.threshold.getD .zero⟩)
  | .communityTaxUsage, communityTaxUsage msg =>
    .ok (.communityTaxUsage ⟨msg.usage, msg.destAddress, msg.percent.getD .zero⟩)
  | .tokenAddition, tokenAddition msg => do
    let maxSupply ← SdkInt.newIntWithDecimal Asset.maximumAssetMaxSupply msg.decimal
    return .tokenAddition (Asset.newFungibleToken .external "" msg.symbol msg.name msg.decimal
      msg.canonicalSymbol msg.minUnitAlias 0 maxSupply true none)
  | .undefined _, _ => fail .errInvalidProposalType
  | _, _ => raise .interfaceConversion

/-- `NewProposal`; the identifier and the times are filled in later. -/
def newProposal (content : Content) : Outcome Proposal := do
  let proposalContent ← content.proposalContent
  return { proposalID := 0
           title := content.base.title
           description := content.base.description
           content := proposalContent
           status := .depositPeriod
           tallyResult := emptyTallyResult
           submitTime := zeroTime
           depositEndTime := zeroTime
           totalDeposit := []
           votingStartTime := zeroTime
           votingEndTime := zeroTime
           proposer := content.base.proposer }

end Content

/-- Test `ProposalID < 0` of its `ValidateBasic` is never true. -/
structure MsgDeposit where
  proposalID : ℕ
  depositor : Address
  amount : Coins
  deriving DecidableEq

def MsgDeposit.validateBasic (msg : MsgDeposit) : Outcome Unit :=
  require msg.amount.isValidIrisAtto .errInvalidCoins

structure MsgVote where
  proposalID : ℕ
  voter : Address
  option : VoteOption
  deriving DecidableEq

def MsgVote.validateBasic (msg : MsgVote) : Outcome Unit :=
  require msg.option.valid .errInvalidVote

end

section

/-- Parameters of one level. -/
structure LevelParams where
  depositPeriod : ℤ
  minDeposit : Coins
  votingPeriod : ℤ
  maxNum : ℕ
  threshold : Dec
  veto : Dec
  participation : Dec
  penalty : Dec
  deriving DecidableEq

structure GovParams where
  critical : LevelParams
  important : LevelParams
  normal : LevelParams
  systemHaltPeriod : ℤ
  deriving DecidableEq

/-- Choice made by `GetDepositProcedure`, `GetVotingProcedure`, `GetTallyingProcedure` and
`GetMaxNumByProposalLevel`. -/
def GovParams.level (p : GovParams) : ProposalLevel → LevelParams
  | .critical => p.critical
  | .important => p.important
  | .normal => p.normal

def defaultParamSpace : String := "gov"

def second : ℤ := 10 ^ 9

def day : ℤ := 24 * 60 * 60 * second

def irisUnit : ℤ := 10 ^ 18

def validateDepositProcedure (dp : LevelParams) : Outcome Unit := do
  let coin ← deref dp.minDeposit.head? .indexOutOfRange
  require (coin.denom = irisAtto) .codeInvalidMinDepositDenom
  require (10 * irisUnit ≤ coin.amount && coin.amount ≤ 10000 * irisUnit)
    .codeInvalidMinDepositAmount
  require (20 * second ≤ dp.depositPeriod && dp.depositPeriod ≤ 3 * day) .codeInvalidDepositPeriod

def validatorVotingProcedure (vp : LevelParams) : Outcome Unit :=
  require (20 * second ≤ vp.votingPeriod && vp.votingPeriod ≤ 7 * day) .codeInvalidVotingPeriod

def validateTallyingProcedure (tp : LevelParams) : Outcome Unit := do
  require (Dec.zero < tp.threshold && tp.threshold < Dec.newDecFromInt 1) .codeInvalidThreshold
  require (Dec.zero < tp.participation && tp.participation < Dec.newDecFromInt 1)
    .codeInvalidParticipation
  require (Dec.zero < tp.veto && tp.veto < Dec.newDecFromInt 1) .codeInvalidVeto
  require (Dec.zero ≤ tp.penalty && tp.penalty < Dec.newDecFromInt 1) .codeInvalidGovernancePenalty

def validateMaxNum (gp : GovParams) : Outcome Unit := do
  require (gp.critical.maxNum = 1) .codeInvalidMaxProposalNum
  require (1 ≤ gp.important.maxNum) .codeInvalidMaxProposalNum
  require (1 ≤ gp.normal.maxNum) .codeInvalidMaxProposalNum

/-- Checks `validateParams` makes for one level. -/
def validateLevel (p : LevelParams) : Outcome Unit := do
  validateDepositProcedure p
  validatorVotingProcedure p
  validateTallyingProcedure p

def validateParams (p : GovParams) : Outcome Unit := do
  validateLevel p.critical
  validateLevel p.important
  validateLevel p.normal
  validateMaxNum p
  require (0 ≤ p.systemHaltPeriod && p.systemHaltPeriod ≤ 50000) .codeInvalidSystemHaltPeriod

/-- Parameters of one level in `DefaultParams` of the main network: the levels differ in the
deposit, the number of proposals and the threshold. -/
def defaultLevel (deposit : ℤ) (maxNum : ℕ) (threshold : Dec) : LevelParams where
  depositPeriod := day
  minDeposit := [⟨irisAtto, deposit * irisUnit⟩]
  votingPeriod := 5 * day
  maxNum := maxNum
  threshold := threshold
  veto := .newDecWithPrec 33 2
  participation := .newDecWithPrec 50 2
  penalty := .zero

/-- `DefaultParams` of the main network. -/
def defaultParams : GovParams where
  critical := defaultLevel 4000 1 (.newDecWithPrec 75 2)
  important := defaultLevel 2000 5 (.newDecWithPrec 67 2)
  normal := defaultLevel 1000 7 (.newDecWithPrec 50 2)
  systemHaltPeriod := 20000

lemma validateParams_defaultParams : validateParams defaultParams = .ok () := by decide

end
end Irishub.Gov
