import Irishub.Stake.Run

/-!
# Slashing: signatures, evidence and parameters

`slashing/keeper.go`, `signing_info.go`, `slashing_period.go`, `params.go` and
`tick.go`. The stores of the stake keeper come with the signing infos and the
slashing periods; the missed block bit arrays and the parameters are added here.

A bit array is sparse: a bit that was never set counts as not missed. Its key is
the consensus address and the index, an `int64`. A parameter of a proposal is
given as parsed from its text.
-/

namespace Irishub.Slashing
open Lib Stake

/-- `slashing.Params`; durations are nanoseconds. -/
structure Params where
  maxEvidenceAge : ℤ
  signedBlocksWindow : ℤ
  minSignedPerWindow : Dec
  doubleSignJailDuration : ℤ
  downtimeJailDuration : ℤ
  censorshipJailDuration : ℤ
  slashFractionDoubleSign : Dec
  slashFractionDowntime : Dec
  slashFractionCensorship : Dec

/-- Stores read and written by the slashing keeper. -/
structure State where
  chain : Stake.State
  missedBlocks : Store (Address ×ₗ ℤ) Bool
  params : Params

section

def blocksPerMinute : ℤ := 12

def blocksPerDay : ℤ := blocksPerMinute * 60 * 24

def week : ℤ := 7 * 24 * 3600 * 10 ^ 9

def validateMaxEvidenceAge (mainnet : Bool) (p : ℤ) : Outcome Unit :=
  require (if mainnet then 2 * blocksPerDay ≤ p else 2 * blocksPerMinute ≤ p)
    .errInvalidSlashParams

def validateSignedBlocksWindow (p : ℤ) : Outcome Unit :=
  require (100 ≤ p ∧ p ≤ 140000) .errInvalidSlashParams

def validateMinSignedPerWindow (p : Dec) : Outcome Unit :=
  require (Dec.newDecWithPrec 5 1 ≤ p ∧ p ≤ Dec.newDecWithPrec 9 1) .errInvalidSlashParams

def validateJailDuration (limit p : ℤ) : Outcome Unit :=
  require (0 < p ∧ p < limit) .errInvalidSlashParams

def validateDoubleSignJailDuration (p : ℤ) : Outcome Unit := validateJailDuration (2 * week) p

def validateDowntimeJailDuration (p : ℤ) : Outcome Unit := validateJailDuration week p

def validateCensorshipJailDuration (p : ℤ) : Outcome Unit := validateJailDuration (2 * week) p

def validateSlashFraction (p : Dec) : Outcome Unit :=
  require (Dec.zero ≤ p ∧ p ≤ Dec.newDecWithPrec 1 1) .errInvalidSlashParams

/-- Parameter that a proposal changes. -/
inductive ParamChange
  | maxEvidenceAge (p : ℤ)
  | signedBlocksWindow (p : ℤ)
  | minSignedPerWindow (p : Dec)
  | doubleSignJailDuration (p : ℤ)
  | downtimeJailDuration (p : ℤ)
  | censorshipJailDuration (p : ℤ)
  | slashFractionDoubleSign (p : Dec)
  | slashFractionDowntime (p : Dec)
  | slashFractionCensorship (p : Dec)
  deriving DecidableEq

/-- `Params.Validate` on a parsed value. -/
def ParamChange.validate (mainnet : Bool) : ParamChange → Outcome Unit
  | .maxEvidenceAge p => validateMaxEvidenceAge mainnet p
  | .signedBlocksWindow p => validateSignedBlocksWindow p
  | .minSignedPerWindow p => validateMinSignedPerWindow p
  | .doubleSignJailDuration p => validateDoubleSignJailDuration p
  | .downtimeJailDuration p => validateDowntimeJailDuration p
  | .censorshipJailDuration p => validateCensorshipJailDuration p
  | .slashFractionDoubleSign p => validateSlashFraction p
  | .slashFractionDowntime p => validateSlashFraction p
  | .slashFractionCensorship p => validateSlashFraction p

/-- Write to the subspace of the parameters. -/
def ParamChange.apply (params : Params) : ParamChange → Params
  | .maxEvidenceAge p => { params with maxEvidenceAge := p }
  | .signedBlocksWindow p => { params with signedBlocksWindow := p }
  | .minSignedPerWindow p => { params with minSignedPerWindow := p }
  | .doubleSignJailDuration p => { params with doubleSignJailDuration := p }
  | .downtimeJailDuration p => { params with downtimeJailDuration := p }
  | .censorshipJailDuration p => { params with censorshipJailDuration := p }
  | .slashFractionDoubleSign p => { params with slashFractionDoubleSign := p }
  | .slashFractionDowntime p => { params with slashFractionDowntime := p }
  | .slashFractionCensorship p => { params with slashFractionCensorship := p }

def validateParams (mainnet : Bool) (p : Params) : Outcome Unit := do
  validateMaxEvidenceAge mainnet p.maxEvidenceAge
  validateSignedBlocksWindow p.signedBlocksWindow
  validateMinSignedPerWindow p.minSignedPerWindow
  validateDoubleSignJailDuration p.doubleSignJailDuration
  validateDowntimeJailDuration p.downtimeJailDuration
  validateCensorshipJailDuration p.censorshipJailDuration
  validateSlashFraction p.slashFractionDoubleSign
  validateSlashFraction p.slashFractionDowntime
  validateSlashFraction p.slashFractionCensorship

/-- The keeper's `MinSignedPerWindow`: the number of blocks. -/
def Params.minSigned (p : Params) : Outcome ℤ := do
  let product ← (Dec.newDecFromInt p.signedBlocksWindow).mul p.minSignedPerWindow
  product.roundInt64

def State.changeParam (mainnet : Bool) (s : State) (change : ParamChange) : Outcome State := do
  change.validate mainnet
  return { s with params := change.apply s.params }

end

namespace State

section
variable (s : State)

def getValidatorMissedBlockBitArray (address : Address) (index : ℤ) : Bool :=
  (s.missedBlocks.get (toLex (address, index))).getD false

def setValidatorMissedBlockBitArray (address : Address) (index : ℤ) (missed : Bool) : State :=
  { s with missedBlocks := s.missedBlocks.set (toLex (address, index)) missed }

def clearValidatorMissedBlockBitArray (address : Address) : State :=
  let bits := s.missedBlocks.entries.filter (fun e => decide ((ofLex e.1).1 = address))
  { s with missedBlocks := bits.foldl (fun store e => store.delete e.1) s.missedBlocks }

/-- `SetValidatorSigningInfo`, apart from its metrics. -/
def setValidatorSigningInfo (address : Address) (info : ValidatorSigningInfo) : State :=
  { s with chain := s.chain.setValidatorSigningInfo address info }

end

section
variable (env : Env) (s : State)

/-- `int64` arithmetic. -/
def wrapInt64 (i : ℤ) : ℤ := int64OfUint64 (uint64OfInt64 i)

def signatureIndex (info : ValidatorSigningInfo) : ℤ :=
  info.indexOffset.tmod s.params.signedBlocksWindow

/-- Part of `handleValidatorSignature` that updates the bit array and the counter. -/
def recordSignature (address : Address) (info : ValidatorSigningInfo) (signed : Bool) :
    State × ValidatorSigningInfo :=
  let index := s.signatureIndex info
  let info := { info with indexOffset := wrapInt64 (info.indexOffset + 1) }
  match s.getValidatorMissedBlockBitArray address index, signed with
  | false, false =>
    (s.setValidatorMissedBlockBitArray address index true,
      { info with missedBlocksCounter := info.missedBlocksCounter + 1 })
  | true, true =>
    (s.setValidatorMissedBlockBitArray address index false,
      { info with missedBlocksCounter := info.missedBlocksCounter - 1 })
  | _, _ => (s, info)

def maxMissed : Outcome ℤ := do
  return s.params.signedBlocksWindow - (← s.params.minSigned)

/-- Whether the signature just recorded confirms a downtime to punish. -/
def downtimeConfirmed (address : Address) (info : ValidatorSigningInfo) : Outcome Bool := do
  let maxMissed ← s.maxMissed
  let minHeight := info.startHeight + s.params.signedBlocksWindow
  return decide (minHeight < s.chain.height ∧ maxMissed < info.missedBlocksCounter) &&
    (s.chain.getValidatorByConsAddr address).any (fun validator => !validator.jailed)

/-- Punishment of a downtime, with the counter and the array reset. -/
def punishDowntime (address : Address) (power : ℤ) (info : ValidatorSigningInfo) :
    Outcome State := do
  let distributionHeight := s.chain.height - validatorUpdateDelay - 1
  let chain ← s.chain.slash env (appHooks env) address distributionHeight power
    s.params.slashFractionDowntime
  let chain ← chain.jail address
  let info := { info with
    jailedUntil := s.chain.blockTime + s.params.downtimeJailDuration
    missedBlocksCounter := 0
    indexOffset := 0 }
  let s := { s with chain := chain }
  return (s.clearValidatorMissedBlockBitArray address).setValidatorSigningInfo address info

def handleValidatorSignature (address : Address) (power : ℤ) (signed : Bool) : Outcome State := do
  let _ ← deref (s.chain.slashing.addrPubkeys.get address) .consAddressNotFound
  let info ← deref (s.chain.slashing.signingInfos.get address) .signingInfoNotFound
  assert (s.params.signedBlocksWindow ≠ 0) .divisionByZero
  let (s, info) := s.recordSignature address info signed
  if ← s.downtimeConfirmed address info then s.punishDowntime env address power info
  else return s.setValidatorSigningInfo address info

end

section
variable (env : Env) (s : State)

def capBySlashingPeriod (address : Address) (fraction : Dec) (infractionHeight : ℤ) :
    Outcome (State × Dec) := do
  let (key, period) ← s.chain.getValidatorSlashingPeriodForHeight address infractionHeight
  assert (!decide (0 < period.endHeight ∧ period.endHeight < infractionHeight))
    .slashingPeriodEnded
  let totalToSlash := Dec.maxDec period.slashedSoFar fraction
  let revisedFraction ← totalToSlash.sub period.slashedSoFar
  let chain := s.chain.setValidatorSlashingPeriod key { period with slashedSoFar := totalToSlash }
  return ({ s with chain := chain }, revisedFraction)

/-- End of both handlers below: slash, jail and prolong the jail. -/
def punish (validator : Validator) (address : Address) (distributionHeight power : ℤ)
    (fraction : Dec) (duration : ℤ) : Outcome State := do
  let chain ← s.chain.slash env (appHooks env) address distributionHeight power fraction
  let chain ← (if validator.jailed then .ok chain else chain.jail address : Outcome Stake.State)
  let info ← deref (chain.slashing.signingInfos.get address) .signingInfoNotFound
  let s := { s with chain := chain }
  return s.setValidatorSigningInfo address
    { info with jailedUntil := s.chain.blockTime + duration }

def handleDoubleSign (address : Address) (infractionHeight power : ℤ) : Outcome State :=
  match s.chain.getValidatorByConsAddr address with
  | none => .ok s
  | some validator =>
    if validator.status = .unbonded then .ok s
    else do
      let _ ← deref (s.chain.slashing.addrPubkeys.get address) .consAddressNotFound
      if s.params.maxEvidenceAge < s.chain.height - infractionHeight then .ok s
      else do
        let distributionHeight := infractionHeight - validatorUpdateDelay
        let (s, revisedFraction) ← s.capBySlashingPeriod address
          s.params.slashFractionDoubleSign distributionHeight
        s.punish env validator address distributionHeight power revisedFraction
          s.params.doubleSignJailDuration

def handleProposerCensorship (address : Address) (infractionHeight : ℤ) : Outcome State := do
  let _ ← deref (s.chain.slashing.addrPubkeys.get address) .consAddressNotFound
  match s.chain.getValidatorByConsAddr address with
  | none => .ok s
  | some validator =>
    if validator.status = .unbonded then .ok s
    else do
      let power ← validator.getPower.roundInt64
      s.punish env validator address (infractionHeight - validatorUpdateDelay) power
        s.params.slashFractionCensorship s.params.censorshipJailDuration

end

section
variable (env : Env) (s : State)

/-- A vote of the last commit. -/
structure VoteInfo where
  address : Address
  power : ℤ
  signedLastBlock : Bool
  deriving DecidableEq

/-- Evidence of a duplicate vote; other evidence is ignored. -/
structure Evidence where
  address : Address
  height : ℤ
  power : ℤ
  deriving DecidableEq

def beginBlocker (votes : List VoteInfo) (byzantineValidators : List Evidence) :
    Outcome State := do
  let s ← votes.foldlM (fun s vote =>
    s.handleValidatorSignature env vote.address vote.power vote.signedLastBlock) s
  byzantineValidators.foldlM (fun s evidence =>
    s.handleDoubleSign env evidence.address evidence.height evidence.power) s

/-- `EndBlocker`, with the transactions of the block and those of them that are valid. -/
def endBlocker (proposerAddress : Address) (validTxs numTxs : ℕ) : Outcome State :=
  if validTxs < numTxs then s.handleProposerCensorship env proposerAddress s.chain.height
  else .ok s

end
end State
end Irishub.Slashing
