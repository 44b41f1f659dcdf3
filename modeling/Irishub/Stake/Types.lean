import Irishub.Stake.Msg

/-!
# Stake: records

The records of `stake/types` with the functions that change them. The key of a
record is not part of what is stored: the structures `ValidatorValue`,
`DelegationValue`, `UbdValue` and `RedValue` are the stored values, and
`Validator`, `Delegation` and so on carry the addresses of the key as well.

Times are nanoseconds. `Pool` is the pool handle of the source, which passes its
changes of the loose tokens on to the bank.
-/

namespace Irishub.Stake
open Lib

def stakeDenom : String := irisAtto

def attoScaleFactor : ℤ := 10 ^ 18

def validatorUpdateDelay : ℤ := 1

inductive BondStatus
  | unbonded
  | unbonding
  | bonded
  deriving DecidableEq

structure Commission where
  rate : Dec
  maxRate : Dec
  maxChangeRate : Dec
  updateTime : ℤ
  deriving DecidableEq

def Commission.validate (c : Commission) : Outcome Unit := do
  require (Dec.zero ≤ c.maxRate) .errCommissionNegative
  require (c.maxRate ≤ Dec.one) .errCommissionHuge
  require (Dec.zero ≤ c.rate) .errCommissionNegative
  require (c.rate ≤ c.maxRate) .errCommissionGTMaxRate
  require (Dec.zero ≤ c.maxChangeRate) .errCommissionChangeRateNegative
  require (c.maxChangeRate ≤ c.maxRate) .errCommissionChangeRateGTMaxRate

def day : ℤ := 24 * 60 * 60 * 10 ^ 9

def Commission.validateNewRate (c : Commission) (newRate : Dec) (blockTime : ℤ) :
    Outcome Unit := do
  require (day ≤ blockTime - c.updateTime) .errCommissionUpdateTime
  require (Dec.zero ≤ newRate) .errCommissionNegative
  require (newRate ≤ c.maxRate) .errCommissionGTMaxRate
  let change ← newRate.sub c.rate
  require (change.abs ≤ c.maxChangeRate) .errCommissionGTMaxChangeRate

def doNotModifyDesc : String := "[do-not-modify]"

def Description.updateDescription (d d2 : Description) : Outcome Description :=
  let keep (old new : String) : String := if new = doNotModifyDesc then old else new
  Description.ensureLength
    { moniker := keep d.moniker d2.moniker
      identity := keep d.identity d2.identity
      website := keep d.website d2.website
      details := keep d.details d2.details }

section

/-- What is stored of a validator. -/
structure ValidatorValue where
  consPubKey : PubKey
  jailed : Bool
  status : BondStatus
  tokens : Dec
  delegatorShares : Dec
  description : Description
  bondHeight : ℤ
  unbondingHeight : ℤ
  unbondingMinTime : ℤ
  commission : Commission
  deriving DecidableEq

structure Validator extends ValidatorValue where
  operatorAddr : Address
  deriving DecidableEq

def newValidator (operator : Address) (pubKey : PubKey) (description : Description) :
    Validator where
  operatorAddr := operator
  consPubKey := pubKey
  jailed := false
  status := .unbonded
  tokens := .zero
  delegatorShares := .zero
  description := description
  bondHeight := 0
  unbondingHeight := 0
  unbondingMinTime := 0
  commission := ⟨.zero, .zero, .zero, 0⟩

/-- Bonded tokens of the staking pool, and the bank that counts the loose ones. -/
structure Pool where
  bondedTokens : Dec
  bank : Bank

def Pool.loosenTokenToBonded (p : Pool) (bondedTokens : Dec) : Outcome Pool := do
  let round ← bondedTokens.truncateInt
  let change ← bondedTokens.sub (.newDecFromInt round)
  assert change.isZero .tokenNotInteger
  let bonded ← p.bondedTokens.add bondedTokens
  let balance ← Coin.newCoin stakeDenom round
  return ⟨bonded, ← p.bank.decreaseTotalLoosenToken [balance]⟩

def Pool.bondedTokenToLoosen (p : Pool) (bondedTokens : Dec) : Outcome Pool := do
  let round ← bondedTokens.truncateInt
  let change ← bondedTokens.sub (.newDecFromInt round)
  assert change.isZero .tokenNotInteger
  let bonded ← p.bondedTokens.sub bondedTokens
  let balance ← Coin.newCoin stakeDenom round
  return ⟨bonded, ← p.bank.increaseTotalLoosenToken [balance]⟩

namespace Validator

def setInitialCommission (v : Validator) (commission : Commission) : Outcome Validator := do
  commission.validate
  return { v with commission := commission }

def delegatorShareExRate (v : Validator) : Outcome Dec :=
  if v.delegatorShares.isZero then .ok .one else v.tokens.quo v.delegatorShares

def bondedTokens (v : Validator) : Dec := if v.status = .bonded then v.tokens else .zero

def getPower (v : Validator) : Dec := ⟨v.bondedTokens.raw.tdiv attoScaleFactor⟩

def getPotentialPower (v : Validator) : Dec := ⟨v.tokens.raw.tdiv attoScaleFactor⟩

/-- Change of the pool in `Validator.UpdateStatus`. -/
def moveTokens (v : Validator) (pool : Pool) (newStatus : BondStatus) : Outcome Pool :=
  match v.status, newStatus with
  | .unbonded, .bonded => pool.loosenTokenToBonded v.tokens
  | .unbonding, .bonded => pool.loosenTokenToBonded v.tokens
  | .bonded, .unbonded => pool.bondedTokenToLoosen v.tokens
  | .bonded, .unbonding => pool.bondedTokenToLoosen v.tokens
  | _, _ => .ok pool

def updateStatus (v : Validator) (pool : Pool) (newStatus : BondStatus) :
    Outcome (Validator × Pool) := do
  return ({ v with status := newStatus }, ← v.moveTokens pool newStatus)

/-- `loosenTokenToBonded`, of a bonded validator only. -/
def tokensToBonded (v : Validator) (pool : Pool) (tokens : Dec) : Outcome Pool :=
  if v.status = .bonded then pool.loosenTokenToBonded tokens else .ok pool

/-- `bondedTokenToLoosen`, of a bonded validator only. -/
def tokensToLoosen (v : Validator) (pool : Pool) (tokens : Dec) : Outcome Pool :=
  if v.status = .bonded then pool.bondedTokenToLoosen tokens else .ok pool

def removeTokens (v : Validator) (pool : Pool) (tokens : Dec) : Outcome (Validator × Pool) := do
  assert (!tokens.isNegative) .removeNegativeTokens
  assert (tokens ≤ v.tokens) .removeTooManyTokens
  let left ← v.tokens.sub tokens
  let pool ← v.tokensToLoosen pool tokens
  return ({ v with tokens := left }, pool)

def addTokensFromDel (v : Validator) (pool : Pool) (amount : ℤ) :
    Outcome (Validator × Pool × Dec) := do
  let exRate ← v.delegatorShareExRate
  let amountDec := Dec.newDecFromInt amount
  let pool ← v.tokensToBonded pool amountDec
  assert (!exRate.isZero) .zeroExRate
  let tokens ← v.tokens.add amountDec
  let issuedShares ← amountDec.quo exRate
  let delegatorShares ← v.delegatorShares.add issuedShares
  return ({ v with tokens := tokens, delegatorShares := delegatorShares }, pool, issuedShares)

/-- Tokens that `RemoveDelShares` takes out: all of them with the last shares, and never
more than there are. -/
def issuedAmount (v : Validator) (delShares : Dec) : Outcome Dec := do
  let exRate ← v.delegatorShareExRate
  let product ← exRate.mul delShares
  let issued ← product.truncateDec
  return if v.tokens < issued ∨ delShares = v.delegatorShares then v.tokens else issued

def removeDelShares (v : Validator) (pool : Pool) (delShares : Dec) :
    Outcome (Validator × Pool × Dec) := do
  let issuedAmount ← v.issuedAmount delShares
  let tokens ← v.tokens.sub issuedAmount
  let delegatorShares ← v.delegatorShares.sub delShares
  let pool ← v.tokensToLoosen pool issuedAmount
  return ({ v with tokens := tokens, delegatorShares := delegatorShares }, pool, issuedAmount)

end Validator
end

/-- What is stored of a delegation. -/
structure DelegationValue where
  shares : Dec
  height : ℤ
  deriving DecidableEq

structure Delegation extends DelegationValue where
  delegatorAddr : Address
  validatorAddr : Address
  deriving DecidableEq

/-- What is stored of an unbonding delegation; the transaction hash is read by tags only. -/
structure UbdValue where
  creationHeight : ℤ
  minTime : ℤ
  initialBalance : Coin
  balance : Coin
  deriving DecidableEq

structure UnbondingDelegation extends UbdValue where
  delegatorAddr : Address
  validatorAddr : Address
  deriving DecidableEq

/-- What is stored of a redelegation. -/
structure RedValue where
  creationHeight : ℤ
  minTime : ℤ
  initialBalance : Coin
  balance : Coin
  sharesSrc : Dec
  sharesDst : Dec
  deriving DecidableEq

structure Redelegation extends RedValue where
  delegatorAddr : Address
  validatorSrcAddr : Address
  validatorDstAddr : Address
  deriving DecidableEq

structure DVPair where
  delegatorAddr : Address
  validatorAddr : Address
  deriving DecidableEq

structure DVVTriplet where
  delegatorAddr : Address
  validatorSrcAddr : Address
  validatorDstAddr : Address
  deriving DecidableEq

end Irishub.Stake
