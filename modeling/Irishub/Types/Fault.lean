import Irishub.Lib.Outcome

/-!
# Ways in which a keeper function does not return

A Go keeper function leaves early either by returning an `sdk.Error` or by
panicking. Both discard the writes of the running transaction, so the model
keeps no state with them; in a begin or end blocker a panic stops the node.
The constructors carry the name of the source's error constructor, or of the
message given to `panic`.
-/

namespace Irishub

/-- Panics of the modelled functions. -/
inductive Panic
  -- types/int.go, types/decimal.go
  | intOverflow
  | intOutOfBound
  | int64OutOfBound
  | divisionByZero
  -- types/coin.go
  | negativeCoinAmount
  | invalidCoinDenominations
  | invalidCoinSet
  -- bank/keeper.go, auth/keeper.go
  | invalidCoins
  | totalLooseTokenNegative
  | totalSupplyNegative
  -- coinswap/internal/keeper/keeper.go
  | invalidTokenPair
  -- asset/internal/keeper/fees.go
  | emptyFeeName
  -- types/gas.go
  | errorOutOfGas
  | errorGasOverflow
  -- `panic(err)` for an error returned by a keeper
  | returnedError
  -- service/keeper.go
  | slashExceedsDeposit
  -- stake/types/pool.go, stake/types/validator.go
  | tokenNotInteger
  | removeNegativeTokens
  | removeTooManyTokens
  | zeroExRate
  -- stake/keeper
  | validatorRecordNotFound
  | removeBondedValidator
  | badStateTransition
  | alreadyJailed
  | alreadyUnjailed
  | jailedInPowerStore
  | unexpectedInValidatorQueue
  | moreThanMaxValidators
  | negativeSlashFactor
  | slashUnbondedValidator
  | slashFutureInfraction
  | slashDecimalToken
  -- distribution
  | coinDenomDifferent
  | reverseUpdate
  | accumGreaterThanTotal
  | validatorDistInfoNil
  | delegationDistInfoNil
  | unwithdrawnDelegatorAccum
  | unwithdrawnValidatorCommission
  | lastPowerNotZero
  | withdrawalHeightNotUpdated
  -- slashing
  | noSlashingPeriod
  | slashingPeriodEnded
  | consAddressNotFound
  | signingInfoNotFound
  -- a type assertion of gov/proposal_util.go
  | interfaceConversion
  -- app/v2/genesis.go
  | accountWithoutToken
  -- htlc/genesis.go
  | initHTLCGenesis
  | exportHTLCGenesis
  -- the stores and iterators of store
  | keyIsNil
  | valueIsNil
  | memIteratorInvalid
  | iteratorInvalid
  | nilKeyOnPrefixStore
  | prefixIteratorInvalid
  | shouldNotHappen
  -- the Go runtime and the codec
  | nilPointer
  | indexOutOfRange
  | unmarshal
  deriving DecidableEq

/-- Errors returned by the modelled functions. -/
inductive SdkError
  | errInsufficientCoins
  | errInvalidCoins
  | errInvalidAddress
  -- bank/errors.go
  | errInvalidAccount
  | errNoInputs
  | errNoOutputs
  -- htlc/internal/types/errors.go
  | errInvalidAmount
  | errInvalidHashLock
  | errHashLockAlreadyExists
  | errInvalidTimeLock
  | errInvalidSecret
  | errStateIsNotOpen
  -- coinswap/internal/types/errors.go
  | errReservePoolNotExists
  | errEqualDenom
  | errIllegalDenom
  | errIllegalUniId
  | errInvalidDeadline
  | errNotPositive
  | errConstraintNotMet
  | errInsufficientFunds
  -- asset/internal/types/errors.go
  | errInvalidAssetFamily
  | errInvalidAssetSource
  | errInvalidAssetName
  | errInvalidAssetSymbol
  | errInvalidAssetCanonicalSymbol
  | errInvalidAssetMinUnitAlias
  | errInvalidAssetInitSupply
  | errInvalidAssetMaxSupply
  | errInvalidAssetDecimal
  | errNilAssetOwner
  | errAssetAlreadyExists
  | errAssetNotExists
  | errAssetNotMintable
  | errUnauthorizedIssueGatewayAsset
  | errInvalidMoniker
  | errInvalidIdentity
  | errInvalidDetails
  | errInvalidWebsite
  | errNoUpdatesProvided
  | errUnkwownGateway
  | errGatewayAlreadyExists
  | errInvalidOwner
  | errInvalidToAddress
  -- stake/types/errors.go
  | errInvalidInput
  | errDescriptionLength
  | errBadDelegationAmount
  | errBadSharesAmount
  | errNoValidatorFound
  | errValidatorOwnerExists
  | errValidatorPubKeyExists
  | errValidatorPubKeyTypeUnsupported
  | errValidatorJailed
  | errCommissionNegative
  | errCommissionHuge
  | errCommissionGTMaxRate
  | errCommissionUpdateTime
  | errCommissionChangeRateNegative
  | errCommissionChangeRateGTMaxRate
  | errCommissionGTMaxChangeRate
  | errNoDelegatorForAddress
  | errNotEnoughDelegationShares
  | errDelegatorShareExRateInvalid
  | errNoUnbondingDelegation
  | errExistingUnbondingDelegation
  | errNotMature
  | errNoRedelegation
  | errBadRedelegationDst
  | errSelfRedelegation
  | errConflictingRedelegation
  | errTransitiveRedelegation
  -- distribution/types/errors.go, slashing/errors.go
  | errNoValidatorDistInfo
  | errNoDelegationDistInfo
  | errNoValidatorForAddress
  | errInvalidSlashParams
  | errMissingSelfDelegation
  | errValidatorNotJailed
  -- types/errors.go, bank/errors.go, asset/internal/types/errors.go: errors of `runTx`
  | errInternal
  | errOutOfGas
  | errUnknownRequest
  | errUnknownAddress
  | errUnauthorized
  | errInvalidSequence
  | errInvalidPubKey
  | errMemoTooLarge
  | errInsufficientFee
  | errTooManySignatures
  | errInvalidGas
  | errGasPriceTooLow
  | errServiceTxLimit
  | errExceedsTxSize
  | errInvalidMemo
  | errSignersMissingInContext
  -- service/error.go
  | errSvcDefExists
  | errSvcDefNotExists
  | errInvalidIDL
  | errInvalidOutputPrivacyEnum
  | errInvalidOutputCachedEnum
  | errInvalidServiceName
  | errInvalidChainId
  | errInvalidAuthor
  | errInvalidMethodName
  | errInvalidDefChainId
  | errInvalidReqChainId
  | errInvalidBindChainId
  | errInvalidLength
  | errSvcBindingExists
  | errSvcBindingNotExists
  | errSvcBindingNotAvailable
  | errInvalidBindingType
  | errInvalidLevel
  | errInvalidPriceCount
  | errRefundDeposit
  | errDisable
  | errEnable
  | errLtMinProviderDeposit
  | errLtServiceFee
  | errMethodNotExists
  | errRequestNotActive
  | errReturnFeeNotExists
  | errWithdrawFeeNotExists
  | errInvalidReqId
  | errNotMatchingProvider
  | errNotMatchingReqChainID
  | errNotTrustee
  | errNotProfiler
  | codeIntOverflow
  -- rand/internal/types/errors.go
  | errInvalidConsumer
  | errInvalidReqID
  -- gov/errors.go
  | errUnknownProposal
  | errInactiveProposal
  | errInvalidTitle
  | errInvalidDescription
  | errInvalidProposalType
  | errInvalidVote
  | errInvalidGenesis
  | errInvalidParam
  | errInvalidParamNum
  | errEmptyParam
  | errSwitchPeriodInProcess
  | errInvalidPercent
  | errInvalidUsageType
  | errCodeInvalidVersion
  | errCodeInvalidSwitchHeight
  | errNotInDepositPeriod
  | errAlreadyVote
  | errOnlyValidatorOrDelegatorVote
  | errMoreThanMaxProposal
  | errInvalidUpgradeThreshold
  | errNotEnoughInitialDeposit
  -- params/errors.go, by their codes
  | codeInvalidMinDepositDenom
  | codeInvalidMinDepositAmount
  | codeInvalidDepositPeriod
  | codeInvalidVotingPeriod
  | codeInvalidThreshold
  | codeInvalidParticipation
  | codeInvalidVeto
  | codeInvalidGovernancePenalty
  | codeInvalidMaxProposalNum
  | codeInvalidSystemHaltPeriod
  | codeInvalidAssetTaxRate
  | codeInvalidMintTokenFeeRatio
  | codeInvalidGatewayAssetFeeRatio
  | codeInvalidIssueTokenBaseFee
  | codeInvalidCreateGatewayBaseFee
  deriving DecidableEq

/-- A panic or a returned error. -/
inductive Fault
  | panic (p : Panic)
  | error (e : SdkError)
  deriving DecidableEq

def Fault.IsPanic : Fault → Prop
  | .panic _ => True
  | .error _ => False

abbrev Outcome (α : Type) := Except Fault α

/-- Stop by `panic`. -/
def raise {α : Type} (p : Panic) : Outcome α := .error (.panic p)

def fail {α : Type} (e : SdkError) : Outcome α := .error (.error e)

/-- Return the error `e` unless `c` holds. -/
def require (c : Bool) (e : SdkError) : Outcome Unit := if c then .ok () else fail e

/-- Panic with `p` unless `c` holds. -/
def assert (c : Bool) (p : Panic) : Outcome Unit := if c then .ok () else raise p

/-- `panic(err)` for a returned error. -/
def panicOnError {α : Type} : Outcome α → Outcome α
  | .error (.error _) => raise .returnedError
  | r => r

def deref {α : Type} (x : Option α) (p : Panic) : Outcome α :=
  match x with
  | none => raise p
  | some a => .ok a

/-- Value of a lookup whose failure is returned as the error `e`. -/
def found {α : Type} (x : Option α) (e : SdkError) : Outcome α :=
  match x with
  | none => fail e
  | some a => .ok a

variable {c : Bool} {e : SdkError} {u : Unit} {p : Panic} {α β : Type} {a : α}

@[simp] lemma require_ok : require c e = .ok u ↔ c = true := by cases c <;> simp [require, fail]

@[simp] lemma assert_ok : assert c p = .ok u ↔ c = true := by cases c <;> simp [assert, raise]

@[simp] lemma panicOnError_ok {x : Outcome α} : panicOnError x = .ok a ↔ x = .ok a := by
  rcases x with (p | e) | b <;> simp [panicOnError, raise]

@[simp] lemma deref_ok {x : Option α} : deref x p = .ok a ↔ x = some a := by
  cases x <;> simp [deref, raise]

@[simp] lemma found_ok {x : Option α} : found x e = .ok a ↔ x = some a := by
  cases x <;> simp [found, fail]

@[simp] lemma raise_ne_ok : (raise p : Outcome α) ≠ .ok a := by simp [raise]

@[simp] lemma fail_ne_ok : (fail e : Outcome α) ≠ .ok a := by simp [fail]

/-- A value that is returned when it passes the test `Q`. -/
lemma if_raise_ok {P Q : Prop} [Decidable P] {b : α} (h : P ↔ ¬Q) :
    (if P then raise p else .ok b : Outcome α) = .ok a ↔ a = b ∧ Q := by
  by_cases hQ : Q
  · simp [h, hQ, eq_comm]
  · simp [h, hQ]

lemma sat_assert {E : Fault → Prop} (h : c = false → E (.panic p)) :
    Lib.Sat E (fun _ => c = true) (assert c p) := by
  cases c with
  | false => exact h rfl
  | true => exact rfl

end Irishub
