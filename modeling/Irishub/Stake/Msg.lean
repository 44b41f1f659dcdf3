import Irishub.Types.Dec
import Irishub.Bank.Keeper

/-!
# Stake: messages and their sign documents

The five messages of `stake/types/msg.go` with `ValidateBasic`, and the structs
that `GetSignBytes` hands to the JSON codec. A sign document is written field by
field in the source; a field that the literal leaves out has its zero value.

Address fields are required by `ValidateBasic` and never empty here; the empty
address of a sign document is `none`. A `Dec` pointer that may be nil is an
`Option Dec`.
-/

namespace Irishub.Stake
open Lib

structure Description where
  moniker : String
  identity : String
  website : String
  details : String
  deriving DecidableEq

/-- Zero value of `Description`. -/
def Description.zero : Description := ⟨"", "", "", ""⟩

def Description.ensureLength (d : Description) : Outcome Description := do
  require (byteLen d.moniker ≤ 70) .errDescriptionLength
  require (byteLen d.identity ≤ 3000) .errDescriptionLength
  require (byteLen d.website ≤ 140) .errDescriptionLength
  require (byteLen d.details ≤ 280) .errDescriptionLength
  return d

structure CommissionMsg where
  rate : Option Dec
  maxRate : Option Dec
  maxChangeRate : Option Dec
  deriving DecidableEq

/-- Zero value of `CommissionMsg`. -/
def CommissionMsg.zero : CommissionMsg := ⟨none, none, none⟩

/-- A consensus public key, by its type and its bytes. -/
structure PubKey where
  keyType : String
  bytes : ℕ
  deriving DecidableEq

structure MsgCreateValidator where
  description : Description
  commission : CommissionMsg
  delegatorAddr : Address
  validatorAddr : Address
  pubKey : PubKey
  delegation : Coin
  deriving DecidableEq

def MsgCreateValidator.validateBasic (msg : MsgCreateValidator) : Outcome Unit := do
  require msg.delegation.isValidIrisAtto .errBadDelegationAmount
  require (msg.description ≠ .zero) .errInvalidInput
  require (msg.commission ≠ .zero) .errInvalidInput
  let _ ← msg.description.ensureLength
  return ()

structure MsgEditValidator where
  description : Description
  validatorAddr : Address
  commissionRate : Option Dec
  deriving DecidableEq

def MsgEditValidator.validateBasic (msg : MsgEditValidator) : Outcome Unit := do
  require (msg.description ≠ .zero) .errInvalidInput
  let _ ← msg.description.ensureLength
  return ()

structure MsgDelegate where
  delegatorAddr : Address
  validatorAddr : Address
  delegation : Coin
  deriving DecidableEq

def MsgDelegate.validateBasic (msg : MsgDelegate) : Outcome Unit :=
  require msg.delegation.isValidIrisAtto .errBadDelegationAmount

structure MsgBeginRedelegate where
  delegatorAddr : Address
  validatorSrcAddr : Address
  validatorDstAddr : Address
  sharesAmount : Dec
  deriving DecidableEq

def MsgBeginRedelegate.validateBasic (msg : MsgBeginRedelegate) : Outcome Unit :=
  require (Dec.zero < msg.sharesAmount) .errBadSharesAmount

structure MsgBeginUnbonding where
  delegatorAddr : Address
  validatorAddr : Address
  sharesAmount : Dec
  deriving DecidableEq

def MsgBeginUnbonding.validateBasic (msg : MsgBeginUnbonding) : Outcome Unit :=
  require (Dec.zero < msg.sharesAmount) .errBadSharesAmount

section

structure CreateValidatorDoc where
  description : Description
  commission : CommissionMsg
  delegatorAddr : Option Address
  validatorAddr : Option Address
  pubKey : String
  delegation : Coin
  deriving DecidableEq

structure EditValidatorDoc where
  description : Description
  validatorAddr : Address
  deriving DecidableEq

structure BeginRedelegateDoc where
  delegatorAddr : Address
  validatorSrcAddr : Address
  validatorDstAddr : Address
  sharesAmount : String
  deriving DecidableEq

structure BeginUnbondingDoc where
  delegatorAddr : Address
  validatorAddr : Address
  sharesAmount : String
  deriving DecidableEq

variable (bech32ifyConsPub : PubKey → String)

/-- Struct of `MsgCreateValidator.GetSignBytes`, which sets neither `Commission` nor
`DelegatorAddr`. -/
def MsgCreateValidator.signDoc (msg : MsgCreateValidator) : CreateValidatorDoc where
  description := msg.description
  commission := .zero
  delegatorAddr := none
  validatorAddr := some msg.validatorAddr
  pubKey := bech32ifyConsPub msg.pubKey
  delegation := msg.delegation

/-- Struct of `MsgEditValidator.GetSignBytes`. -/
def MsgEditValidator.signDoc (msg : MsgEditValidator) : EditValidatorDoc where
  description := msg.description
  validatorAddr := msg.validatorAddr

/-- Struct of `MsgBeginRedelegate.GetSignBytes`. -/
def MsgBeginRedelegate.signDoc (msg : MsgBeginRedelegate) : BeginRedelegateDoc where
  delegatorAddr := msg.delegatorAddr
  validatorSrcAddr := msg.validatorSrcAddr
  validatorDstAddr := msg.validatorDstAddr
  sharesAmount := msg.sharesAmount.string

/-- Struct of `MsgBeginUnbonding.GetSignBytes`. -/
def MsgBeginUnbonding.signDoc (msg : MsgBeginUnbonding) : BeginUnbondingDoc where
  delegatorAddr := msg.delegatorAddr
  validatorAddr := msg.validatorAddr
  sharesAmount := msg.sharesAmount.string

end
end Irishub.Stake
