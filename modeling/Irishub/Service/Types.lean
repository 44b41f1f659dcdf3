import Irishub.Bank.Keeper
import Irishub.Lib.Decimal
import Irishub.Types.Dec

/-!
# Service: definitions, bindings, requests and messages

The types of `service/definition.go`, `binding.go`, `invocation.go` and
`params.go`, the store keys of `keeper_keys.go` and the messages of `msgs.go`
with `ValidateBasic`.

A store key joins its parts with a zero byte, as the source does; the first byte
of a key selects one of the stores of `State` and is not part of the keys here.
The payload of a request and of a response is not read by any function and left
out.
-/

namespace Irishub.Service
open Lib

/-- A method of an interface description, as `protoidl.GetMethods` returns it. -/
structure IdlMethod where
  name : String
  attributes : List (String × String)
  deriving DecidableEq

/-- What the module takes from elsewhere: the text of an address, the parser of interface
descriptions, and the lists of the guardian module. -/
structure Env where
  addrString : Address → String
  getMethods : String → Option (List IdlMethod)
  isProfiler : Address → Bool
  isTrustee : Address → Bool

def serviceDepositCoinsAccAddr : Address := 0xc897eb9a1af528e1a6ca55bd6b31877369c33366

def serviceRequestCoinsAccAddr : Address := 0x2b993b6aa6f6d30791ad0e11de09555e2b1883d1

def serviceTaxCoinsAccAddr : Address := 0x6d33a4693c6b6d36b1059dc9f9382a813aa012c5

structure SvcDef where
  name : String
  chainId : String
  description : String
  tags : List String
  author : Address
  authorDescription : String
  idlContent : String
  deriving DecidableEq

inductive OutputPrivacyEnum
  | noPrivacy
  | pubKeyEncryption
  deriving DecidableEq

inductive OutputCachedEnum
  | offChainCached
  | noCached
  | invalid
  deriving DecidableEq

structure MethodProperty where
  id : ℤ
  name : String
  description : String
  outputPrivacy : OutputPrivacyEnum
  outputCached : OutputCachedEnum
  deriving DecidableEq

/-- Byte of a binding type; zero is allowed in an update. -/
inductive BindingType
  | unset
  | globalBinding
  | localBinding
  | undefined (byte : ℕ)
  deriving DecidableEq

structure Level where
  avgRspTime : ℤ
  usableTime : ℤ
  deriving DecidableEq

/-- Zero value of `time.Time`, in nanoseconds since the Unix epoch. -/
def zeroTime : ℤ := -62135596800 * 10 ^ 9

structure SvcBinding where
  defName : String
  defChainID : String
  bindChainID : String
  provider : Address
  bindingType : BindingType
  deposit : Coins
  prices : List Coin
  level : Level
  available : Bool
  disableTime : ℤ
  deriving DecidableEq

/-- Zero value of `SvcBinding`; its provider is the empty address. -/
def SvcBinding.zero : SvcBinding where
  defName := ""
  defChainID := ""
  bindChainID := ""
  provider := 0
  bindingType := .unset
  deposit := []
  prices := []
  level := ⟨0, 0⟩
  available := false
  disableTime := zeroTime

structure SvcRequest where
  defChainID : String
  defName : String
  bindChainID : String
  reqChainID : String
  methodID : ℤ
  provider : Address
  consumer : Address
  serviceFee : Coins
  profiling : Bool
  requestHeight : ℤ
  requestIntraTxCounter : ℤ
  expirationHeight : ℤ
  deriving DecidableEq

structure SvcResponse where
  reqChainID : String
  expirationHeight : ℤ
  requestHeight : ℤ
  requestIntraTxCounter : ℤ
  provider : Address
  consumer : Address
  deriving DecidableEq

structure Params where
  maxRequestTimeout : ℤ
  minDepositMultiple : ℤ
  serviceFeeTax : Dec
  slashFraction : Dec
  complaintRetrospect : ℤ
  arbitrationTimeLimit : ℤ
  txSizeLimit : ℕ
  deriving DecidableEq

def second : ℤ := 10 ^ 9

def day : ℤ := 24 * 60 * 60 * second

/-- `validateParams`, on the main network or on another. -/
def Params.validate (mainnet : Bool) (p : Params) : Bool :=
  (if mainnet then 20 ≤ p.maxRequestTimeout else 5 ≤ p.maxRequestTimeout) &&
  ((if mainnet then 500 ≤ p.minDepositMultiple else 10 ≤ p.minDepositMultiple) &&
    p.minDepositMultiple ≤ 5000) &&
  (Dec.zero < p.slashFraction && p.slashFraction ≤ Dec.newDecWithPrec 1 2) &&
  (Dec.zero < p.serviceFeeTax && p.serviceFeeTax ≤ Dec.newDecWithPrec 2 1) &&
  (if mainnet then 15 * day ≤ p.complaintRetrospect && p.complaintRetrospect ≤ 30 * day
    else 20 * second ≤ p.complaintRetrospect) &&
  (if mainnet then 5 * day ≤ p.arbitrationTimeLimit && p.arbitrationTimeLimit ≤ 10 * day
    else 20 * second ≤ p.arbitrationTimeLimit) &&
  (2000 ≤ p.txSizeLimit && p.txSizeLimit ≤ 6000)

def defaultParams : Params where
  maxRequestTimeout := 100
  minDepositMultiple := 1000
  serviceFeeTax := Dec.newDecWithPrec 1 2
  slashFraction := Dec.newDecWithPrec 1 3
  complaintRetrospect := 15 * day
  arbitrationTimeLimit := 5 * day
  txSizeLimit := 4000

lemma defaultParams_valid (mainnet : Bool) : defaultParams.validate mainnet = true := by
  cases mainnet <;> decide

/-- Conversion of an integer to a `string`, which takes it as a Unicode code point. -/
def stringOfRune (i : ℤ) : String :=
  if 0 ≤ i ∧ (i < 0xD800 ∨ (0xDFFF < i ∧ i ≤ 0x10FFFF)) then String.singleton (Char.ofNat i.toNat)
  else "�"

def getStringsKey (ss : List String) : String := String.intercalate "\x00" ss

def getServiceDefinitionKey (chainId name : String) : String := getStringsKey [chainId, name]

def getMethodPropertyKey (chainId serviceName : String) (id : ℤ) : String :=
  getStringsKey [chainId, serviceName, stringOfRune id]

def getMethodsSubspaceKey (chainId serviceName : String) : String :=
  getStringsKey [chainId, serviceName] ++ "\x00"

def getServiceBindingKey (env : Env) (defChainId name bindChainId : String)
    (provider : Address) : String :=
  getStringsKey [defChainId, name, bindChainId, env.addrString provider]

def getBindingsSubspaceKey (chainId serviceName : String) : String :=
  getStringsKey [chainId, serviceName] ++ "\x00"

/-- `GetRequestKey` and `GetActiveRequestKey`, which differ in their first byte. -/
def getRequestKey (env : Env) (req : SvcRequest) : String :=
  getStringsKey [req.defChainID, req.defName, req.bindChainID, env.addrString req.provider,
    stringOfRune req.requestHeight, stringOfRune req.requestIntraTxCounter]

def getResponseKey (resp : SvcResponse) : String :=
  getStringsKey [resp.reqChainID, stringOfRune resp.expirationHeight,
    stringOfRune resp.requestHeight, stringOfRune resp.requestIntraTxCounter]

abbrev ExpirationKey := ℕ ×ₗ (ℕ ×ₗ ℕ)

/-- Conversion of a signed integer to an unsigned one of `w` bits. -/
def toUint (w : ℕ) (i : ℤ) : ℕ := (i % 2 ^ w).toNat

/-- Conversion of an integer to an `int16`. -/
def toInt16 (i : ℤ) : ℤ := (i + 2 ^ 15) % 2 ^ 16 - 2 ^ 15

def getRequestsByExpirationIndexKey (eHeight rHeight counter : ℤ) : ExpirationKey :=
  toLex (toUint 64 eHeight, toLex (toUint 64 rHeight, toUint 16 counter))

def getRequestsByExpirationIndexKeyByReq (req : SvcRequest) : ExpirationKey :=
  getRequestsByExpirationIndexKey req.expirationHeight req.requestHeight req.requestIntraTxCounter

/-- Fields by which a message names a binding. -/
structure BindingRef where
  defName : String
  defChainID : String
  bindChainID : String
  provider : Address
  deriving DecidableEq

structure MsgSvcDef extends SvcDef deriving DecidableEq

structure MsgSvcBind extends BindingRef where
  bindingType : BindingType
  deposit : Coins
  prices : List Coin
  level : Level
  deriving DecidableEq

structure MsgSvcBindingUpdate extends BindingRef where
  bindingType : BindingType
  deposit : Coins
  prices : List Coin
  level : Level
  deriving DecidableEq

structure MsgSvcDisable extends BindingRef deriving DecidableEq

structure MsgSvcEnable extends BindingRef where
  deposit : Coins
  deriving DecidableEq

structure MsgSvcRefundDeposit extends BindingRef deriving DecidableEq

structure MsgSvcRequest extends BindingRef where
  reqChainID : String
  methodID : ℤ
  consumer : Address
  serviceFee : Coins
  profiling : Bool
  deriving DecidableEq

structure MsgSvcResponse where
  reqChainID : String
  requestID : String
  provider : Address
  deriving DecidableEq

structure MsgSvcRefundFees where
  consumer : Address
  deriving DecidableEq

structure MsgSvcWithdrawFees where
  provider : Address
  deriving DecidableEq

structure MsgSvcWithdrawTax where
  trustee : Address
  destAddress : Address
  amount : Coins
  deriving DecidableEq

/-- Messages of the module. -/
inductive SvcMsg
  | define (msg : MsgSvcDef)
  | bind (msg : MsgSvcBind)
  | updateBinding (msg : MsgSvcBindingUpdate)
  | disable (msg : MsgSvcDisable)
  | enable (msg : MsgSvcEnable)
  | refundDeposit (msg : MsgSvcRefundDeposit)
  | request (msg : MsgSvcRequest)
  | respond (msg : MsgSvcResponse)
  | refundFees (msg : MsgSvcRefundFees)
  | withdrawFees (msg : MsgSvcWithdrawFees)
  | withdrawTax (msg : MsgSvcWithdrawTax)
  deriving DecidableEq

/-- `GetSigners`; every message has one signer. -/
def SvcMsg.signer : SvcMsg → Address
  | .define msg => msg.author
  | .bind msg => msg.provider
  | .updateBinding msg => msg.provider
  | .disable msg => msg.provider
  | .enable msg => msg.provider
  | .refundDeposit msg => msg.provider
  | .request msg => msg.consumer
  | .respond msg => msg.provider
  | .refundFees msg => msg.consumer
  | .withdrawFees msg => msg.provider
  | .withdrawTax msg => msg.trustee

section

def isNameChar (c : Char) : Bool :=
  ('a' ≤ c && c ≤ 'z') || ('A' ≤ c && c ≤ 'Z') || ('0' ≤ c && c ≤ '9') || c == '_' || c == '-'

def validServiceName (name : String) : Bool :=
  byteLen name ≠ 0 && byteLen name ≤ 128 && name.toList.all isNameChar

def ensureNameLength (name : String) : Outcome Unit :=
  require (byteLen name ≤ 70) .errInvalidLength

def ensureChainIdLength (chainId : String) : Outcome Unit :=
  require (byteLen chainId ≤ 50) .errInvalidLength

def outputPrivacyEnumFromString (str : String) : Option OutputPrivacyEnum :=
  if str = "NoPrivacy" then some .noPrivacy
  else if str = "PubKeyEncryption" then some .pubKeyEncryption
  else none

def outputCachedEnumFromString (str : String) : Option OutputCachedEnum :=
  if str = "OffChainCached" then some .offChainCached
  else if str = "NoCached" then some .noCached
  else none

def validateMethods (methods : List IdlMethod) : Outcome Unit :=
  methods.foldlM (fun _ method => do
    require (byteLen method.name ≠ 0) .errInvalidMethodName
    require ((method.attributes.lookup "output_privacy").all
      (fun v => (outputPrivacyEnumFromString v).isSome)) .errInvalidOutputPrivacyEnum
    require ((method.attributes.lookup "output_cached").all
      (fun v => (outputCachedEnumFromString v).isSome)) .errInvalidOutputCachedEnum) ()

def MsgSvcDef.ensureLength (msg : MsgSvcDef) : Outcome Unit := do
  ensureNameLength msg.name
  ensureChainIdLength msg.chainId
  require (byteLen msg.description ≤ 280) .errInvalidLength
  require (msg.tags.length ≤ 10) .errInvalidLength
  require (msg.tags.all (fun tag => byteLen tag ≤ 70)) .errInvalidLength
  require (byteLen msg.authorDescription ≤ 280) .errInvalidLength

def MsgSvcDef.validateBasic (env : Env) (msg : MsgSvcDef) : Outcome Unit := do
  require (byteLen msg.chainId ≠ 0) .errInvalidChainId
  require (validServiceName msg.name) .errInvalidServiceName
  require (byteLen msg.idlContent ≠ 0) .errInvalidIDL
  msg.ensureLength
  let methods ← (env.getMethods msg.idlContent).elim (fail .errInvalidIDL) .ok
  validateMethods methods

/-- Tests of the definition and binding fields that messages about a binding share. -/
def BindingRef.validateBasic (ref : BindingRef) : Outcome Unit := do
  require (byteLen ref.defChainID ≠ 0) .errInvalidDefChainId
  require (byteLen ref.bindChainID ≠ 0) .errInvalidChainId
  ensureChainIdLength ref.defChainID
  ensureChainIdLength ref.bindChainID
  require (validServiceName ref.defName) .errInvalidServiceName
  ensureNameLength ref.defName

def validBindingType : BindingType → Bool
  | .globalBinding => true
  | .localBinding => true
  | _ => false

def validLevel (lv : Level) : Bool :=
  0 < lv.avgRspTime && 0 < lv.usableTime && lv.usableTime ≤ 10000

def validUpdateLevel (lv : Level) : Bool :=
  0 ≤ lv.avgRspTime && (0 ≤ lv.usableTime && lv.usableTime ≤ 10000)

def MsgSvcBind.validateBasic (msg : MsgSvcBind) : Outcome Unit := do
  msg.toBindingRef.validateBasic
  require (validBindingType msg.bindingType) .errInvalidBindingType
  require msg.deposit.isValidIrisAtto .errInvalidCoins
  require (msg.prices.all Coin.isValidIrisAtto) .errInvalidCoins
  require (validLevel msg.level) .errInvalidLevel

def MsgSvcBindingUpdate.validateBasic (msg : MsgSvcBindingUpdate) : Outcome Unit := do
  msg.toBindingRef.validateBasic
  require (msg.bindingType == .unset || validBindingType msg.bindingType) .errInvalidBindingType
  require msg.deposit.isValidIrisAtto .errInvalidCoins
  require (msg.prices.all Coin.isValidIrisAtto) .errInvalidCoins
  require (validUpdateLevel msg.level) .errInvalidLevel

def MsgSvcEnable.validateBasic (msg : MsgSvcEnable) : Outcome Unit := do
  msg.toBindingRef.validateBasic
  require msg.deposit.isValidIrisAtto .errInvalidCoins

/-- `MsgSvcRequest.ValidateBasic`, whose tests come in another order. -/
def MsgSvcRequest.validateBasic (msg : MsgSvcRequest) : Outcome Unit := do
  require (byteLen msg.defChainID ≠ 0) .errInvalidDefChainId
  require (byteLen msg.bindChainID ≠ 0) .errInvalidBindChainId
  require (byteLen msg.reqChainID ≠ 0) .errInvalidChainId
  ensureChainIdLength msg.defChainID
  ensureChainIdLength msg.bindChainID
  ensureChainIdLength msg.reqChainID
  require (validServiceName msg.defName) .errInvalidServiceName
  ensureNameLength msg.defName
  require msg.serviceFee.isValidIrisAtto .errInvalidCoins

/-- `RequestID`: the three numbers in decimal. -/
def SvcRequest.requestID (req : SvcRequest) : String :=
  toString req.expirationHeight ++ "-" ++ toString req.requestHeight ++ "-" ++
    toString req.requestIntraTxCounter

/-- `ConvertRequestID`, with `strconv.ParseInt` and `strconv.Atoi` of the parts. -/
def convertRequestID (requestId : String) : Option (ℤ × ℤ × ℤ) :=
  match requestId.toList.splitOn '-' with
  | [e, r, c] => do
    let eHeight ← parseInt e
    let rHeight ← parseInt r
    let counter ← parseInt c
    return (eHeight, rHeight, toInt16 counter)
  | _ => none

def MsgSvcResponse.validateBasic (msg : MsgSvcResponse) : Outcome Unit := do
  require (byteLen msg.reqChainID ≠ 0) .errInvalidReqChainId
  ensureChainIdLength msg.reqChainID
  require (convertRequestID msg.requestID).isSome .errInvalidReqId

/-- `ValidateBasic`; the addresses of a message are not empty. -/
def SvcMsg.validateBasic (env : Env) : SvcMsg → Outcome Unit
  | .define msg => msg.validateBasic env
  | .bind msg => msg.validateBasic
  | .updateBinding msg => msg.validateBasic
  | .disable msg => msg.toBindingRef.validateBasic
  | .enable msg => msg.validateBasic
  | .refundDeposit msg => msg.toBindingRef.validateBasic
  | .request msg => msg.validateBasic
  | .respond msg => msg.validateBasic
  | .refundFees _ => .ok ()
  | .withdrawFees _ => .ok ()
  | .withdrawTax msg => require msg.amount.isValidIrisAtto .errInvalidCoins

end
end Irishub.Service
