import Irishub.Asset.Types
import Irishub.Types.Dec

/-!
# Asset: keeper and handlers

The state of the module (`asset/internal/keeper`, `asset/handler.go`): the
tokens under `KeyToken`, the gateways, the indexes by owner, and the bank it
acts on. The store keys are kept without their constant prefixes.

`calcFeeFactor` computes with floating point numbers; the factor for a name of
a given length is a parameter.
-/

namespace Irishub.Asset
open Lib

/-- Parameters of the module, and the fee factor of a name by its length. -/
structure Params where
  assetTaxRate : Dec
  issueTokenBaseFee : Coin
  mintTokenFeeRatio : Dec
  createGatewayBaseFee : Coin
  gatewayAssetFeeRatio : Dec
  feeFactor : ℕ → Dec

structure State where
  bank : Bank
  tokens : Store String FungibleToken
  tokensIndex : Store String String
  ownerTokens : Store (Address ×ₗ String) String
  gateways : Store String Gateway
  ownerGateways : Store (Address ×ₗ String) String

section
variable (params : Params)

def calcFeeFactor (name : String) : Outcome Dec := do
  assert (0 < byteLen name) .emptyFeeName
  return params.feeFactor (byteLen name)

def calcFeeByBase (name : String) (baseFee : ℤ) : Outcome Dec := do
  (Dec.newDecFromInt baseFee).quo (← calcFeeFactor params name)

def convertFeeToInt (fee : Dec) : Outcome ℤ := do
  let unit ← SdkInt.newIntWithDecimal 1 18
  let feeNativeToken ← fee.quo (Dec.newDecFromInt unit)
  if Dec.newDecFromInt 1 < feeNativeToken then
    SdkInt.mul (← feeNativeToken.truncateInt) unit
  else SdkInt.mul 1 unit

def feeCoin (fee : Dec) : Outcome Coin := do Coin.newCoin irisAtto (← convertFeeToInt fee)

def getGatewayCreateFee (moniker : String) : Outcome Coin := do
  feeCoin (← calcFeeByBase params moniker params.createGatewayBaseFee.amount)

def getTokenIssueFee (symbol : String) : Outcome Coin := do
  feeCoin (← calcFeeByBase params symbol params.issueTokenBaseFee.amount)

def getTokenMintFee (symbol : String) : Outcome Coin := do
  let issueFee ← getTokenIssueFee params symbol
  feeCoin (← (Dec.newDecFromInt issueFee.amount).mul params.mintTokenFeeRatio)

def getGatewayTokenIssueFee (symbol : String) : Outcome Coin := do
  let nativeTokenIssueFee ← getTokenIssueFee params symbol
  feeCoin (← (Dec.newDecFromInt nativeTokenIssueFee.amount).mul params.gatewayAssetFeeRatio)

def getGatewayTokenMintFee (symbol : String) : Outcome Coin := do
  let nativeTokenMintFee ← getTokenMintFee params symbol
  feeCoin (← (Dec.newDecFromInt nativeTokenMintFee.amount).mul params.gatewayAssetFeeRatio)

/-- `feeHandler`; the account of an empty address holds no coins. -/
def feeHandler (b : Bank) (feeAcc : Option Address) (fee : Coin) : Outcome Bank := do
  let tax ← (Dec.newDecFromInt fee.amount).mul params.assetTaxRate
  let communityTaxCoin ← Coin.newCoin fee.denom (← tax.truncateInt)
  let burnedCoin ← fee.sub communityTaxCoin
  match feeAcc with
  | none => fail .errInsufficientCoins
  | some feeAcc => do
    let b ← b.sendCoins feeAcc communityTaxCoinsAccAddr [communityTaxCoin]
    b.burnCoins feeAcc [burnedCoin]

def gatewayCreateFeeHandler (b : Bank) (owner : Option Address) (moniker : String) :
    Outcome Bank := do
  feeHandler params b owner (← getGatewayCreateFee params moniker)

def tokenIssueFeeHandler (b : Bank) (owner : Option Address) (symbol : String) :
    Outcome Bank := do
  feeHandler params b owner (← getTokenIssueFee params symbol)

def tokenMintFeeHandler (b : Bank) (owner : Option Address) (symbol : String) :
    Outcome Bank := do
  feeHandler params b owner (← getTokenMintFee params symbol)

def gatewayTokenIssueFeeHandler (b : Bank) (owner : Option Address) (symbol : String) :
    Outcome Bank := do
  feeHandler params b owner (← getGatewayTokenIssueFee params symbol)

def gatewayTokenMintFeeHandler (b : Bank) (owner : Option Address) (symbol : String) :
    Outcome Bank := do
  feeHandler params b owner (← getGatewayTokenMintFee params symbol)

end

/-- A token as `SetToken` stores it, without owner if it belongs to a gateway. -/
def FungibleToken.stored (ft : FungibleToken) : FungibleToken :=
  if ft.source = .gateway then { ft with owner := none } else ft

namespace State

/-- `KeyToken`; a conversion error leaves the empty key. -/
def keyToken (tokenId : String) : String := (convertIdToTokenKeyId tokenId).getD ""

def hasToken (s : State) (tokenId : String) : Bool := s.tokens.has (keyToken tokenId)

def getToken (s : State) (tokenId : String) : Option FungibleToken :=
  s.tokens.get (keyToken tokenId)

def setToken (s : State) (token : FungibleToken) : Outcome State := do
  let tokenId ← getTokenID token.stored.source token.stored.symbol token.stored.gateway
  return { s with tokens := s.tokens.set (keyToken tokenId) token.stored }

/-- `SetTokens`, the index of all tokens or of the tokens of an owner. -/
def setTokens (s : State) (owner : Option Address) (token : FungibleToken) : Outcome State := do
  let tokenId ← getTokenID token.source token.symbol token.gateway
  match owner with
  | none => return { s with tokensIndex := s.tokensIndex.set tokenId tokenId }
  | some owner =>
    return { s with ownerTokens := s.ownerTokens.set (toLex (owner, tokenId)) tokenId }

def getGateway (s : State) (moniker : String) : Outcome Gateway :=
  match s.gateways.get moniker with
  | none => fail .errUnkwownGateway
  | some gateway => .ok gateway

def setGateway (s : State) (gateway : Gateway) : State :=
  { s with gateways := s.gateways.set gateway.moniker gateway }

def setOwnerGateway (s : State) (owner : Address) (moniker : String) : State :=
  { s with ownerGateways := s.ownerGateways.set (toLex (owner, moniker)) moniker }

def updateOwnerGateway (s : State) (moniker : String) (originOwner newOwner : Address) : State :=
  { s with
    ownerGateways := (s.ownerGateways.delete (toLex (originOwner, moniker))).set
      (toLex (newOwner, moniker)) moniker }

/-- Owner that `AddToken` returns, and the token it stores. -/
def resolveOwner (s : State) (token : FungibleToken) : Outcome (FungibleToken × Option Address) :=
  match token.source with
  | .gateway => do
    let gateway ← s.getGateway token.gateway
    return (token, some gateway.owner)
  | .native => .ok ({ token with canonicalSymbol := "", gateway := "" }, token.owner)
  | _ => .ok (token, none)

/-- Index writes of `AddToken`. -/
def indexToken (s : State) (owner : Option Address) (token : FungibleToken) : Outcome State :=
  if token.source = .native then do
    let s ← s.setTokens owner token
    s.setTokens none token
  else s.setTokens none token

/-- `AddToken`; its call of `Sanitize` has no effect. -/
def addToken (s : State) (token : FungibleToken) :
    Outcome (State × FungibleToken × Option Address) := do
  let tokenId ← getTokenID token.source token.symbol token.gateway
  require (!s.hasToken tokenId) .errAssetAlreadyExists
  let (token, owner) ← s.resolveOwner token
  let s ← s.setToken token
  let s ← s.indexToken owner token
  return (s, token, owner)

/-- Gateway check of `IssueToken`. -/
def checkGatewayOwner (s : State) (token : FungibleToken) : Outcome Unit :=
  if token.source = .gateway then do
    let gateway ← s.getGateway token.gateway
    require (some gateway.owner = token.owner) .errUnauthorizedIssueGatewayAsset
  else .ok ()

def creditOwner (b : Bank) (owner : Option Address) (coin : Coin) : Outcome Bank :=
  match owner with
  | none => .ok b
  | some owner => b.addCoins owner [coin]

def issueToken (s : State) (token : FungibleToken) : Outcome State := do
  s.checkGatewayOwner token
  let (s, token, owner) ← s.addToken token
  let initialSupply ← Coin.newCoin token.getDenom token.initialSupply
  let b ← creditOwner s.bank owner initialSupply
  return { s with bank := b.setTotalSupply initialSupply }

/-- `EditToken` and `MintToken` read the owner of a gateway token from the gateway. -/
def withOwner (s : State) (token : FungibleToken) : FungibleToken :=
  if token.source = .gateway then
    { token with owner := (s.gateways.get token.gateway).map Gateway.owner }
  else token

/-- Field updates of `EditToken`. -/
def editFields (token : FungibleToken) (msg : MsgEditToken) (maxSupply : ℤ) : FungibleToken :=
  { token with
    name := if msg.name ≠ doNotModify then msg.name else token.name
    canonicalSymbol :=
      if msg.canonicalSymbol ≠ doNotModify ∧ token.source ≠ .native then msg.canonicalSymbol
      else token.canonicalSymbol
    minUnitAlias := if msg.minUnitAlias ≠ doNotModify then msg.minUnitAlias else token.minUnitAlias
    maxSupply := if 0 < maxSupply then maxSupply else token.maxSupply
    mintable := if msg.mintable ≠ "" then toBool msg.mintable else token.mintable }

def findToken (s : State) (tokenId : String) : Outcome FungibleToken :=
  match s.getToken tokenId with
  | none => fail .errAssetNotExists
  | some token => .ok (s.withOwner token)

def issuedSupply (s : State) (token : FungibleToken) : Outcome Coin :=
  match s.bank.getTotalSupply token.getDenom with
  | none => fail .errAssetNotExists
  | some hasIssuedAmt => .ok hasIssuedAmt

def editToken (s : State) (msg : MsgEditToken) : Outcome State := do
  let token ← s.findToken msg.tokenId
  require (some msg.owner = token.owner) .errInvalidOwner
  let hasIssuedAmt ← s.issuedSupply token
  let maxSupply ← SdkInt.newIntWithDecimal (int64OfUint64 msg.maxSupply) token.decimal
  require (!(0 < maxSupply && (maxSupply < hasIssuedAmt.amount || token.maxSupply < maxSupply)))
    .errInvalidAssetMaxSupply
  s.setToken (editFields token msg maxSupply)

/-- Fee of `MintToken`. -/
def mintFee (params : Params) (b : Bank) (token : FungibleToken) (owner : Address) : Outcome Bank :=
  match token.source with
  | .native => tokenMintFeeHandler params b (some owner) token.symbol
  | .gateway => gatewayTokenMintFeeHandler params b (some owner) token.symbol
  | _ => .ok b

def mintToken (params : Params) (s : State) (msg : MsgMintToken) : Outcome State := do
  let token ← s.findToken msg.tokenId
  require (some msg.owner = token.owner) .errInvalidOwner
  require token.mintable .errAssetNotMintable
  let hasIssuedAmt ← s.issuedSupply token
  require (token.getDenom = hasIssuedAmt.denom) .errAssetNotExists
  let mintAmt ← SdkInt.newIntWithDecimal (int64OfUint64 msg.amount) token.decimal
  let newSupply ← SdkInt.add mintAmt hasIssuedAmt.amount
  require (newSupply ≤ token.maxSupply) .errInvalidAssetMaxSupply
  let b ← mintFee params s.bank token msg.owner
  let mintCoin ← Coin.newCoin token.getDenom mintAmt
  let b ← b.increaseTotalSupply mintCoin
  let b ← creditOwner b (msg.toAddr.orElse fun _ => token.owner) mintCoin
  return { s with bank := b }

def transferTokenOwner (s : State) (msg : MsgTransferTokenOwner) : Outcome State :=
  match s.getToken msg.tokenId with
  | none => fail .errAssetNotExists
  | some token => do
    require (token.source = .native) .errInvalidAssetSource
    require (some msg.srcOwner = token.owner) .errInvalidOwner
    let token := { token with owner := some msg.dstOwner }
    let s ← s.setToken token
    let tokenId ← getTokenID token.source token.symbol token.gateway
    let s := { s with ownerTokens := s.ownerTokens.delete (toLex (msg.srcOwner, tokenId)) }
    s.setTokens (some msg.dstOwner) token

def createGateway (s : State) (msg : MsgCreateGateway) : Outcome State := do
  require (!s.gateways.has msg.moniker) .errGatewayAlreadyExists
  let gateway : Gateway :=
    ⟨msg.owner, msg.moniker, msg.identity, msg.details, msg.website⟩
  return (s.setGateway gateway).setOwnerGateway msg.owner msg.moniker

def editGateway (s : State) (msg : MsgEditGateway) : Outcome State := do
  let gateway ← s.getGateway msg.moniker
  require (msg.owner = gateway.owner) .errInvalidOwner
  return s.setGateway { gateway with
    identity := (updated msg.identity).getD gateway.identity
    details := (updated msg.details).getD gateway.details
    website := (updated msg.website).getD gateway.website }

def transferGatewayOwner (s : State) (msg : MsgTransferGatewayOwner) : Outcome State := do
  let gateway ← s.getGateway msg.moniker
  require (msg.owner = gateway.owner) .errInvalidOwner
  return (s.setGateway { gateway with owner := msg.toAddr }).updateOwnerGateway
    gateway.moniker msg.owner msg.toAddr

/-- Issue of an external token by `Init`, whose error is only logged. -/
def initToken (s : State) (token : FungibleToken) : Outcome State :=
  match s.issueToken token with
  | .error (.error _) => .ok s
  | r => r

/-- `Init`, without the parameters. -/
def init (s : State) : Outcome State := do
  let maxSupply ← SdkInt.newIntWithDecimal (int64OfUint64 maximumAssetMaxSupply) 8
  let s ← s.initToken
    (newFungibleToken .external "" "BTC" "Bitcoin" 8 "BTC" "satoshi" 0 maxSupply true none)
  let maxSupply ← SdkInt.newIntWithDecimal (int64OfUint64 maximumAssetMaxSupply) 18
  s.initToken
    (newFungibleToken .external "" "ETH" "Ethereum" 18 "ETH" "wei" 0 maxSupply true none)

end State

section
variable (params : Params)

/-- Token of `handleIssueToken`. -/
def tokenOfMsg (msg : MsgIssueToken) : Outcome FungibleToken := do
  require (msg.family = .fungible) .errInvalidAssetFamily
  let initialSupply ← SdkInt.newIntWithDecimal (int64OfUint64 msg.initialSupply) msg.decimal
  let maxSupply ← SdkInt.newIntWithDecimal (int64OfUint64 msg.maxSupply) msg.decimal
  return newFungibleToken msg.source msg.gateway msg.symbol msg.name msg.decimal
    msg.canonicalSymbol msg.minUnitAlias initialSupply maxSupply msg.mintable msg.owner

/-- Fee of `handleIssueToken`. -/
def issueFee (b : Bank) (msg : MsgIssueToken) : Outcome Bank :=
  match msg.source with
  | .native => tokenIssueFeeHandler params b msg.owner msg.symbol
  | .gateway => gatewayTokenIssueFeeHandler params b msg.owner msg.symbol
  | _ => .ok b

def handleIssueToken (s : State) (msg : MsgIssueToken) : Outcome State := do
  let token ← tokenOfMsg msg
  let b ← issueFee params s.bank msg
  { s with bank := b }.issueToken token

def handleMsgCreateGateway (s : State) (msg : MsgCreateGateway) : Outcome State := do
  let b ← gatewayCreateFeeHandler params s.bank (some msg.owner) msg.moniker
  { s with bank := b }.createGateway { msg with moniker := toLower msg.moniker }

def handleMsgEditGateway (s : State) (msg : MsgEditGateway) : Outcome State :=
  s.editGateway { msg with moniker := toLower msg.moniker }

def handleMsgTransferGatewayOwner (s : State) (msg : MsgTransferGatewayOwner) : Outcome State :=
  s.transferGatewayOwner { msg with moniker := toLower msg.moniker }

/-- Messages of the module. -/
inductive Msg
  | issueToken (msg : MsgIssueToken)
  | createGateway (msg : MsgCreateGateway)
  | editGateway (msg : MsgEditGateway)
  | editToken (msg : MsgEditToken)
  | transferGatewayOwner (msg : MsgTransferGatewayOwner)
  | mintToken (msg : MsgMintToken)
  | transferTokenOwner (msg : MsgTransferTokenOwner)
  deriving DecidableEq

def Msg.validateBasic : Msg → Outcome Unit
  | issueToken msg => msg.validateBasic
  | createGateway msg => msg.validateBasic
  | editGateway msg => msg.validateBasic
  | editToken msg => msg.validateBasic
  | transferGatewayOwner msg => msg.validateBasic
  | mintToken msg => msg.validateBasic
  | transferTokenOwner msg => msg.validateBasic

/-- `NewHandler`. -/
def handle (s : State) : Msg → Outcome State
  | .issueToken msg => handleIssueToken params s msg
  | .createGateway msg => handleMsgCreateGateway params s msg
  | .editGateway msg => handleMsgEditGateway s msg
  | .editToken msg => s.editToken msg
  | .transferGatewayOwner msg => handleMsgTransferGatewayOwner s msg
  | .mintToken msg => s.mintToken params msg
  | .transferTokenOwner msg => s.transferTokenOwner msg

end
end Irishub.Asset
