import Irishub.Bank.Keeper

/-!
# Asset: tokens, gateways and messages

`asset/internal/types`: the stored token and gateway, the identifiers derived
from a token, and the messages with their `ValidateBasic`.

`ValidateBasic` of an issue message trims its texts and fills in a missing
maximal supply on a copy of the message: the handler receives the message as it
was sent, and `newBaseToken` applies its own defaults to amounts that are
already scaled to minimum units.
-/

namespace Irishub.Asset
open Lib

/-- `AssetFamily`; a byte that names no family is kept. -/
inductive AssetFamily
  | fungible
  | unknown (b : ℕ)
  deriving DecidableEq

/-- `AssetSource`; a byte that names no source is kept. -/
inductive AssetSource
  | native
  | external
  | gateway
  | unknown (b : ℕ)
  deriving DecidableEq

def maximumAssetMaxSupply : ℕ := 1000000000000

def maximumAssetInitSupply : ℕ := 100000000000

def maximumAssetDecimal : ℕ := 18

def minimumAssetSymbolSize : ℕ := 3

def maximumAssetSymbolSize : ℕ := 8

def minimumAssetMinUnitAliasSize : ℕ := 3

def maximumAssetMinUnitAliasSize : ℕ := 10

def maximumAssetNameSize : ℕ := 32

def minimumGatewayMonikerSize : ℕ := 3

def maximumGatewayMonikerSize : ℕ := 8

def maximumGatewayIdentitySize : ℕ := 128

def maximumGatewayDetailsSize : ℕ := 280

def maximumGatewayWebsiteSize : ℕ := 128

def doNotModify : String := "[do-not-modify]"

/-- `[a-zA-Z]`. -/
def isAlpha (c : Char) : Bool := isLowerLetter c || ('A' ≤ c && c ≤ 'Z')

def isAlphaNumeric (s : String) : Bool :=
  s.toList ≠ [] && s.toList.all (fun c => isAlpha c || ('0' ≤ c && c ≤ '9'))

def isBeginWithAlpha (s : String) : Bool :=
  match s.toList with
  | [] => false
  | c :: _ => isAlpha c

def sizeWithin (s : String) (lo hi : ℕ) : Bool := lo ≤ byteLen s && byteLen s ≤ hi

def validateMoniker (moniker : String) : Outcome Unit := do
  require (sizeWithin moniker minimumGatewayMonikerSize maximumGatewayMonikerSize)
    .errInvalidMoniker
  require (isBeginWithAlpha moniker && isAlphaNumeric moniker) .errInvalidMoniker
  require (!contains (toLower moniker) iris) .errInvalidMoniker

/-- `GetTokenIDParts`: the text before the first period and the text after it. -/
def getTokenIDParts (id : String) : String × String :=
  let s := (toLower id).toList
  match s.dropWhile (· != '.') with
  | _ :: r => (String.ofList (s.takeWhile (· != '.')), String.ofList r)
  | [] => ("", String.ofList s)

/-- Prefix check of `CheckTokenID`. -/
def checkTokenPrefix (p : String) : Outcome Unit :=
  if p ≠ "" ∧ p ≠ "i" ∧ p ≠ "x" then validateMoniker p else .ok ()

def checkTokenID (id : String) : Outcome Unit := do
  let (p, symbol) := getTokenIDParts id
  checkTokenPrefix p
  require (sizeWithin symbol minimumAssetSymbolSize maximumAssetSymbolSize &&
    isBeginWithAlpha symbol && isAlphaNumeric symbol && !contains symbol iris)
    .errInvalidAssetSymbol

def getTokenID (source : AssetSource) (symbol gateway : String) : Outcome String :=
  match source with
  | .native => .ok (toLower ("i." ++ symbol))
  | .external => .ok (toLower ("x." ++ symbol))
  | .gateway => .ok (toLower (gateway ++ "." ++ symbol))
  | .unknown _ => fail .errInvalidAssetSource

/-- `FungibleToken` with its embedded `BaseToken`; amounts are in minimum units. -/
structure FungibleToken where
  id : String
  family : AssetFamily
  source : AssetSource
  gateway : String
  symbol : String
  name : String
  decimal : ℕ
  canonicalSymbol : String
  minUnitAlias : String
  initialSupply : ℤ
  maxSupply : ℤ
  mintable : Bool
  owner : Option Address
  deriving DecidableEq

def FungibleToken.getUniqueID (ft : FungibleToken) : String :=
  match ft.source with
  | .native => toLower ft.symbol
  | .external => toLower ("x." ++ ft.symbol)
  | .gateway => toLower (ft.gateway ++ "." ++ ft.symbol)
  | .unknown _ => ""

def FungibleToken.getDenom (ft : FungibleToken) : String := getCoinMinDenom ft.getUniqueID

/-- `NewBaseToken`; the identifier is filled in by `newFungibleToken`. -/
def newBaseToken (family : AssetFamily) (source : AssetSource) (gateway symbol name : String)
    (decimal : ℕ) (canonicalSymbol minUnitAlias : String) (initialSupply maxSupply : ℤ)
    (mintable : Bool) (owner : Option Address) : FungibleToken where
  id := ""
  family := family
  source := source
  gateway := toLower (trimSpace gateway)
  symbol := toLower (trimSpace symbol)
  name := trimSpace name
  decimal := decimal
  canonicalSymbol := toLower (trimSpace canonicalSymbol)
  minUnitAlias := toLower (trimSpace minUnitAlias)
  initialSupply := initialSupply
  maxSupply :=
    if maxSupply = 0 then (if mintable then int64OfUint64 maximumAssetMaxSupply else initialSupply)
    else maxSupply
  mintable := mintable
  owner := owner

def newFungibleToken (source : AssetSource) (gateway symbol name : String) (decimal : ℕ)
    (canonicalSymbol minUnitAlias : String) (initialSupply maxSupply : ℤ) (mintable : Bool)
    (owner : Option Address) : FungibleToken :=
  let token := newBaseToken .fungible source gateway symbol name decimal canonicalSymbol
    minUnitAlias initialSupply maxSupply mintable owner
  { token with id := token.getUniqueID }

structure Gateway where
  owner : Address
  moniker : String
  identity : String
  details : String
  website : String
  deriving DecidableEq

section

structure MsgIssueToken where
  family : AssetFamily
  source : AssetSource
  gateway : String
  symbol : String
  canonicalSymbol : String
  name : String
  decimal : ℕ
  minUnitAlias : String
  initialSupply : ℕ
  maxSupply : ℕ
  mintable : Bool
  owner : Option Address
  deriving DecidableEq

namespace MsgIssueToken

/-- Texts of `ValidateMsgIssueToken` after trimming. -/
def trim (msg : MsgIssueToken) : MsgIssueToken :=
  { msg with
    gateway := toLower (trimSpace msg.gateway)
    symbol := toLower (trimSpace msg.symbol)
    canonicalSymbol := toLower (trimSpace msg.canonicalSymbol)
    minUnitAlias := toLower (trimSpace msg.minUnitAlias)
    name := trimSpace msg.name }

/-- Maximal supply of `ValidateMsgIssueToken`, in main units. -/
def defaultMaxSupply (msg : MsgIssueToken) : MsgIssueToken :=
  { msg with
    maxSupply :=
      if msg.maxSupply = 0 then
        (if msg.mintable then maximumAssetMaxSupply else msg.initialSupply)
      else msg.maxSupply }

/-- Source check of `ValidateMsgIssueToken`. -/
def checkSource (msg : MsgIssueToken) : Outcome MsgIssueToken :=
  match msg.source with
  | .native => do
    require msg.owner.isSome .errNilAssetOwner
    return { msg with canonicalSymbol := "" }
  | .external => .ok msg
  | .gateway => do
    require (sizeWithin msg.gateway minimumGatewayMonikerSize maximumGatewayMonikerSize)
      .errInvalidMoniker
    return msg
  | .unknown _ => fail .errInvalidAssetSource

/-- Checks of `ValidateMsgIssueToken` after the source check. -/
def checkFields (msg : MsgIssueToken) : Outcome Unit := do
  require (msg.family = .fungible) .errInvalidAssetFamily
  require (sizeWithin msg.name 1 maximumAssetNameSize) .errInvalidAssetName
  require (sizeWithin msg.symbol minimumAssetSymbolSize maximumAssetSymbolSize &&
    isBeginWithAlpha msg.symbol && isAlphaNumeric msg.symbol) .errInvalidAssetSymbol
  require (!contains (toLower msg.symbol) iris) .errInvalidAssetSymbol
  require (byteLen msg.minUnitAlias = 0 ||
    (sizeWithin msg.minUnitAlias minimumAssetMinUnitAliasSize maximumAssetMinUnitAliasSize &&
      isAlphaNumeric msg.minUnitAlias && isBeginWithAlpha msg.minUnitAlias))
    .errInvalidAssetMinUnitAlias
  require (msg.initialSupply ≤ maximumAssetInitSupply) .errInvalidAssetInitSupply
  require (msg.initialSupply ≤ msg.maxSupply && msg.maxSupply ≤ maximumAssetMaxSupply)
    .errInvalidAssetMaxSupply
  require (msg.decimal ≤ maximumAssetDecimal) .errInvalidAssetDecimal

/-- `ValidateMsgIssueToken`, with the message as it leaves the function. -/
def validateMsgIssueToken (msg : MsgIssueToken) : Outcome MsgIssueToken := do
  let msg ← msg.trim.defaultMaxSupply.checkSource
  msg.checkFields
  return msg

/-- `MsgIssueToken.ValidateBasic`, which drops the changes made to its receiver. -/
def validateBasic (msg : MsgIssueToken) : Outcome Unit := do
  require (msg.source ≠ .external) .errInvalidAssetSource
  let _ ← msg.validateMsgIssueToken
  return ()

end MsgIssueToken
end

/-- `validateGatewayDesc`; `none` is a field that is not updated. -/
def validateGatewayDesc (identity details website : Option String) : Outcome Unit := do
  require (identity.all (byteLen · ≤ maximumGatewayIdentitySize)) .errInvalidIdentity
  require (details.all (byteLen · ≤ maximumGatewayDetailsSize)) .errInvalidDetails
  require (website.all (byteLen · ≤ maximumGatewayWebsiteSize)) .errInvalidWebsite

structure MsgCreateGateway where
  owner : Address
  moniker : String
  identity : String
  details : String
  website : String
  deriving DecidableEq

def MsgCreateGateway.validateBasic (msg : MsgCreateGateway) : Outcome Unit := do
  validateMoniker msg.moniker
  validateGatewayDesc (some msg.identity) (some msg.details) (some msg.website)

structure MsgEditGateway where
  owner : Address
  moniker : String
  identity : String
  details : String
  website : String
  deriving DecidableEq

/-- A field of an edit message, `none` if it is not to be modified. -/
def updated (field : String) : Option String := if field = doNotModify then none else some field

def MsgEditGateway.validateBasic (msg : MsgEditGateway) : Outcome Unit := do
  validateMoniker msg.moniker
  require ((updated msg.identity).isSome || (updated msg.details).isSome ||
    (updated msg.website).isSome) .errNoUpdatesProvided
  validateGatewayDesc (updated msg.identity) (updated msg.details) (updated msg.website)

structure MsgTransferGatewayOwner where
  owner : Address
  moniker : String
  toAddr : Address
  deriving DecidableEq

def MsgTransferGatewayOwner.validateBasic (msg : MsgTransferGatewayOwner) : Outcome Unit := do
  require (msg.toAddr ≠ msg.owner) .errInvalidToAddress
  validateMoniker msg.moniker

structure MsgTransferTokenOwner where
  srcOwner : Address
  dstOwner : Address
  tokenId : String
  deriving DecidableEq

def MsgTransferTokenOwner.validateBasic (msg : MsgTransferTokenOwner) : Outcome Unit := do
  require (msg.srcOwner ≠ msg.dstOwner) .errInvalidToAddress
  checkTokenID msg.tokenId

/-- `MsgEditToken`; `mintable` is the source's text type `Bool`, whose empty value `Nil` leaves
the flag as it is. -/
structure MsgEditToken where
  tokenId : String
  owner : Address
  canonicalSymbol : String
  minUnitAlias : String
  maxSupply : ℕ
  mintable : String
  name : String
  deriving DecidableEq

/-- `Bool.ToBool`: `strconv.ParseBool` with its error ignored. -/
def toBool (v : String) : Bool := v ∈ ["1", "t", "T", "TRUE", "true", "True"]

def MsgEditToken.validateBasic (msg : MsgEditToken) : Outcome Unit := do
  require (doNotModify = msg.name || byteLen msg.name ≤ maximumAssetNameSize) .errInvalidAssetName
  require (msg.maxSupply ≤ maximumAssetMaxSupply) .errInvalidAssetMaxSupply
  checkTokenID msg.tokenId
  require (doNotModify = msg.canonicalSymbol ||
    (sizeWithin msg.canonicalSymbol minimumAssetSymbolSize maximumAssetSymbolSize &&
      isAlphaNumeric msg.canonicalSymbol)) .errInvalidAssetCanonicalSymbol
  require (doNotModify = msg.minUnitAlias ||
    (sizeWithin msg.minUnitAlias minimumAssetMinUnitAliasSize maximumAssetMinUnitAliasSize &&
      isAlphaNumeric msg.minUnitAlias && isBeginWithAlpha msg.minUnitAlias))
    .errInvalidAssetMinUnitAlias

structure MsgMintToken where
  tokenId : String
  owner : Address
  toAddr : Option Address
  amount : ℕ
  deriving DecidableEq

def MsgMintToken.validateBasic (msg : MsgMintToken) : Outcome Unit := do
  require (0 < msg.amount && msg.amount ≤ maximumAssetMaxSupply) .errInvalidAssetMaxSupply
  checkTokenID msg.tokenId

end Irishub.Asset
