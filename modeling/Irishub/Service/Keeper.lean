import Irishub.Service.Types

/-!
# Service: keeper, handlers and end blocker

`service/keeper.go`, `handler.go` and `abci.go` with explicit state passing. A
function that returns an error or panics leaves no state: the transaction is
rolled back, and in `endBlocker` a panic stops the node.
-/

namespace Irishub.Service
open Lib

/-- Stores of the module, the bank, and the header of the block in progress. -/
structure State where
  bank : Bank
  params : Params
  definitions : Store String SvcDef
  methods : Store String MethodProperty
  bindings : Store String SvcBinding
  requests : Store String SvcRequest
  activeRequests : Store String SvcRequest
  requestsByExpiration : Store ExpirationKey SvcRequest
  responses : Store String SvcResponse
  returnedFees : Store Address Coins
  incomingFees : Store Address Coins
  intraTxCounter : ℤ
  height : ℤ
  blockTime : ℤ
  deriving DecidableEq

section
variable (s : State)

def State.getServiceDefinition (chainId name : String) : Option SvcDef :=
  s.definitions.get (getServiceDefinitionKey chainId name)

def State.addServiceDefinition (svcDef : SvcDef) : State :=
  { s with
    definitions := s.definitions.set (getServiceDefinitionKey svcDef.chainId svcDef.name) svcDef }

def methodPrivacy (method : IdlMethod) : Outcome OutputPrivacyEnum :=
  match method.attributes.lookup "output_privacy" with
  | none => .ok .noPrivacy
  | some v => (outputPrivacyEnumFromString v).elim (fail .errInvalidOutputPrivacyEnum) .ok

/-- Caching of a method. The source tests the wrong error variable here, so that an
undefined value is kept. -/
def methodCaching (method : IdlMethod) : OutputCachedEnum :=
  match method.attributes.lookup "output_cached" with
  | none => .noCached
  | some v => (outputCachedEnumFromString v).getD .invalid

def methodToMethodProperty (index : ℕ) (method : IdlMethod) : Outcome MethodProperty := do
  let opp ← methodPrivacy method
  return { id := toInt16 index
           name := method.name
           description := (method.attributes.lookup "description").getD ""
           outputPrivacy := opp
           outputCached := methodCaching method }

/-- Loop of `AddMethods`; method numbers begin at one. -/
def State.addMethodsFrom (svcDef : SvcDef) (index : ℕ) : State → List IdlMethod → Outcome State
  | s, [] => .ok s
  | s, method :: methods => do
    let methodProperty ← methodToMethodProperty index method
    let key := getMethodPropertyKey svcDef.chainId svcDef.name methodProperty.id
    addMethodsFrom svcDef (index + 1) { s with methods := s.methods.set key methodProperty }
      methods

def State.addMethods (env : Env) (svcDef : SvcDef) : Outcome State := do
  let methods ← (env.getMethods svcDef.idlContent).elim (raise .returnedError) .ok
  s.addMethodsFrom svcDef 1 methods

def State.getMethod (chainId name : String) (id : ℤ) : Option MethodProperty :=
  s.methods.get (getMethodPropertyKey chainId name id)

/-- `GetMethods`: the entries under the prefix of the service. -/
def State.getMethods (chainId name : String) : List MethodProperty :=
  (s.methods.entries.filter
    (fun e => hasPrefix e.1 (getMethodsSubspaceKey chainId name))).map Prod.snd

def State.handleMsgSvcDef (env : Env) (msg : MsgSvcDef) : Outcome State := do
  require (s.getServiceDefinition msg.chainId msg.name).isNone .errSvcDefExists
  (s.addServiceDefinition msg.toSvcDef).addMethods env msg.toSvcDef

end

section
variable (s : State) (env : Env)

def SvcBinding.key (b : SvcBinding) : String :=
  getServiceBindingKey env b.defChainID b.defName b.bindChainID b.provider

def BindingRef.key (ref : BindingRef) : String :=
  getServiceBindingKey env ref.defChainID ref.defName ref.bindChainID ref.provider

def State.getServiceBinding (defChainID defName bindChainID : String) (provider : Address) :
    Option SvcBinding :=
  s.bindings.get (getServiceBindingKey env defChainID defName bindChainID provider)

/-- `ServiceBindingsIterator`: the entries under the prefix of the service. -/
def State.serviceBindingsIterator (defChainID defName : String) : List SvcBinding :=
  (s.bindings.entries.filter
    (fun e => hasPrefix e.1 (getBindingsSubspaceKey defChainID defName))).map Prod.snd

def State.mustGetBinding (ref : BindingRef) : Outcome SvcBinding :=
  (s.bindings.get (ref.key env)).elim (fail .errSvcBindingNotExists) .ok

def State.setBinding (b : SvcBinding) : State :=
  { s with bindings := s.bindings.set (b.key env) b }

/-- `getMinDeposit`: the sum of the prices times the deposit multiple. -/
def getMinDeposit (params : Params) (prices : List Coin) : Outcome Coins :=
  prices.foldlM (fun (minDeposit : Coins) price => do
    require (bitLen price.amount + bitLen params.minDepositMultiple - 1 ≤ 255) .codeIntOverflow
    let minInt ← SdkInt.mul price.amount params.minDepositMultiple
    let coin ← Coin.newCoin price.denom minInt
    minDeposit.add [coin]) []

def State.validateMethodPrices (defChainID defName : String) (prices : List Coin) : Outcome Unit :=
  require ((s.getMethods defChainID defName).length == prices.length) .errInvalidPriceCount

/-- `SendCoins` of the bank keeper. -/
def State.sendCoins (fromAddr toAddr : Address) (amt : Coins) : Outcome State := do
  let bank ← s.bank.sendCoins fromAddr toAddr amt
  return { s with bank := bank }

def BindingRef.newSvcBinding (ref : BindingRef) (bindingType : BindingType) (deposit : Coins)
    (prices : List Coin) (level : Level) (available : Bool) (disableTime : ℤ) : SvcBinding where
  defName := ref.defName
  defChainID := ref.defChainID
  bindChainID := ref.bindChainID
  provider := ref.provider
  bindingType := bindingType
  deposit := deposit
  prices := prices
  level := level
  available := available
  disableTime := disableTime

def State.addServiceBinding (b : SvcBinding) : Outcome State := do
  require (s.getServiceDefinition b.defChainID b.defName).isSome .errSvcDefNotExists
  require (s.bindings.get (b.key env)).isNone .errSvcBindingExists
  let minDeposit ← getMinDeposit s.params b.prices
  require (b.deposit.isAllGTE minDeposit) .errLtMinProviderDeposit
  s.validateMethodPrices b.defChainID b.defName b.prices
  let s ← s.sendCoins b.provider serviceDepositCoinsAccAddr b.deposit
  return s.setBinding env { b with disableTime := zeroTime }

def State.handleMsgSvcBind (msg : MsgSvcBind) : Outcome State :=
  s.addServiceBinding env (msg.toBindingRef.newSvcBinding msg.bindingType msg.deposit msg.prices
    msg.level true s.blockTime)

def addDeposit (deposit added : Coins) : Outcome Coins :=
  if added.isAnyNegative then .ok deposit else deposit.add added

/-- Comparison of a deposit with the min deposit of some prices. The coins of the error are
computed before it is returned. -/
def checkMinDeposit (params : Params) (prices : List Coin) (deposit added : Coins) :
    Outcome Unit := do
  let minDeposit ← getMinDeposit params prices
  if deposit.isAllGTE minDeposit then .ok ()
  else do
    let missing ← minDeposit.sub deposit
    let _ ← missing.add added
    fail .errLtMinProviderDeposit

def Level.update (old new : Level) : Level where
  avgRspTime := if new.avgRspTime ≠ 0 then new.avgRspTime else old.avgRspTime
  usableTime := if new.usableTime ≠ 0 then new.usableTime else old.usableTime

def State.updatedPrices (msg : MsgSvcBindingUpdate) (old : List Coin) : Outcome (List Coin) :=
  if msg.prices = [] then .ok old
  else do
    s.validateMethodPrices msg.defChainID msg.defName msg.prices
    return msg.prices

/-- Binding after an update. -/
def SvcBinding.update (old : SvcBinding) (msg : MsgSvcBindingUpdate) (prices : List Coin)
    (deposit : Coins) : SvcBinding :=
  { old with
    prices := prices
    bindingType := if msg.bindingType = .unset then old.bindingType else msg.bindingType
    deposit := deposit
    level := old.level.update msg.level }

/-- `UpdateServiceBinding`. The deposit is compared with the min deposit only if the binding is
available. -/
def State.updateServiceBinding (msg : MsgSvcBindingUpdate) : Outcome State := do
  let old ← s.mustGetBinding env msg.toBindingRef
  let prices ← s.updatedPrices msg old.prices
  let deposit ← addDeposit old.deposit msg.deposit
  let s ← s.sendCoins msg.provider serviceDepositCoinsAccAddr msg.deposit
  if old.available then checkMinDeposit s.params prices deposit msg.deposit
  return { s with
    bindings := s.bindings.set (msg.toBindingRef.key env) (old.update msg prices deposit) }

def State.disable (msg : MsgSvcDisable) : Outcome State := do
  let b ← s.mustGetBinding env msg.toBindingRef
  require b.available .errDisable
  return s.setBinding env { b with available := false, disableTime := s.blockTime }

def State.enable (msg : MsgSvcEnable) : Outcome State := do
  let b ← s.mustGetBinding env msg.toBindingRef
  require (!b.available) .errEnable
  let deposit ← addDeposit b.deposit msg.deposit
  checkMinDeposit s.params b.prices deposit msg.deposit
  let s ← s.sendCoins b.provider serviceDepositCoinsAccAddr msg.deposit
  return s.setBinding env { b with deposit := deposit, available := true, disableTime := zeroTime }

def State.refundDeposit (msg : MsgSvcRefundDeposit) : Outcome State := do
  let b ← s.mustGetBinding env msg.toBindingRef
  require (!b.available) .errRefundDeposit
  require (!b.deposit.isZero) .errRefundDeposit
  require (b.disableTime + s.params.arbitrationTimeLimit + s.params.complaintRetrospect ≤
    s.blockTime) .errRefundDeposit
  let s ← s.sendCoins serviceDepositCoinsAccAddr b.provider b.deposit
  return s.setBinding env { b with deposit := [] }

end

section
variable (s : State) (env : Env)

def State.addActiveRequest (req : SvcRequest) : State :=
  { s with activeRequests := s.activeRequests.set (getRequestKey env req) req }

def State.deleteActiveRequest (req : SvcRequest) : State :=
  { s with activeRequests := s.activeRequests.delete (getRequestKey env req) }

def State.addRequestExpiration (req : SvcRequest) : State :=
  { s with requestsByExpiration :=
      s.requestsByExpiration.set (getRequestsByExpirationIndexKeyByReq req) req }

def State.deleteRequestExpiration (req : SvcRequest) : State :=
  { s with requestsByExpiration :=
      s.requestsByExpiration.delete (getRequestsByExpirationIndexKeyByReq req) }

/-- `GetActiveRequest`, which reads the expiration index. -/
def State.getActiveRequest (eHeight rHeight counter : ℤ) : Option SvcRequest :=
  s.requestsByExpiration.get (getRequestsByExpirationIndexKey eHeight rHeight counter)

/-- `AddRequest`. Heights are not bounded here: where the sum leaves the `int64` heights the code
wraps, and the results about identifiers and keys name the bound `2 ^ 63` for the expiration
height. -/
def State.addRequest (req : SvcRequest) : Outcome State := do
  let req := { req with
    requestHeight := s.height
    requestIntraTxCounter := s.intraTxCounter
    expirationHeight := s.height + s.params.maxRequestTimeout }
  let s := { s with
    intraTxCounter := toInt16 (s.intraTxCounter + 1)
    requests := s.requests.set (getRequestKey env req) req }
  let s ← s.sendCoins req.consumer serviceRequestCoinsAccAddr req.serviceFee
  return (s.addActiveRequest env req).addRequestExpiration req

def methodPrice (prices : List Coin) (methodID : ℤ) : Outcome (Option Coin) :=
  if methodID ≤ prices.length then
    if methodID < 1 then raise .indexOutOfRange else .ok prices[methodID.toNat - 1]?
  else .ok none

def State.handleMsgSvcRequest (msg : MsgSvcRequest) : Outcome State := do
  let b ← s.mustGetBinding env msg.toBindingRef
  require b.available .errSvcBindingNotAvailable
  require (s.getMethod msg.defChainID msg.defName msg.methodID).isSome .errMethodNotExists
  require (!msg.profiling || env.isProfiler msg.consumer) .errNotProfiler
  let price ← methodPrice b.prices msg.methodID
  require (price.all (fun p => msg.serviceFee.isAllGTE [p])) .errLtServiceFee
  s.addRequest env
    { defChainID := msg.defChainID
      defName := msg.defName
      bindChainID := msg.bindChainID
      reqChainID := msg.reqChainID
      methodID := msg.methodID
      provider := msg.provider
      consumer := msg.consumer
      -- the fee is the price, and a profiler pays nothing
      serviceFee := if msg.profiling then [] else price.toList
      profiling := msg.profiling
      requestHeight := 0
      requestIntraTxCounter := 0
      expirationHeight := 0 }

def State.addResponse (resp : SvcResponse) : State :=
  { s with responses := s.responses.set (getResponseKey resp) resp }

end

section
variable (s : State) (env : Env)

/-- Loop that takes a share of each coin, in the order of the denominations. -/
def shareOf (fraction : Dec) (coins : Coins) : Outcome Coins := do
  let shares ← coins.foldlM (fun (shares : Coins) coin => do
    let product ← (Dec.newDecFromInt coin.amount).mul fraction
    let amount ← product.truncateInt
    let share ← Coin.newCoin coin.denom amount
    return shares ++ [share]) []
  return shares.insertionSort (fun c d => c.denom ≤ d.denom)

def State.addReturnFee (address : Address) (coins : Coins) : Outcome State :=
  match s.returnedFees.get address with
  | none => .ok { s with returnedFees := s.returnedFees.set address coins }
  | some fee => do
    let sum ← fee.add coins
    return { s with returnedFees := s.returnedFees.set address sum }

def State.refundFee (address : Address) : Outcome State := do
  let fee ← (s.returnedFees.get address).elim (fail .errReturnFeeNotExists) .ok
  let s ← s.sendCoins serviceRequestCoinsAccAddr address fee
  return { s with returnedFees := s.returnedFees.delete address }

def State.addIncomingFee (address : Address) (coins : Coins) : Outcome State := do
  let taxCoins ← shareOf s.params.serviceFeeTax coins
  let s ← s.sendCoins serviceRequestCoinsAccAddr serviceTaxCoinsAccAddr taxCoins
  let (incomingFee, hasNeg) ← coins.safeSub taxCoins
  require (!hasNeg) .errInsufficientFunds
  let sum ← ((s.incomingFees.get address).getD []).add incomingFee
  return { s with incomingFees := s.incomingFees.set address sum }

def State.withdrawFee (address : Address) : Outcome State := do
  let fee ← (s.incomingFees.get address).elim (fail .errWithdrawFeeNotExists) .ok
  let s ← s.sendCoins serviceRequestCoinsAccAddr address fee
  return { s with incomingFees := s.incomingFees.delete address }

def State.handleMsgSvcResponse (msg : MsgSvcResponse) : Outcome State := do
  let (eHeight, rHeight, counter) := (convertRequestID msg.requestID).getD (0, 0, 0)
  let req ← (s.getActiveRequest eHeight rHeight counter).elim (fail .errRequestNotActive) .ok
  require (msg.provider == req.provider) .errNotMatchingProvider
  require (req.reqChainID == msg.reqChainID) .errNotMatchingReqChainID
  let s := s.addResponse
    { reqChainID := msg.reqChainID
      expirationHeight := eHeight
      requestHeight := rHeight
      requestIntraTxCounter := counter
      provider := msg.provider
      consumer := req.consumer }
  let s := (s.deleteActiveRequest env req).deleteRequestExpiration req
  s.addIncomingFee msg.provider req.serviceFee

def State.handleMsgSvcWithdrawTax (msg : MsgSvcWithdrawTax) : Outcome State := do
  require (env.isTrustee msg.trustee) .errNotTrustee
  s.sendCoins serviceTaxCoinsAccAddr msg.destAddress msg.amount

end

section
variable (s : State) (env : Env)

def State.slash (b : SvcBinding) (slashCoins : Coins) : Outcome State := do
  let (deposit, hasNeg) ← b.deposit.safeSub slashCoins
  assert (!hasNeg) .slashExceedsDeposit
  let minDeposit ← getMinDeposit s.params b.prices
  let b := { b with deposit := deposit }
  if deposit.isAllGTE minDeposit then return s.setBinding env b
  else return s.setBinding env { b with available := false, disableTime := s.blockTime }

/-- Slash of the provider of a timed out request. A binding that is not found has the zero
value and no deposit. -/
def State.slashProvider (req : SvcRequest) : Outcome State :=
  if req.profiling then .ok s
  else do
    let b := (s.getServiceBinding env req.defChainID req.defName req.bindChainID
      req.provider).getD .zero
    let slashCoins ← shareOf s.params.slashFraction b.deposit
    let bank ← panicOnError (s.bank.burnCoins serviceDepositCoinsAccAddr slashCoins)
    panicOnError ({ s with bank := bank }.slash env b slashCoins)

/-- One iteration of the loop of `EndBlocker`. -/
def State.timeout (req : SvcRequest) : Outcome State := do
  let s ← s.slashProvider env req
  let s ← s.addReturnFee req.consumer req.serviceFee
  return (s.deleteActiveRequest env req).deleteRequestExpiration req

/-- `ActiveRequestQueueIterator`: the requests that expire at a height. -/
def State.activeRequestQueue (height : ℤ) : List SvcRequest :=
  (s.requestsByExpiration.entries.filter
    (fun e => (ofLex e.1).1 == toUint 64 height)).map Prod.snd

def State.endBlocker : Outcome State :=
  let s := { s with intraTxCounter := 0 }
  (s.activeRequestQueue s.height).foldlM (fun s req => s.timeout env req) s

end

/-- `NewHandler`. -/
def State.handle (env : Env) (s : State) : SvcMsg → Outcome State
  | .define msg => s.handleMsgSvcDef env msg
  | .bind msg => s.handleMsgSvcBind env msg
  | .updateBinding msg => s.updateServiceBinding env msg
  | .disable msg => s.disable env msg
  | .enable msg => s.enable env msg
  | .refundDeposit msg => s.refundDeposit env msg
  | .request msg => s.handleMsgSvcRequest env msg
  | .respond msg => s.handleMsgSvcResponse env msg
  | .refundFees msg => s.refundFee msg.consumer
  | .withdrawFees msg => s.withdrawFee msg.provider
  | .withdrawTax msg => s.handleMsgSvcWithdrawTax env msg

end Irishub.Service
