import Irishub.Bank.Keeper
import Irishub.BaseApp.Gas

/-!
# Ante handlers and fees

The three ante handlers of the protocol in their order (`auth/ante.go`,
`bank/ante.go`, `asset/internal/keeper/ante.go`), the fee check before them and
the fee refund after the messages (`auth/feeauth.go`).

`App` collects what the handlers take from elsewhere: the methods of the message
types, the message handlers, the verification of a signature, the matching of a
regular expression, and the gas a store access costs, which depends on the
encoding of the stored values. The stores no function of this module touches
are the component `rest` of the multistore.
-/

namespace Irishub.BaseApp
open Lib

section

/-- Public keys of accounts; a threshold key has keys below it. -/
inductive PubKey
  | ed25519 (bytes : ℕ)
  | secp256k1 (bytes : ℕ)
  | multisigThreshold (k : ℕ) (pubKeys : List PubKey)
  | unrecognized (bytes : ℕ)

/-- Signatures, a multisignature in its decoded form. -/
inductive Signature
  | bytes (bytes : ℕ)
  | multisignature (bitArray : List Bool) (sigs : List Signature)

structure StdSignature where
  pubKey : Option PubKey
  signature : Signature
  accountNumber : ℕ
  sequence : ℕ

structure StdFee where
  amount : Coins
  gas : ℕ

structure StdTx (Msg : Type) where
  msgs : List Msg
  fee : StdFee
  signatures : List StdSignature
  memo : String

/-- Arguments of `StdSignBytes`. -/
structure StdSignDoc (Msg : Type) where
  chainID : String
  accountNumber : ℕ
  sequence : ℕ
  fee : StdFee
  msgs : List Msg
  memo : String

/-- Test of the fee in `runTx`. -/
def StdFee.Valid (fee : StdFee) : Prop := fee.amount = [] ∨ fee.amount.isValidIrisAtto = true

instance (fee : StdFee) : Decidable fee.Valid := inferInstanceAs (Decidable (_ ∨ _))

lemma StdFee.Valid.sorted {fee : StdFee} (h : fee.Valid) : fee.amount.Sorted := by
  rcases h with h | h
  · rw [h]
    exact List.Pairwise.nil
  · match hamount : fee.amount with
    | [] => exact List.Pairwise.nil
    | [_] => exact List.pairwise_singleton _ _
    | _ :: _ :: _ =>
      rw [hamount] at h
      exact absurd h (by simp [Coins.isValidIrisAtto])

mutual

def countSubKeys : PubKey → ℕ
  | .multisigThreshold _ pubKeys => countAllSubKeys pubKeys
  | _ => 1

/-- Loop of `countSubKeys` over the keys of a threshold key. -/
def countAllSubKeys : List PubKey → ℕ
  | [] => 0
  | k :: ks => countSubKeys k + countAllSubKeys ks

end

def maxMemoCharacters : ℕ := 100

def txSigLimit : ℕ := 7

end

section

/-- What an account record holds besides its address and coins. -/
structure AccountInfo where
  accountNumber : ℕ
  sequence : ℕ
  pubKey : Option PubKey
  memoRegexp : String

/-- `BaseAccount`. -/
structure Account extends AccountInfo where
  address : Address
  coins : StoredCoins

/-- `auth.Params`. -/
structure AuthParams where
  gasPriceThreshold : ℤ
  txSizeLimit : ℕ

/-- Stores of the application. -/
structure MultiStore (ρ : Type) where
  bank : Bank
  accountInfo : Store Address AccountInfo
  collectedFees : StoredCoins
  authParams : AuthParams
  /-- Size limit among the parameters of `service`. -/
  serviceTxSizeLimit : ℕ
  rest : ρ

variable {ρ : Type}

def MultiStore.getAccount (s : MultiStore ρ) (addr : Address) : Option Account :=
  (s.accountInfo.get addr).map
    (fun info => { toAccountInfo := info, address := addr, coins := s.bank.getCoins addr })

def MultiStore.setAccount (s : MultiStore ρ) (acc : Account) : MultiStore ρ :=
  { s with
    bank := s.bank.setCoins acc.address acc.coins
    accountInfo := s.accountInfo.set acc.address acc.toAccountInfo }

/-- Accesses of this module to metered stores. -/
inductive StoreAccess
  | getAccount (addr : Address)
  | setAccount (addr : Address)
  | getCollectedFees
  | setCollectedFees
  | getParamSet
  | getTxSizeLimit
  | getServiceTxSizeLimit

/-- `sdk.Context` without its store and its gas meters. -/
structure Context where
  height : ℕ
  chainID : String
  signers : List Account

end

abbrev Handler (Msg ρ : Type) := Context → MultiStore ρ → Msg → Metered (MultiStore ρ)

structure App (Msg ρ : Type) where
  msgRoute : Msg → String
  validateBasic : Msg → Option SdkError
  getSigners : Msg → List Address
  /-- Recipients of a bank send message. -/
  sendOutputs : Msg → List Address
  /-- Fee of an asset message. -/
  assetFee : MultiStore ρ → Msg → Metered Coin
  route : String → Option (Handler Msg ρ)
  pubKeyAddress : PubKey → Address
  verifyBytes : PubKey → StdSignDoc Msg → Signature → Bool
  matchString : String → String → Bool
  /-- Successive amounts of gas an access consumes. -/
  storeGas : MultiStore ρ → StoreAccess → List ℕ

section
variable {Msg ρ : Type} (app : App Msg ρ)

def chargeAccess (store : MultiStore ρ) (access : StoreAccess) : Metered Unit :=
  (app.storeGas store access).foldlM (fun _ amount => consumeGas amount) ()

/-- `StdTx.GetSigners`: the signers of the messages without repetitions. -/
def StdTx.getSigners (tx : StdTx Msg) : List Address :=
  (tx.msgs.flatMap app.getSigners).foldl
    (fun signers addr => if addr ∈ signers then signers else signers ++ [addr]) []

/-- Signature count of `StdTx.ValidateBasic`; a missing key counts as one. -/
def StdTx.sigCount (tx : StdTx Msg) : ℕ :=
  (tx.signatures.map (fun sig => sig.pubKey.elim 1 countSubKeys)).sum

def StdTx.validateBasic (tx : StdTx Msg) : Outcome Unit := do
  require (!tx.fee.amount.isAnyNegative) .errInsufficientFee
  require (!tx.signatures.isEmpty) .errUnauthorized
  require (tx.signatures.length == (tx.getSigners app).length) .errUnauthorized
  require (byteLen tx.memo ≤ maxMemoCharacters) .errMemoTooLarge
  require (tx.sigCount ≤ txSigLimit) .errTooManySignatures

def getSignerAccs (store : MultiStore ρ) : List Address → Metered (List Account)
  | [] => pure []
  | addr :: addrs => do
    chargeAccess app store (.getAccount addr)
    let acc ← Run.lift ((store.getAccount addr).elim (fail .errUnknownAddress) .ok)
    let accs ← getSignerAccs store addrs
    return acc :: accs

def validateAccNumAndSequence (height : ℕ) (accs : List Account) (sigs : List StdSignature) :
    Outcome Unit :=
  (accs.zip sigs).foldlM (fun _ p => do
    require (height != 0 || p.2.accountNumber == 0) .errInvalidSequence
    require (height == 0 || p.1.accountNumber == p.2.accountNumber) .errInvalidSequence
    require (p.1.sequence == p.2.sequence) .errInvalidSequence) ()

def deductFees (acc : Account) (fee : StdFee) (hfee : fee.Valid) : Outcome Account := do
  let newCoins ← acc.coins.sub fee.amount hfee.sorted (.error .errInsufficientFunds)
  return { acc with coins := newCoins }

def addCollectedFees (store : MultiStore ρ) (fee : StdFee) (hfee : fee.Valid) :
    Metered (MultiStore ρ) := do
  chargeAccess app store .getCollectedFees
  let newCoins ← Run.lift (store.collectedFees.add fee.amount hfee.sorted)
  chargeAccess app store .setCollectedFees
  return { store with collectedFees := newCoins }

/-- Part of the ante handler in which the first signer pays the fees. -/
def payFees (store : MultiStore ρ) (accs : List Account) (fee : StdFee) (hfee : fee.Valid) :
    Metered (List Account × MultiStore ρ) :=
  if fee.amount.isZero then pure (accs, store)
  else
    match accs with
    | [] => Run.lift (raise .indexOutOfRange)
    | acc :: accs => do
      let acc ← Run.lift (deductFees acc fee hfee)
      let store ← addCollectedFees app store fee hfee
      return (acc :: accs, store)

def processPubKey (acc : Account) (sig : StdSignature) : Outcome PubKey :=
  match acc.pubKey, sig.pubKey with
  | some pubKey, _ => .ok pubKey
  | none, none => fail .errInvalidPubKey
  | none, some pubKey =>
    if app.pubKeyAddress pubKey = acc.address then .ok pubKey else fail .errInvalidPubKey

mutual

def consumeSignatureVerificationGas : PubKey → Signature → Metered (Option SdkError)
  | .ed25519 _, _ => do
    consumeGas 59
    return none
  | .secp256k1 _, _ => do
    consumeGas 100
    return none
  | .multisigThreshold _ pubKeys, .multisignature bitArray sigs => do
    consumeMultisignatureVerificationGas pubKeys bitArray sigs
    return none
  | .multisigThreshold _ _, .bytes _ => Run.lift (raise .unmarshal)
  | .unrecognized _, _ => return some .errInvalidPubKey

/-- `consumeMultisignatureVerificationGas`, which ignores the results for the keys below. -/
def consumeMultisignatureVerificationGas : List PubKey → List Bool → List Signature → Metered Unit
  | [], bitArray, _ => if bitArray.any id then Run.lift (raise .indexOutOfRange) else pure ()
  | _ :: _, [], _ => pure ()
  | _ :: pubKeys, false :: bitArray, sigs =>
    consumeMultisignatureVerificationGas pubKeys bitArray sigs
  | _ :: _, true :: _, [] => Run.lift (raise .indexOutOfRange)
  | pubKey :: pubKeys, true :: bitArray, sig :: sigs => do
    let _ ← consumeSignatureVerificationGas pubKey sig
    consumeMultisignatureVerificationGas pubKeys bitArray sigs

end

def processSig (ctx : Context) (tx : StdTx Msg) (acc : Account) (sig : StdSignature) :
    Metered Account := do
  let pubKey ← Run.lift (processPubKey app acc sig)
  let res ← consumeSignatureVerificationGas pubKey sig.signature
  Run.lift (res.elim (.ok ()) fail)
  let signDoc : StdSignDoc Msg :=
    { chainID := ctx.chainID, accountNumber := sig.accountNumber, sequence := sig.sequence,
      fee := tx.fee, msgs := tx.msgs, memo := tx.memo }
  Run.lift (require (app.verifyBytes pubKey signDoc sig.signature) .errUnauthorized)
  return { acc with pubKey := some pubKey, sequence := (acc.sequence + 1) % 2 ^ 64 }

/-- Loop of the ante handler over the signatures. -/
def processSigs (ctx : Context) (tx : StdTx Msg) (store : MultiStore ρ) :
    List (Account × StdSignature) → Metered (List Account × MultiStore ρ)
  | [] => pure ([], store)
  | (acc, sig) :: rest => do
    let acc ← processSig app ctx tx acc sig
    chargeAccess app store (.setAccount acc.address)
    let (accs, store) ← processSigs ctx tx (store.setAccount acc) rest
    return (acc :: accs, store)

/-- Body of the `auth` ante handler after its gas meter is set. -/
def authChecks (ctx : Context) (store : MultiStore ρ) (tx : StdTx Msg) (hfee : tx.fee.Valid) :
    Metered (List Account × MultiStore ρ) := do
  Run.lift (tx.validateBasic app)
  let signerAccs ← getSignerAccs app store (tx.getSigners app)
  Run.lift (validateAccNumAndSequence ctx.height signerAccs tx.signatures)
  let (signerAccs, store) ← payFees app store signerAccs tx.fee hfee
  processSigs app ctx tx store (signerAccs.zip tx.signatures)

def setGasMeter (height gasLimit : ℕ) : GasMeter :=
  if height = 0 then .newInfiniteGasMeter else .newGasMeter gasLimit

/-- A response code. -/
inductive Code
  | ok
  | error (e : SdkError)
  deriving DecidableEq

structure Result where
  code : Code
  gasWanted : ℕ
  gasUsed : ℕ
  deriving DecidableEq

/-- Zero value of `Result`. -/
def Result.zero : Result := ⟨.ok, 0, 0⟩

/-- `Error.Result`. -/
def Result.ofError (e : SdkError) : Result := ⟨.error e, 0, 0⟩

/-- Values an ante handler returns; `newCtx` comes with its gas meter and is `none` for the
zero context. A handler may also abort with the zero context and the result of an error, by
stopping with that error. -/
inductive AnteReturn (ρ : Type)
  | next (newCtx : Option (Context × GasMeter)) (store : MultiStore ρ) (result : Result)
  | abort (newCtx : Option (Context × GasMeter)) (result : Result)

abbrev AnteHandler (ρ : Type) := Context → MultiStore ρ → Metered (AnteReturn ρ)

/-- Ante handler of `auth`, which recovers from its own lack of gas only. -/
def authAnteHandler (ctx : Context) (store : MultiStore ρ) (tx : StdTx Msg)
    (hfee : tx.fee.Valid) : Metered (AnteReturn ρ) :=
  let (outcome, meter) := authChecks app ctx store tx hfee (setGasMeter ctx.height tx.fee.gas)
  match outcome with
  | .ok (signerAccs, store) =>
    pure (.next (some ({ ctx with signers := signerAccs }, meter)) store
      { Result.zero with gasWanted := tx.fee.gas })
  | .error (.error e) => pure (.abort (some (ctx, meter)) (.ofError e))
  | .error (.panic .errorOutOfGas) =>
    pure (.abort (some (ctx, meter))
      { code := .error .errOutOfGas, gasWanted := tx.fee.gas, gasUsed := meter.consumed })
  | .error (.panic p) => Run.lift (raise p)

def checkingAnteHandler (checks : Metered Unit) (store : MultiStore ρ) :
    Metered (AnteReturn ρ) := do
  checks
  return .next none store .zero

/-- Checks of the ante handler of `bank`: the memo satisfies the rule of each recipient. -/
def bankChecks (store : MultiStore ρ) (tx : StdTx Msg) : Metered Unit :=
  (tx.msgs.flatMap app.sendOutputs).foldlM (fun _ addr => do
    chargeAccess app store (.getAccount addr)
    let memoRegexp := ((store.getAccount addr).map (·.memoRegexp)).getD ""
    Run.lift (require (memoRegexp == "" || app.matchString memoRegexp tx.memo) .errInvalidMemo)) ()

def assetRoute : String := "asset"

/-- Checks of the ante handler of `asset`: the payer can pay the fees of the asset messages
at the head of the transaction. -/
def assetChecks (ctx : Context) (store : MultiStore ρ) (tx : StdTx Msg) : Metered Unit :=
  match ctx.signers with
  | [] => Run.lift (fail .errSignersMissingInContext)
  | payer :: _ => do
    let totalFee ← (tx.msgs.takeWhile (fun msg => app.msgRoute msg == assetRoute)).foldlM
      (fun (totalFee : Coins) msg => do
        let msgFee ← app.assetFee store msg
        Run.lift (totalFee.add [msgFee])) []
    Run.lift (require (payer.coins.coins.isAllGTE totalFee) .errInsufficientCoins)

/-- `GetAnteHandlers`. -/
def anteHandlers (tx : StdTx Msg) (hfee : tx.fee.Valid) : List (AnteHandler ρ) :=
  [fun ctx store => authAnteHandler app ctx store tx hfee,
   fun _ store => checkingAnteHandler (bankChecks app store tx) store,
   fun ctx store => checkingAnteHandler (assetChecks app ctx store tx) store]

end

section
variable {Msg ρ : Type} (app : App Msg ρ)

def getFee (coins : Coins) : Outcome Coin :=
  if coins = [] then .ok ⟨irisAtto, 0⟩ else Coin.newCoin irisAtto (coins.amountOf irisAtto)

def checkFee (params : AuthParams) (fee : Coin) (gasLimit : ℕ) : Outcome Unit := do
  require (0 < int64OfUint64 gasLimit) .errInvalidGas
  let gasPrice ← SdkInt.div fee.amount (int64OfUint64 gasLimit)
  if gasPrice < params.gasPriceThreshold then do
    -- the recommended fee is computed for the message of the error
    let _ ← SdkInt.mul (int64OfUint64 gasLimit) params.gasPriceThreshold
    fail .errGasPriceTooLow
  else .ok ()

/-- `NewFeePreprocessHandler`. -/
def feePreprocessHandler (store : MultiStore ρ) (tx : StdTx Msg) : Metered Unit := do
  let fee ← Run.lift (getFee tx.fee.amount)
  chargeAccess app store .getParamSet
  Run.lift (checkFee store.authParams fee tx.fee.gas)

def refundCollectedFees (store : MultiStore ρ) (refundCoin : Coin) : Outcome (MultiStore ρ) := do
  let newCoins ← store.collectedFees.sub [refundCoin] (Coins.sorted_singleton refundCoin)
    (.panic .negativeCoinAmount)
  return { store with collectedFees := newCoins }

/-- Refund to the first signer. -/
def refundTo (store : MultiStore ρ) (addr : Address) (refundCoin : Coin) :
    Outcome (MultiStore ρ) := do
  let acc ← (store.getAccount addr).elim (raise .nilPointer) .ok
  let coins ← acc.coins.add [refundCoin] (Coins.sorted_singleton refundCoin)
  refundCollectedFees (store.setAccount { acc with coins := coins }) refundCoin

/-- `NewFeeRefundHandler`. Its gas is not charged to anyone. -/
def feeRefundHandler (ctx : Context) (store : MultiStore ρ) (tx : StdTx Msg) (result : Result) :
    Outcome (MultiStore ρ) :=
  match ctx.signers with
  | [] => .ok store
  | firstAccount :: _ => do
    let fee ← getFee tx.fee.amount
    if result.gasWanted ≤ result.gasUsed then .ok store
    else do
      let unusedGas := result.gasWanted - result.gasUsed
      let scaled ← SdkInt.mul fee.amount (int64OfUint64 unusedGas)
      let amount ← SdkInt.div scaled (int64OfUint64 result.gasWanted)
      let refundCoin ← Coin.newCoin fee.denom amount
      let store ← refundTo store firstAccount.address refundCoin
      let cost ← SdkInt.sub fee.amount refundCoin.amount
      let _ ← Coin.newCoin fee.denom cost
      return store

end
end Irishub.BaseApp
