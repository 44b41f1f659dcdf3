import Irishub.BaseApp.Ante

/-!
# `runTx` in deliver mode

The function of `app/baseapp.go` that executes one transaction. Its body returns
or panics; then three deferred functions run, in this order: the consumption of
block gas, the fee refund, and the recovery from a panic. Each of them sees the
variables of the body, which are the fields of a `Frame`, and may panic itself.
-/

namespace Irishub.BaseApp
open Lib

/-- Caches written to the deliver state. -/
inductive CacheWrite
  | ante
  | msgs
  | refund
  deriving DecidableEq

/-- `deliverState`; `gasMeter` is the meter of its context, shared by the transactions. -/
structure DeliverState (ρ : Type) where
  store : MultiStore ρ
  height : ℕ
  chainID : String
  gasMeter : GasMeter
  blockGasMeter : GasMeter

/-- Variables of `runTx` its deferred functions read. -/
structure Frame (ρ : Type) where
  state : DeliverState ρ
  ctx : Context
  /-- Meter of a context that an ante handler returned. -/
  txMeter : Option GasMeter
  result : Result
  gasWanted : ℕ
  panicking : Option Panic
  written : List CacheWrite

namespace Frame
variable {ρ : Type}

def init (s : DeliverState ρ) : Frame ρ :=
  { state := s
    ctx := { height := s.height, chainID := s.chainID, signers := [] }
    txMeter := none
    result := .zero
    gasWanted := 0
    panicking := none
    written := [] }

/-- `ctx.GasMeter()`. -/
def meter (f : Frame ρ) : GasMeter := f.txMeter.getD f.state.gasMeter

def setMeter (f : Frame ρ) (g : GasMeter) : Frame ρ :=
  match f.txMeter with
  | none => { f with state := { f.state with gasMeter := g } }
  | some _ => { f with txMeter := some g }

def setCtx (f : Frame ρ) : Option (Context × GasMeter) → Frame ρ
  | none => f
  | some (ctx, g) => { f with ctx := ctx, txMeter := some g }

def write (f : Frame ρ) (w : CacheWrite) (store : MultiStore ρ) : Frame ρ :=
  { f with state := { f.state with store := store }, written := f.written ++ [w] }

def stop (f : Frame ρ) : Fault → Frame ρ
  | .panic p => { f with panicking := some p }
  | .error e => { f with result := .ofError e }

end Frame

section
variable {Msg ρ : Type} (app : App Msg ρ)

/-- How the body of `runTx` stands before the messages run: it has been left, or the caches of
the ante handlers are written. -/
inductive Phase (ρ : Type)
  | left (f : Frame ρ)
  | ready (f : Frame ρ)

def blockStoreCostPerByte : ℕ := 10

/-- Loop over the ante handlers, with the charge for the bytes of the transaction and the
write of the cache after it. -/
def runAnteHandlers (txSize : ℕ) : List (AnteHandler ρ) → MultiStore ρ → Frame ρ → Phase ρ
  | [], cache, f =>
    match consumeGas (blockStoreCostPerByte * txSize) f.meter with
    | (.ok (), g) => .ready ((f.setMeter g).write .ante cache)
    | (.error fault, g) => .left ((f.setMeter g).stop fault)
  | anteHandler :: rest, cache, f =>
    match anteHandler f.ctx cache f.meter with
    | (.error fault, g) => .left ((f.setMeter g).stop fault)
    | (.ok (.abort newCtx result), g) =>
      .left { (f.setMeter g).setCtx newCtx with result := result }
    | (.ok (.next newCtx cache result), g) =>
      runAnteHandlers txSize rest cache
        { (f.setMeter g).setCtx newCtx with
          gasWanted := (f.gasWanted + result.gasWanted) % 2 ^ 64 }

def preprocessFee (tx : StdTx Msg) (f : Frame ρ) : Except Fault Unit × GasMeter :=
  if f.ctx.height = 0 then (.ok (), f.meter) else feePreprocessHandler app f.state.store tx f.meter

def beforeMsgs (tx : StdTx Msg) (hfee : tx.fee.Valid) (txSize : ℕ) (f : Frame ρ) : Phase ρ :=
  match preprocessFee app tx f with
  | (.error fault, g) => .left ((f.setMeter g).stop fault)
  | (.ok (), g) => runAnteHandlers txSize (anteHandlers app tx hfee) f.state.store (f.setMeter g)

/-- `runMsgs`: stop at the first message that has no route or fails. -/
def runMsgs (ctx : Context) (msgs : List Msg) (store : MultiStore ρ) : Metered (MultiStore ρ) :=
  msgs.foldlM (fun store msg =>
    match app.route (app.msgRoute msg) with
    | none => Run.lift (fail .errUnknownRequest)
    | some handler => handler ctx store msg) store

/-- The messages, on a cache that is written if all of them pass. -/
def deliverMsgs (tx : StdTx Msg) (f : Frame ρ) : Frame ρ :=
  match runMsgs app f.ctx tx.msgs f.state.store f.meter with
  | (.ok cache, g) =>
    { (f.setMeter g).write .msgs cache with result := ⟨.ok, f.gasWanted, g.consumed⟩ }
  | (.error (.error e), g) => { f.setMeter g with result := ⟨.error e, f.gasWanted, g.consumed⟩ }
  | (.error (.panic p), g) => { f.setMeter g with panicking := some p }

/-- Body of `runTx`. -/
def runBody (tx : StdTx Msg) (hfee : tx.fee.Valid) (txSize : ℕ) (f : Frame ρ) : Frame ρ :=
  match beforeMsgs app tx hfee txSize f with
  | .left f => f
  | .ready f => deliverMsgs app tx f

end

section
variable {Msg ρ : Type}

def consumeBlockGas (f : Frame ρ) : Frame ρ :=
  match consumeGas f.meter.gasConsumedToLimit f.state.blockGasMeter with
  | (.ok (), g) => { f with state := { f.state with blockGasMeter := g } }
  | (.error fault, g) => { f with state := { f.state with blockGasMeter := g } }.stop fault

def Frame.refundResult (f : Frame ρ) : Result := { f.result with gasUsed := f.meter.consumed }

/-- Deferred function that runs second: the fee refund on a cache of its own. -/
def refundFee (tx : StdTx Msg) (f : Frame ρ) : Frame ρ :=
  match feeRefundHandler f.ctx f.state.store tx f.refundResult with
  | .ok cache => { f with result := f.refundResult }.write .refund cache
  | .error (.error _) => { f with result := .ofError .errInternal }
  | .error (.panic p) => { f with result := f.refundResult, panicking := some p }

def recoverPanic : Panic → Result
  | .errorOutOfGas => .ofError .errOutOfGas
  | _ => .ofError .errInternal

def recoverResult (f : Frame ρ) : Result :=
  { f.panicking.elim f.result recoverPanic with
    gasWanted := f.gasWanted
    gasUsed := f.meter.consumed }

def runDeferred (tx : StdTx Msg) (f : Frame ρ) : Frame ρ := refundFee tx (consumeBlockGas f)

end

section
variable {Msg ρ : Type} (app : App Msg ρ)

/-- What a transaction leaves: its result, the deliver state and the caches written to it. -/
structure TxOutcome (ρ : Type) where
  result : Result
  state : DeliverState ρ
  written : List CacheWrite

def serviceRoute : String := "service"

def checkTxSize (store : MultiStore ρ) (access : StoreAccess) (limit txSize : ℕ) :
    Metered Unit := do
  chargeAccess app store access
  Run.lift (require (txSize ≤ limit) .errExceedsTxSize)

/-- `ValidateTx`: service messages are not mixed with others, and each kind of transaction has
its size limit. -/
def validateTx (store : MultiStore ρ) (tx : StdTx Msg) (txSize : ℕ) : Metered Unit :=
  let serviceMsgNum := (tx.msgs.filter (fun msg => app.msgRoute msg == serviceRoute)).length
  if serviceMsgNum ≠ 0 ∧ serviceMsgNum ≠ tx.msgs.length then
    Run.lift (fail .errServiceTxLimit)
  else do
    if serviceMsgNum = 0 then
      checkTxSize app store .getTxSizeLimit store.authParams.txSizeLimit txSize
    if serviceMsgNum = tx.msgs.length then
      checkTxSize app store .getServiceTxSizeLimit store.serviceTxSizeLimit txSize

def validateBasicTxMsgs (msgs : List Msg) : Outcome Unit := do
  require (!msgs.isEmpty) .errInternal
  msgs.foldlM (fun _ msg => (app.validateBasic msg).elim (.ok ()) fail) ()

def validate (s : DeliverState ρ) (tx : StdTx Msg) (txSize : ℕ) : Metered Unit := do
  Run.lift (require (!s.blockGasMeter.isOutOfGas) .errOutOfGas)
  validateTx app s.store tx txSize
  Run.lift (validateBasicTxMsgs app tx.msgs)
  Run.lift (require (decide tx.fee.Valid) .errInvalidCoins)

/-- `runTx` in deliver mode; a panic before the functions are deferred stops the node. -/
def runTx (s : DeliverState ρ) (tx : StdTx Msg) (txSize : ℕ) : Except Panic (TxOutcome ρ) :=
  match validate app s tx txSize s.gasMeter with
  | (.error (.panic p), _) => .error p
  | (.error (.error e), g) => .ok ⟨.ofError e, { s with gasMeter := g }, []⟩
  | (.ok (), g) =>
    if hfee : tx.fee.Valid then
      let f := runDeferred tx (runBody app tx hfee txSize (.init { s with gasMeter := g }))
      .ok ⟨recoverResult f, f.state, f.written⟩
    else .ok ⟨.ofError .errInvalidCoins, { s with gasMeter := g }, []⟩

end
end Irishub.BaseApp
