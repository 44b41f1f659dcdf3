import Irishub.BaseApp.FeeAccounting

/-!
# When a transaction is atomic

`runTx` writes the cache of the messages as soon as they all pass, and only then
consumes the gas of the block and refunds the fee. A failure of one of these two
leaves a non-OK code with the effects of the messages in the store. Neither
depends on more than numbers (`SettlesAfterMsgs`): the gas that the block has
left, and the range of `sdk.Int` for the refund, in the sense in which the fee
is accounted for.

**Results**

* `runTx_atomic_iff`: a transaction is atomic exactly when these numbers fit.
* `sampleTx_breaks_atomicity`: a block with too little gas keeps the effects of a
  transaction that is out of gas.
-/

namespace Irishub.BaseApp
open Lib SdkInt

section
variable {Msg ρ : Type} (app : App Msg ρ) (s : DeliverState ρ) (tx : StdTx Msg) (txSize : ℕ)

/-- Whenever the messages are reached and all pass, the gas of the transaction fits into what is
left of the block, and if gas of the transaction is left, the numbers of the refund are in
range. -/
def SettlesAfterMsgs : Prop :=
  ∀ f cache g, readyFrame app s tx txSize = some f →
    runMsgs app f.ctx tx.msgs f.state.store f.meter = (.ok cache, g) →
    s.blockGasMeter.Fits g.gasConsumedToLimit ∧
      (g.consumed < tx.fee.gas → RefundInRange app tx cache g.consumed)

variable {app s tx txSize} {f : Frame ρ}

/-- After messages that all passed, the refund returns exactly when its numbers are in range. -/
lemma refunded_iff_of_passed (hwrites : app.WritesAccounts) (hleaves : app.LeavesFees)
    (hgas : tx.fee.gas < 2 ^ 63)
    (hcollected : InRange (s.store.collectedFees.amountOf irisAtto))
    (hready : readyFrame app s tx txSize = some f) (hf : Passed app tx s f)
    {cache : MultiStore ρ} {g : GasMeter}
    (hrun : runMsgs app f.ctx tx.msgs f.state.store f.meter = (.ok cache, g)) :
    (∃ refunded, feeRefundHandler f.ctx cache tx ⟨.ok, f.gasWanted, g.consumed⟩ = .ok refunded) ↔
      (g.consumed < tx.fee.gas → RefundInRange app tx cache g.consumed) := by
  have hrefunded := refunded_iff hwrites hleaves hgas hcollected hready hf
  have hmsgs : msgsGas app tx f = some g.consumed := by simp only [msgsGas, hrun]
  obtain ⟨cache', g', hrun', hd⟩ | ⟨hnone, _⟩ := deliverMsgs_cases app s tx hf
  · rw [hrun, Prod.mk.injEq, Except.ok.injEq] at hrun'
    obtain ⟨rfl, rfl⟩ := hrun'
    have hresult : (deliverMsgs app tx f).refundResult = ⟨.ok, f.gasWanted, g.consumed⟩ := by
      rw [hd, Frame.refundResult]
      exact congrArg (Result.mk _ _) (congrArg GasMeter.consumed (f.setMeter_meter g))
    have hctx : (deliverMsgs app tx f).ctx = f.ctx := by
      rw [hd]
      exact Frame.setMeter_ctx f g
    have hstore : (deliverMsgs app tx f).state.store = cache := by
      rw [hd]
      rfl
    rw [hresult, hctx, hstore] at hrefunded
    rw [hrefunded]
    refine ⟨fun h => h _ hmsgs, fun h used hused => ?_⟩
    rw [hmsgs, Option.some.injEq] at hused
    exact hused ▸ h
  · exact absurd hrun (hnone cache g)

/-- A transaction is atomic exactly when it settles after its messages. -/
theorem runTx_atomic_iff (hwrites : app.WritesAccounts) (hleaves : app.LeavesFees)
    (hgas : tx.fee.gas < 2 ^ 64) (hgenesis : s.height = 0 → tx.fee.gas < 2 ^ 63)
    (hcollected : InRange (s.store.collectedFees.amountOf irisAtto)) {o : TxOutcome ρ}
    (h : runTx app s tx txSize = .ok o) :
    Atomic app s tx txSize o ↔ SettlesAfterMsgs app s tx txSize := by
  rw [atomic_iff_deferred app s tx txSize h]
  refine forall_congr'
    (fun f => forall₂_congr (fun cache g => forall₂_congr (fun hready hrun => ?_)))
  obtain ⟨hnone, _⟩ | ⟨f', hready', hf, _⟩ := runTx_cases app s tx txSize h
  · rw [hnone] at hready
    cases hready
  · rw [hready, Option.some.injEq] at hready'
    subst hready'
    have hsmall := gas_lt_of_readyFrame app hgas hgenesis hready
    exact and_congr_right
      (fun _ => refunded_iff_of_passed hwrites hleaves hsmall hcollected hready hf hrun)

end

/-- Two transfers in a block of 1000 gas. One of 5 iris-atto passes, and its 350 gas and its
refund of 650 iris-atto fit. One of more than the account holds fails without a trace of its
message. -/
theorem sampleTx_atomic :
    (∃ o, runTx sampleApp (sampleState 1000) (sampleTx 5) 20 = .ok o ∧
      o.result.code = .ok ∧ SettlesAfterMsgs sampleApp (sampleState 1000) (sampleTx 5) 20) ∧
    ∃ o, runTx sampleApp (sampleState 1000) (sampleTx 99999) 20 = .ok o ∧
      o.result.code = .error .errInsufficientCoins ∧
      Atomic sampleApp (sampleState 1000) (sampleTx 99999) 20 o := by
  constructor
  · obtain ⟨o, ho, hcode⟩ := of_returns (p := fun o => o.result.code = .ok)
      (x := runTx sampleApp (sampleState 1000) (sampleTx 5) 20) (by decide +kernel)
    have hcode : o.result.code = .ok := of_decide_eq_true hcode
    refine ⟨o, ho, hcode, ?_⟩
    refine (runTx_atomic_iff sampleApp_writesAccounts sampleApp_leavesFees (by decide) (by decide)
      (by decide +kernel) ho).mp ?_
    exact fun hne => absurd hcode hne
  · obtain ⟨o, ho, hcode⟩ := of_returns
      (p := fun o => o.result.code = .error .errInsufficientCoins)
      (x := runTx sampleApp (sampleState 1000) (sampleTx 99999) 20) (by decide +kernel)
    refine ⟨o, ho, of_decide_eq_true hcode, ?_⟩
    refine (runTx_atomic_iff sampleApp_writesAccounts sampleApp_leavesFees (by decide) (by decide)
      (by decide +kernel) ho).mpr ?_
    intro f cache g hf hrun
    have hfails : (readyFrame sampleApp (sampleState 1000) (sampleTx 99999) 20).all (fun f =>
        !returns (fun _ => true)
          (runMsgs sampleApp f.ctx (sampleTx 99999).msgs f.state.store f.meter).1) = true := by
      decide +kernel
    rw [hf] at hfails
    simp [hrun, returns] at hfails

/-- A transfer of 5 iris-atto uses 350 gas in a block that has 250: the result is out of gas, and
the recipient has the coins. -/
theorem sampleTx_breaks_atomicity :
    ∃ o, runTx sampleApp (sampleState 250) (sampleTx 5) 20 = .ok o ∧
      o.result.code = .error .errOutOfGas ∧ o.state.store.bank.balance 2 irisAtto = 5 ∧
      ¬Atomic sampleApp (sampleState 250) (sampleTx 5) 20 o := by
  have hrun : returns (fun o => o.result.code = .error .errOutOfGas ∧
      o.state.store.bank.balance 2 irisAtto = 5 ∧ .msgs ∈ o.written)
      (runTx sampleApp (sampleState 250) (sampleTx 5) 20) = true := by decide +kernel
  obtain ⟨o, ho, hrun⟩ := of_returns hrun
  obtain ⟨hcode, hbalance, hwritten⟩ := of_decide_eq_true hrun
  refine ⟨o, ho, hcode, hbalance, fun hatomic => ?_⟩
  exact (hatomic (by simp [hcode])).1 hwritten

end Irishub.BaseApp
