import Irishub.Bank.Totals
import Irishub.BaseApp.Replay

/-!
# The fee of a transaction

The ante handlers move the whole fee from the payer to the collected fees, and the
refund moves a part of it back. `feeCharged` is what should remain: nothing if the
ante state is not written, the fee if the messages panic or use all gas, and
otherwise the fee without the share of the unused gas.

The refund computes with integers of 255 bits, on the account as the messages left
it. The accounting is exact when its product and its sum are in range
(`RefundFits`).
-/

namespace Irishub.BaseApp
open Lib Coins SdkInt StoredCoins

section
variable {Msg ρ : Type} {s s' : MultiStore ρ} {tx : StdTx Msg} {ctx : Context} {result : Result}
  {gasWanted gasUsed : ℕ} {i : ℤ}

lemma StdFee.Valid.irisOnly {fee : StdFee} (h : fee.Valid) : fee.amount.IrisOnly := by
  rcases h with h | h
  · exact Or.inl h
  · exact (IrisOnly.of_isValidIrisAtto h).1

lemma getFee_of_valid {fee : StdFee} (h : fee.Valid) :
    getFee fee.amount = .ok ⟨irisAtto, fee.amount.iris⟩ := by
  have hamount : fee.amount.amountOf irisAtto = fee.amount.iris := amountOf_eq_denomSum h.sorted
  unfold getFee
  split_ifs with hnil
  · rw [hnil]
    rfl
  · rw [hamount]
    exact Coin.newCoin_ok.mpr ⟨rfl, h.irisOnly.nonneg⟩

def unusedShare (fee : ℤ) (gasWanted gasUsed : ℕ) : ℤ := fee * (gasWanted - gasUsed) / gasWanted

lemma unusedShare_nonneg {fee : ℤ} (hfee : 0 ≤ fee)
    (h : gasUsed < gasWanted) : 0 ≤ unusedShare fee gasWanted gasUsed :=
  Int.ediv_nonneg (mul_nonneg hfee (by omega)) (by omega)

lemma unusedShare_le {fee : ℤ} (hfee : 0 ≤ fee)
    (h : gasUsed < gasWanted) : unusedShare fee gasWanted gasUsed ≤ fee := by
  have hpos : (0 : ℤ) < gasWanted := by omega
  have hle : fee * (gasWanted - gasUsed) ≤ fee * gasWanted :=
    mul_le_mul_of_nonneg_left (by omega) hfee
  exact Int.ediv_le_of_le_mul hpos hle

lemma inRange_of_mul {n : ℤ} (hn : 1 ≤ n) (hi : 0 ≤ i) (h : InRange (i * n)) : InRange i := by
  rw [inRange_iff] at h ⊢
  have hle : i ≤ i * n := le_mul_of_one_le_right hi hn
  exact ⟨by omega, by omega⟩

lemma inRange_of_le {j : ℤ} (hi : 0 ≤ i) (hij : i ≤ j) (h : InRange j) : InRange i := by
  rw [inRange_iff] at h ⊢
  exact ⟨by omega, by omega⟩

lemma int64OfUint64_of_lt {n : ℕ} (h : n < 2 ^ 63) : int64OfUint64 n = n := if_pos h

/-- With gas left, the refund handler returns when its product and the refund do. -/
lemma feeRefundHandler_ok {first : Account} {rest : List Account}
    (hctx : ctx.signers = first :: rest) (hfee : tx.fee.Valid)
    (hgas : result.gasUsed < result.gasWanted) (hwanted : result.gasWanted < 2 ^ 63) :
    feeRefundHandler ctx s tx result = .ok s' ↔
      InRange (tx.fee.amount.iris * (result.gasWanted - result.gasUsed)) ∧
      refundTo s first.address ⟨irisAtto,
        unusedShare tx.fee.amount.iris result.gasWanted result.gasUsed⟩ = .ok s' := by
  have hnonneg := hfee.irisOnly.nonneg
  have hcast : ((result.gasWanted - result.gasUsed : ℕ) : ℤ) =
      result.gasWanted - result.gasUsed := by
    omega
  have hunused : int64OfUint64 (result.gasWanted - result.gasUsed) =
      result.gasWanted - result.gasUsed := by rw [int64OfUint64_of_lt (by omega), hcast]
  have hsmall : InRange ((result.gasWanted : ℤ) - result.gasUsed) := by
    rw [inRange_iff]
    omega
  have hne : (result.gasWanted : ℤ) - result.gasUsed ≠ 0 := by omega
  simp only [feeRefundHandler, hctx, getFee_of_valid hfee, ok_bind, if_neg (not_le.mpr hgas),
    hunused,
    int64OfUint64_of_lt hwanted, bind_ok, mul_ok hne hsmall, pure_eq_ok]
  constructor
  · rintro ⟨_, ⟨rfl, hrange⟩, amount, hdiv, coin, hcoin, s1, hs1, _, _, _, _, rfl⟩
    obtain ⟨rfl, _⟩ := eq_of_div_ok hdiv
    obtain ⟨rfl, _⟩ := Coin.newCoin_ok.mp hcoin
    exact ⟨hrange, hs1⟩
  · rintro ⟨hrange, hrefund⟩
    have hshare := unusedShare_nonneg hnonneg hgas
    have hle := unusedShare_le hnonneg hgas
    have hfeeRange := inRange_of_mul (by omega) hnonneg hrange
    refine ⟨_, ⟨rfl, hrange⟩, _, ?_, _, Coin.newCoin_ok.mpr ⟨rfl, hshare⟩, s', hrefund, _,
      sub_eq_ok.mpr ⟨rfl, ?_⟩, _, Coin.newCoin_ok.mpr ⟨rfl, ?_⟩, rfl⟩
    · unfold div
      rw [if_neg (by omega)]
      rfl
    · exact inRange_of_le (sub_nonneg.mpr hle) (sub_le_self _ hshare) hfeeRange
    · exact sub_nonneg.mpr hle

lemma refundTo_ok_iff {addr : Address} {acc : Account} {x : ℤ}
    (hacc : s.getAccount addr = some acc) (hx : 0 ≤ x) (hrange : InRange x)
    (hle : x ≤ s.collectedFees.amountOf irisAtto)
    (hcollected : InRange (s.collectedFees.amountOf irisAtto)) :
    (∃ s', refundTo s addr ⟨irisAtto, x⟩ = .ok s') ↔
      InRange (s.bank.balance addr irisAtto + x) := by
  have hcoins : acc.coins.amountOf irisAtto = s.bank.balance addr irisAtto := by
    rw [(info_of_getAccount hacc).2]
    rfl
  have hiris : IrisOnly [⟨irisAtto, x⟩] := .single hx
  simp only [refundTo, refundCollectedFees, hacc, Option.elim_some, ok_bind, bind_ok, pure_eq_ok]
  constructor
  · rintro ⟨_, coins, hadd, _⟩
    rw [← hcoins]
    exact inRange_of_add hrange hadd
  · intro hsum
    obtain ⟨coins, hadd⟩ := add_ok (s := acc.coins) hiris
      (sorted_singleton ⟨irisAtto, x⟩) (by rw [hcoins, iris_single]; exact hsum)
    obtain ⟨fees, hsub⟩ := sub_ok (s := s.collectedFees) hiris
      (sorted_singleton ⟨irisAtto, x⟩) (.panic .negativeCoinAmount)
      (by
        rw [iris_single]
        exact inRange_of_le (by omega) (by omega) hcollected)
      (by rw [iris_single]; exact hle)
    exact ⟨_, coins, hadd, fees, hsub, rfl⟩

lemma feeRefundHandler_isPanic (ctx : Context) (s : MultiStore ρ) (tx : StdTx Msg)
    (result : Result) : Sat Fault.IsPanic (fun _ => True) (feeRefundHandler ctx s tx result) := by
  have hcoin : ∀ d x, Sat Fault.IsPanic (fun _ => True) (Coin.newCoin d x) := by
    intro d x
    unfold Coin.newCoin
    split_ifs <;> exact trivial
  have hmerge : ∀ (c : StoredCoins) {cs : Coins} (hcs : cs.Sorted) (p : Panic),
      Sat Fault.IsPanic (fun _ => True) (c.merge cs hcs (.panic p)) :=
    fun c _ hcs _ => Bank.merge_fault (fun _ h => h) c hcs (fun _ => trivial)
  have hrefund : ∀ addr coin, Sat Fault.IsPanic (fun _ => True) (refundTo s addr coin) := by
    intro addr coin
    unfold refundTo refundCollectedFees
    refine .bind (P := fun _ => True) ?_ (fun acc _ => ?_)
    · cases s.getAccount addr <;> exact trivial
    · refine (hmerge _ _ _).bind (fun _ _ => ?_)
      exact (hmerge _ _ _).bind (fun _ _ => trivial)
  unfold feeRefundHandler
  split
  · exact trivial
  · refine .bind (P := fun _ => True) ?_ (fun fee _ => ?_)
    · unfold getFee
      split_ifs
      · exact trivial
      · exact hcoin _ _
    · split_ifs
      · exact trivial
      · refine .bind (P := fun _ => True) ?_ (fun scaled _ => ?_)
        · unfold mul checked
          split_ifs <;> exact trivial
        refine .bind (P := fun _ => True) ?_ (fun amount _ => ?_)
        · unfold div
          split_ifs <;> exact trivial
        refine (hcoin _ _).bind (fun coin _ => ?_)
        refine (hrefund _ _).bind (fun store _ => ?_)
        refine .bind (P := fun _ => True) ?_ (fun cost _ => ?_)
        · unfold SdkInt.sub SdkInt.checked
          split_ifs <;> exact trivial
        · exact (hcoin _ _).bind (fun _ _ => trivial)

lemma feeRefundHandler_returns_self (hnone : ctx.signers = [] ∨ result.gasWanted = 0)
    (hfee : tx.fee.Valid) : feeRefundHandler ctx s tx result = .ok s := by
  unfold feeRefundHandler
  rcases hctx : ctx.signers with _ | ⟨first, rest⟩
  · rfl
  · have hzero : result.gasWanted = 0 := by simpa [hctx] using hnone
    simp only [getFee_of_valid hfee, ok_bind, hzero, Nat.zero_le, if_true]

end

section
variable {Msg ρ : Type} (app : App Msg ρ) {txSize : ℕ} {f' f : Frame ρ} {tx : StdTx Msg}

/-- What the ante handlers leave for the refund. -/
structure Charged (tx : StdTx Msg) (s : MultiStore ρ) (f : Frame ρ) : Prop where
  result : f.result = .zero
  gasWanted : f.gasWanted = tx.fee.gas % 2 ^ 64
  collectedFees : tx.fee.amount.isZero = true ∧ f.state.store.collectedFees = s.collectedFees ∨
    ∃ hfee : tx.fee.Valid,
      s.collectedFees.add tx.fee.amount hfee.sorted = .ok f.state.store.collectedFees

lemma ready_of_onlyChecks {cache : MultiStore ρ} :
    ∀ (handlers : List (AnteHandler ρ)) (f : Frame ρ), (∀ h ∈ handlers, OnlyChecks h) →
      f.gasWanted < 2 ^ 64 → runAnteHandlers txSize handlers cache f = .ready f' →
      f'.result = f.result ∧ f'.gasWanted = f.gasWanted ∧ f'.state.store = cache
  | [], f, _, _, h => by
    rw [runAnteHandlers] at h
    split at h
    · simp only [Phase.ready.injEq] at h
      subst h
      simp [Frame.write]
    · cases h
  | handler :: handlers, f, hchecks, hgas, h => by
    have hhandler := hchecks handler (by simp) f.ctx cache f.meter
    rw [runAnteHandlers] at h
    rcases hrun : handler f.ctx cache f.meter with ⟨fault | r, g⟩
    · simp [hrun] at h
    · rw [hrun] at hhandler h
      obtain rfl := hhandler r rfl
      obtain ⟨hresult, hwanted, hstore⟩ := ready_of_onlyChecks handlers _
        (fun h' hh' => hchecks h' (List.mem_cons_of_mem _ hh')) (Nat.mod_lt _ (by norm_num)) h
      refine ⟨?_, hwanted.trans (Nat.mod_eq_of_lt hgas), hstore⟩
      simpa [Frame.setCtx] using hresult

lemma authChecks_collectedFees (ctx : Context) (s : MultiStore ρ) (tx : StdTx Msg)
    (hfee : tx.fee.Valid) :
    Run.Returns (fun r => tx.fee.amount.isZero = true ∧ r.2.collectedFees = s.collectedFees ∨
      s.collectedFees.add tx.fee.amount hfee.sorted = .ok r.2.collectedFees)
      (authChecks app ctx s tx hfee) := by
  have hsigs : ∀ (l : List (Account × StdSignature)) (s : MultiStore ρ),
      Run.Returns (fun r => r.2.collectedFees = s.collectedFees) (processSigs app ctx tx s l) := by
    intro l
    induction l with
    | nil => exact fun s => .pure rfl
    | cons p l ih =>
      intro s
      refine .bind (.any _) (fun acc _ => .bind (.any _) (fun _ _ => ?_))
      exact .bind (ih (s.setAccount acc)) (fun r hr => .pure hr)
  refine .bind (.any _) (fun _ _ => .bind (.any _) (fun accs _ => .bind (.any _) (fun _ _ => ?_)))
  refine .bind (P := fun r => tx.fee.amount.isZero = true ∧ r.2.collectedFees = s.collectedFees ∨
    s.collectedFees.add tx.fee.amount hfee.sorted = .ok r.2.collectedFees) ?_ (fun r hr => ?_)
  · unfold payFees
    split_ifs with hzero
    · exact .pure (Or.inl ⟨hzero, rfl⟩)
    · cases accs with
      | nil => exact .lift (by simp)
      | cons acc accs =>
        refine .bind (.any _) (fun acc' _ => ?_)
        refine .bind (P := fun s' : MultiStore ρ =>
          s.collectedFees.add tx.fee.amount hfee.sorted = .ok s'.collectedFees) ?_
          (fun s' hs' => .pure (Or.inr hs'))
        refine .bind (.any _) (fun _ _ => ?_)
        refine .bind (.lift (fun fees hfees => hfees)) (fun fees hfees => ?_)
        exact .bind (.any _) (fun _ _ => .pure hfees)
  · exact (hsigs _ r.2).imp (fun r' hr' => by rw [hr']; exact hr)

lemma charged_of_runAnteHandlers {hfee : tx.fee.Valid}
    {s : MultiStore ρ} (hresult : f.result = .zero) (hgas : f.gasWanted = 0)
    (h : runAnteHandlers txSize (anteHandlers app tx hfee) s f = .ready f') : Charged tx s f' := by
  have hauth := authChecks_collectedFees app f.ctx s tx hfee
    (setGasMeter f.ctx.height tx.fee.gas)
  simp only [anteHandlers] at h
  rw [runAnteHandlers] at h
  simp only [authAnteHandler] at h
  rcases hrun : authChecks app f.ctx s tx hfee (setGasMeter f.ctx.height tx.fee.gas) with
    ⟨fault | r, g⟩
  · rw [hrun] at h
    rcases fault with p | e
    · cases p <;> cases h
    · cases h
  · rw [hrun] at hauth h
    obtain ⟨hresult', hgas', hstore⟩ := ready_of_onlyChecks _ _ (onlyChecks_tail app tx hfee)
      (Nat.mod_lt _ (by norm_num)) h
    refine ⟨?_, ?_, ?_⟩
    · simpa [Frame.setCtx] using hresult'.trans (by simpa [Frame.setCtx] using hresult)
    · simpa [Frame.setCtx, hgas] using hgas'
    · rw [hstore]
      exact (hauth r rfl).imp id (fun h => ⟨hfee, h⟩)

/-- The fee of a transaction that reaches its messages is valid and charged. From the first block
on, its gas limit is a positive `int64`; the transactions of the genesis are not asked for it. -/
lemma charged_of_readyFrame {s : DeliverState ρ} (h : readyFrame app s tx txSize = some f) :
    tx.fee.Valid ∧ (s.height ≠ 0 → 0 < int64OfUint64 tx.fee.gas) ∧ Charged tx s.store f := by
  unfold readyFrame at h
  split at h
  · cases h
  · rename_i g hval
    split_ifs at h with hfee
    split at h
    · cases h
    · rename_i f' hbefore
      simp only [Option.some.injEq] at h
      subst h
      unfold beforeMsgs at hbefore
      split at hbefore
      · cases hbefore
      · rename_i g' hfeeCheck
        refine ⟨hfee, fun hne => ?_, charged_of_runAnteHandlers app (by simp [Frame.init])
          (by simp [Frame.init]) hbefore⟩
        rw [preprocessFee, Frame.init, if_neg hne] at hfeeCheck
        have hreturns : Run.Returns (fun _ => 0 < int64OfUint64 tx.fee.gas)
            (feePreprocessHandler app s.store tx) := by
          refine .bind (.any _) (fun _ _ => .bind (.any _) (fun _ _ => .lift (fun u hu => ?_)))
          simp only [checkFee, bind_ok, require_ok, decide_eq_true_eq] at hu
          obtain ⟨_, hpos, _⟩ := hu
          exact hpos
        exact hreturns _ () (congrArg Prod.fst hfeeCheck)

lemma gas_lt_of_readyFrame {s : DeliverState ρ} (hgas : tx.fee.gas < 2 ^ 64)
    (hgenesis : s.height = 0 → tx.fee.gas < 2 ^ 63)
    (h : readyFrame app s tx txSize = some f) : tx.fee.gas < 2 ^ 63 := by
  by_cases hheight : s.height = 0
  · exact hgenesis hheight
  · have hpos := (charged_of_readyFrame app h).2.1 hheight
    unfold int64OfUint64 at hpos
    split_ifs at hpos with hlt
    · exact hlt
    · omega

end

section
variable {Msg ρ : Type} (app : App Msg ρ) (s : DeliverState ρ) (tx : StdTx Msg) (txSize : ℕ)

/-- Message handlers do not touch the collected fees; only the ante handler, the refund and
the blockers do. -/
def App.LeavesFees (app : App Msg ρ) : Prop :=
  ∀ route handler, app.route route = some handler → ∀ ctx s msg,
    Run.Returns (fun s' : MultiStore ρ => s'.collectedFees = s.collectedFees) (handler ctx s msg)

def msgsGas (f : Frame ρ) : Option ℕ :=
  match runMsgs app f.ctx tx.msgs f.state.store f.meter with
  | (.error (.panic _), _) => none
  | (_, g) => some g.consumed

def feeRefund (f : Frame ρ) : ℤ :=
  match msgsGas app tx f with
  | none => 0
  | some used => if used < tx.fee.gas then unusedShare tx.fee.amount.iris tx.fee.gas used else 0

def feeCharged : ℤ :=
  match readyFrame app s tx txSize with
  | none => 0
  | some f => tx.fee.amount.iris - feeRefund app tx f

def msgsEffect (addr : Address) (d : String) : ℤ :=
  match readyFrame app s tx txSize with
  | none => 0
  | some f =>
    (deliverMsgs app tx f).state.store.bank.balance addr d - f.state.store.bank.balance addr d

def refundFrame : Option (Frame ρ) :=
  match validate app s tx txSize s.gasMeter with
  | (.error _, _) => none
  | (.ok (), g) =>
    if hfee : tx.fee.Valid then
      some (consumeBlockGas (runBody app tx hfee txSize (.init { s with gasMeter := g })))
    else none

/-- Accounts of a transaction's fee. -/
structure FeeAccounted (o : TxOutcome ρ) : Prop where
  nonneg : 0 ≤ feeCharged app s tx txSize
  le : tx.fee.Valid → feeCharged app s tx txSize ≤ tx.fee.amount.iris
  collectedFees : ∀ d, o.state.store.collectedFees.amountOf d =
    s.store.collectedFees.amountOf d + if d = irisAtto then feeCharged app s tx txSize else 0
  payer : ∀ addr, (tx.getSigners app).head? = some addr → ∀ d,
    o.state.store.bank.balance addr d = s.store.bank.balance addr d -
      (if d = irisAtto then feeCharged app s tx txSize else 0) +
      msgsEffect app s tx txSize addr d
  refund : ∀ f, refundFrame app s tx txSize = some f → ∀ p,
    feeRefundHandler f.ctx f.state.store tx f.refundResult ≠ .error (.panic p)

/-- The product of the refund and the balance that it makes in `store` are in the range of
`sdk.Int`. -/
def RefundInRange (store : MultiStore ρ) (used : ℕ) : Prop :=
  SdkInt.InRange (tx.fee.amount.iris * (tx.fee.gas - used)) ∧
  ∀ addr, (tx.getSigners app).head? = some addr →
    SdkInt.InRange (store.bank.balance addr irisAtto +
      unusedShare tx.fee.amount.iris tx.fee.gas used)

/-- If gas is left after messages that did not panic, the numbers of the refund are in range. -/
def RefundFits : Prop :=
  ∀ f used, readyFrame app s tx txSize = some f → msgsGas app tx f = some used →
    used < tx.fee.gas → RefundInRange app tx (deliverMsgs app tx f).state.store used

/-- Frame after the messages. -/
structure Delivered (f f' : Frame ρ) : Prop where
  ctx : f'.ctx = f.ctx
  collectedFees : f'.state.store.collectedFees = f.state.store.collectedFees
  accounts : Ascending f.state.store f'.state.store
  panicked : msgsGas app tx f = none → f'.refundResult.gasWanted = 0
  ran : ∀ used, msgsGas app tx f = some used →
    f'.refundResult.gasWanted = f.gasWanted ∧ f'.refundResult.gasUsed = used

variable {app s tx txSize} {f : Frame ρ} {f' : Frame ρ} {o : TxOutcome ρ}

lemma runMsgs_leavesFees (happ : app.LeavesFees) (ctx : Context) :
    ∀ (msgs : List Msg) (s : MultiStore ρ),
      Run.Returns (fun s' : MultiStore ρ => s'.collectedFees = s.collectedFees)
        (runMsgs app ctx msgs s)
  | [], s => .pure rfl
  | msg :: msgs, s => by
    simp only [runMsgs, List.foldlM_cons]
    refine .bind (P := fun s' : MultiStore ρ => s'.collectedFees = s.collectedFees) ?_
      (fun s1 hs1 => ?_)
    · split
      · exact .lift (by simp)
      · rename_i handler hroute
        exact happ _ handler hroute ctx s msg
    · exact (runMsgs_leavesFees happ ctx msgs s1).imp (fun _ h => h.trans hs1)

lemma delivered_deliverMsgs (hwrites : app.WritesAccounts) (hfees : app.LeavesFees)
    (hresult : f.result = .zero) : Delivered app tx f (deliverMsgs app tx f) := by
  have hw := runMsgs_writes hwrites f.ctx tx.msgs f.state.store f.meter
  have hl := runMsgs_leavesFees hfees f.ctx tx.msgs f.state.store f.meter
  unfold deliverMsgs
  rcases hrun : runMsgs app f.ctx tx.msgs f.state.store f.meter with ⟨(p | e) | cache, g⟩
  · have hgas : msgsGas app tx f = none := by simp only [msgsGas, hrun]
    refine ⟨by simp, by simp, ?_, fun _ => ?_, fun used h => ?_⟩
    · simpa using Ascending.refl f.state.store
    · simp [Frame.refundResult, hresult, Result.zero]
    · rw [hgas] at h
      cases h
  · have hgas : msgsGas app tx f = some g.consumed := by simp only [msgsGas, hrun]
    refine ⟨by simp, by simp, ?_, fun h => ?_, fun used h => ?_⟩
    · simpa using Ascending.refl f.state.store
    · rw [hgas] at h
      cases h
    · rw [hgas, Option.some.injEq] at h
      exact ⟨rfl, (congrArg GasMeter.consumed (f.setMeter_meter g)).trans h⟩
  · rw [hrun] at hw hl
    have hgas : msgsGas app tx f = some g.consumed := by simp only [msgsGas, hrun]
    refine ⟨by simp [Frame.write], hl cache rfl, ascending_of_writes (hw cache rfl), fun h => ?_,
      fun used h => ?_⟩
    · rw [hgas] at h
      cases h
    · rw [hgas, Option.some.injEq] at h
      exact ⟨rfl, (congrArg GasMeter.consumed (f.setMeter_meter g)).trans h⟩

lemma Charged.inRange (h : Charged tx s.store f) (hfee : tx.fee.Valid)
    (hcollected : InRange (s.store.collectedFees.amountOf irisAtto))
    (hrange : InRange tx.fee.amount.iris) :
    InRange (f.state.store.collectedFees.amountOf irisAtto) := by
  rcases h.collectedFees with ⟨_, h⟩ | ⟨_, h⟩
  · rwa [h]
  · rw [amountOf_add h]
    rcases hfee.irisOnly with hnil | ⟨x, _, hone⟩
    · rw [hnil]
      simpa using hcollected
    · simp only [hone, iris_single] at h hrange
      simpa [hone, Coin.amountIn] using inRange_of_add hrange h

/-- Nothing is left to give back, or the share of the unused gas goes to the first signer. -/
lemma refund_cases (hwrites : app.WritesAccounts) (hfees : app.LeavesFees)
    (hgas : tx.fee.gas < 2 ^ 63)
    (hready : readyFrame app s tx txSize = some f) (hf : Passed app tx s f)
    (hf' : f' = deliverMsgs app tx f) :
    (feeRefund app tx f = 0 ∧ (∀ used, msgsGas app tx f = some used → tx.fee.gas ≤ used) ∧
      feeRefundHandler f'.ctx f'.state.store tx f'.refundResult = .ok f'.state.store) ∨
    ∃ used addr, msgsGas app tx f = some used ∧ used < tx.fee.gas ∧
      (tx.getSigners app).head? = some addr ∧
      feeRefund app tx f = unusedShare tx.fee.amount.iris tx.fee.gas used ∧
      ∀ s', feeRefundHandler f'.ctx f'.state.store tx f'.refundResult = .ok s' ↔
        InRange (tx.fee.amount.iris * (tx.fee.gas - used)) ∧
        refundTo f'.state.store addr ⟨irisAtto, feeRefund app tx f⟩ = .ok s' := by
  obtain ⟨hfee, _, hcharged⟩ := charged_of_readyFrame app hready
  have hwanted : f.gasWanted = tx.fee.gas := by
    rw [hcharged.gasWanted, Nat.mod_eq_of_lt (by omega)]
  have hd : Delivered app tx f f' := by
    rw [hf']
    exact delivered_deliverMsgs hwrites hfees hcharged.result
  cases hused : msgsGas app tx f with
  | none =>
    refine Or.inl ⟨by simp only [feeRefund, hused], by simp, ?_⟩
    exact feeRefundHandler_returns_self (Or.inr (hd.panicked hused)) hfee
  | some used =>
    obtain ⟨hresultWanted, hresultUsed⟩ := hd.ran used hused
    rw [hwanted] at hresultWanted
    by_cases hlt : used < tx.fee.gas
    · have hrefund : feeRefund app tx f = unusedShare tx.fee.amount.iris tx.fee.gas used := by
        simp only [feeRefund, hused, if_pos hlt]
      obtain ⟨first, rest, hctx⟩ : ∃ first rest, f'.ctx.signers = first :: rest := by
        rw [hd.ctx]
        have hseq := sequenced_of_readyFrame app hready
        cases hsigners : f.ctx.signers with
        | nil =>
          have hnone : tx.getSigners app = [] := by rw [← hf.signers, hsigners]; rfl
          have hlen := hseq.length
          rw [hnone, List.length_nil, List.length_eq_zero_iff] at hlen
          exact absurd hlen hseq.nonempty
        | cons first rest => exact ⟨first, rest, rfl⟩
      refine Or.inr ⟨used, first.address, rfl, hlt, ?_, hrefund, fun s' => ?_⟩
      · rw [← hf.signers, ← hd.ctx, hctx]
        rfl
      · have hleft : f'.refundResult.gasUsed < f'.refundResult.gasWanted := by
          rw [hresultWanted, hresultUsed]
          exact hlt
        have h := @feeRefundHandler_ok _ _ f'.state.store s' tx _ _ _ _ hctx hfee hleft
          (by rw [hresultWanted]; exact hgas)
        rw [hresultWanted, hresultUsed] at h
        rw [hrefund]
        exact h
    · refine Or.inl ⟨by simp only [feeRefund, hused, if_neg hlt], ?_, ?_⟩
      · intro used' h
        rw [Option.some.injEq] at h
        omega
      · unfold feeRefundHandler
        split
        · rfl
        · rw [getFee_of_valid hfee, ok_bind, hresultWanted, hresultUsed, if_pos (by omega)]

lemma feeRefund_bounds (hfee : tx.fee.Valid) :
    0 ≤ feeRefund app tx f ∧ feeRefund app tx f ≤ tx.fee.amount.iris := by
  have hnonneg := hfee.irisOnly.nonneg
  unfold feeRefund
  split
  · exact ⟨le_rfl, hnonneg⟩
  · split_ifs with hlt
    · exact ⟨unusedShare_nonneg hnonneg hlt, unusedShare_le hnonneg hlt⟩
    · exact ⟨le_rfl, hnonneg⟩

lemma store_runDeferred_of_ok {cache : MultiStore ρ}
    (h : feeRefundHandler f.ctx f.state.store tx f.refundResult = .ok cache) :
    (runDeferred tx f).state.store = cache := by
  obtain ⟨hctx, hstore, _, hrefund, _⟩ := consumeBlockGas_frame f
  rw [← hctx, ← hstore, ← hrefund] at h
  simp only [runDeferred, refundFee, h]
  rfl

lemma refundFrame_of_left (hnone : readyFrame app s tx txSize = none)
    (h : refundFrame app s tx txSize = some f') :
    feeRefundHandler f'.ctx f'.state.store tx f'.refundResult = .ok f'.state.store := by
  rcases hval : validate app s tx txSize s.gasMeter with ⟨e | u, g⟩
  · simp [refundFrame, hval] at h
  · by_cases hfee : tx.fee.Valid
    · simp only [refundFrame, readyFrame, hval, hfee, dite_true, Option.some.injEq,
        runBody] at h hnone
      subst h
      rcases beforeMsgs_cases app tx hfee txSize { s with gasMeter := g } with
        ⟨f, hf, hleft⟩ | ⟨f, hf, _⟩
      · simp only [hf]
        obtain ⟨hctx, hstore, _, hrefund, _⟩ := consumeBlockGas_frame f
        rw [hctx, hstore, hrefund]
        exact feeRefundHandler_returns_self hleft.noRefund hfee
      · simp [hf] at hnone
    · simp [refundFrame, hval, hfee] at h

lemma refundFrame_of_ready (hready : readyFrame app s tx txSize = some f) :
    refundFrame app s tx txSize = some (consumeBlockGas (deliverMsgs app tx f)) := by
  rcases hval : validate app s tx txSize s.gasMeter with ⟨e | u, g⟩
  · simp [readyFrame, hval] at hready
  · by_cases hfee : tx.fee.Valid
    · rcases hbefore : beforeMsgs app tx hfee txSize (.init { s with gasMeter := g }) with f' | f'
      · simp [readyFrame, hval, hfee, hbefore] at hready
      · simp only [readyFrame, hval, hfee, dite_true, hbefore, Option.some.injEq] at hready
        simp only [refundFrame, hval, hfee, dite_true, runBody, hbefore, hready]
    · simp [readyFrame, hval, hfee] at hready

lemma feeRefundHandler_refundFrame (hready : readyFrame app s tx txSize = some f)
    (hf' : refundFrame app s tx txSize = some f') :
    feeRefundHandler f'.ctx f'.state.store tx f'.refundResult =
      feeRefundHandler (deliverMsgs app tx f).ctx (deliverMsgs app tx f).state.store tx
        (deliverMsgs app tx f).refundResult := by
  rw [refundFrame_of_ready hready, Option.some.injEq] at hf'
  obtain ⟨hctx, hstore, _, hrefund, _⟩ := consumeBlockGas_frame (deliverMsgs app tx f)
  rw [← hf', hctx, hstore, hrefund]

lemma FeeAccounted.refund_ok (h : FeeAccounted app s tx txSize o)
    (hready : readyFrame app s tx txSize = some f) :
    ∃ s', feeRefundHandler (deliverMsgs app tx f).ctx (deliverMsgs app tx f).state.store tx
      (deliverMsgs app tx f).refundResult = .ok s' := by
  have hframe := refundFrame_of_ready hready
  have hnoPanic := h.refund _ hframe
  rw [feeRefundHandler_refundFrame hready hframe] at hnoPanic
  have hsat := feeRefundHandler_isPanic (deliverMsgs app tx f).ctx
    (deliverMsgs app tx f).state.store tx (deliverMsgs app tx f).refundResult
  rcases hrun : feeRefundHandler (deliverMsgs app tx f).ctx (deliverMsgs app tx f).state.store tx
    (deliverMsgs app tx f).refundResult with (p | e) | s'
  · exact absurd hrun (hnoPanic p)
  · exact (hsat.of_error hrun).elim
  · exact ⟨s', rfl⟩

/-- With gas left, the refund returns exactly when its product and the new balance are in range. -/
lemma refund_returns_iff (hf : Passed app tx s f) (hfee : tx.fee.Valid)
    (hch : Charged tx s.store f) (hd : Delivered app tx f (deliverMsgs app tx f))
    (hcollected : InRange (s.store.collectedFees.amountOf irisAtto)) {addr : Address}
    (hhead : (tx.getSigners app).head? = some addr) {used : ℕ} (hlt : used < tx.fee.gas) :
    (∃ s', InRange (tx.fee.amount.iris * (tx.fee.gas - used)) ∧
      refundTo (deliverMsgs app tx f).state.store addr
        ⟨irisAtto, unusedShare tx.fee.amount.iris tx.fee.gas used⟩ = .ok s') ↔
    InRange (tx.fee.amount.iris * (tx.fee.gas - used)) ∧
      InRange ((deliverMsgs app tx f).state.store.bank.balance addr irisAtto +
        unusedShare tx.fee.amount.iris tx.fee.gas used) := by
  rw [exists_and_left]
  refine and_congr_right (fun hrange => ?_)
  have hnonneg := hfee.irisOnly.nonneg
  have hfeeRange := inRange_of_mul (by omega) hnonneg hrange
  have hlow := unusedShare_nonneg hnonneg hlt
  have hhigh := unusedShare_le hnonneg hlt
  -- the fee itself is among the collected fees
  have hheld : tx.fee.amount.iris ≤ f.state.store.collectedFees.amountOf irisAtto := by
    have hsum := hf.effects.collectedFees irisAtto
    have hbefore := s.store.collectedFees.amountOf_nonneg irisAtto
    rw [denomSum_of_irisOnly hfee.irisOnly, if_pos rfl] at hsum
    omega
  obtain ⟨_, info, _, hinfo, _⟩ := hf.effects.signer addr (List.mem_of_head? hhead)
  obtain ⟨info', hinfo', _⟩ := hd.accounts addr info hinfo
  have hacc : ∃ acc, (deliverMsgs app tx f).state.store.getAccount addr = some acc := by
    simp [MultiStore.getAccount, hinfo']
  obtain ⟨acc, hacc⟩ := hacc
  refine refundTo_ok_iff hacc hlow (inRange_of_le hlow hhigh hfeeRange) ?_ ?_
  · rw [hd.collectedFees]
    omega
  · rw [hd.collectedFees]
    exact hch.inRange hfee hcollected hfeeRange

/-- After the messages, the refund returns exactly when its numbers are in range. -/
lemma refunded_iff (hwrites : app.WritesAccounts) (hleaves : app.LeavesFees)
    (hgas : tx.fee.gas < 2 ^ 63)
    (hcollected : InRange (s.store.collectedFees.amountOf irisAtto))
    (hready : readyFrame app s tx txSize = some f) (hf : Passed app tx s f) :
    (∃ s', feeRefundHandler (deliverMsgs app tx f).ctx (deliverMsgs app tx f).state.store tx
      (deliverMsgs app tx f).refundResult = .ok s') ↔
    ∀ used, msgsGas app tx f = some used → used < tx.fee.gas →
      RefundInRange app tx (deliverMsgs app tx f).state.store used := by
  obtain ⟨hfee, _, hch⟩ := charged_of_readyFrame app hready
  have hd : Delivered app tx f (deliverMsgs app tx f) :=
    delivered_deliverMsgs hwrites hleaves hch.result
  rcases refund_cases hwrites hleaves hgas hready hf rfl with
    ⟨_, hnoGas, hok⟩ | ⟨used, addr, hused, hlt, hhead, hshare, hiff⟩
  · refine ⟨fun _ used hused hlt => ?_, fun _ => ⟨_, hok⟩⟩
    exact absurd (hnoGas used hused) (by omega)
  · have hreturns := refund_returns_iff hf hfee hch hd hcollected hhead hlt
    simp only [hiff, hshare, hreturns]
    constructor
    · rintro ⟨hmul, hsum⟩ used' hused' _
      rw [hused, Option.some.injEq] at hused'
      subst hused'
      refine ⟨hmul, fun addr' haddr' => ?_⟩
      rw [hhead, Option.some.injEq] at haddr'
      rw [← haddr']
      exact hsum
    · intro hfits
      obtain ⟨hmul, hsum⟩ := hfits used hused hlt
      exact ⟨hmul, hsum addr hhead⟩

lemma FeeAccounted.of_refunded (hready : readyFrame app s tx txSize = some f)
    (hf : Passed app tx s f) (hfee : tx.fee.Valid)
    (hcollected : (deliverMsgs app tx f).state.store.collectedFees = f.state.store.collectedFees)
    (hfees : ∀ d, o.state.store.collectedFees.amountOf d =
      (deliverMsgs app tx f).state.store.collectedFees.amountOf d -
        if d = irisAtto then feeRefund app tx f else 0)
    (hbalance : ∀ addr, (tx.getSigners app).head? = some addr → ∀ d,
      o.state.store.bank.balance addr d = (deliverMsgs app tx f).state.store.bank.balance addr d +
          if d = irisAtto then feeRefund app tx f else 0)
    (hrefund : ∀ f, refundFrame app s tx txSize = some f → ∀ p,
      feeRefundHandler f.ctx f.state.store tx f.refundResult ≠ .error (.panic p)) :
    FeeAccounted app s tx txSize o := by
  have hbounds : 0 ≤ feeRefund app tx f ∧ feeRefund app tx f ≤ tx.fee.amount.iris :=
    feeRefund_bounds hfee
  have hcharged : feeCharged app s tx txSize = tx.fee.amount.iris - feeRefund app tx f := by
    simp only [feeCharged, hready]
  have heffect : ∀ addr d, msgsEffect app s tx txSize addr d =
      (deliverMsgs app tx f).state.store.bank.balance addr d -
        f.state.store.bank.balance addr d := by
    intro addr d
    simp only [msgsEffect, hready]
  refine ⟨by omega, fun _ => by omega, fun d => ?_, fun addr haddr d => ?_, hrefund⟩
  · rw [hfees, hcollected, hf.effects.collectedFees, denomSum_of_irisOnly hfee.irisOnly, hcharged]
    split_ifs <;> omega
  · rw [hbalance addr haddr, heffect, hf.effects.balance, if_pos haddr,
      denomSum_of_irisOnly hfee.irisOnly, hcharged]
    split_ifs <;> omega

/-- Fee of a transaction is accounted for exactly when its refund fits. -/
theorem fee_accounted_iff (hwrites : app.WritesAccounts) (hleaves : app.LeavesFees)
    (hheight : 0 < s.height) (hgas : tx.fee.gas < 2 ^ 64)
    (hcollected : SdkInt.InRange (s.store.collectedFees.amountOf irisAtto)) {o : TxOutcome ρ}
    (h : runTx app s tx txSize = .ok o) :
    FeeAccounted app s tx txSize o ↔ RefundFits app s tx txSize := by
  rcases runTx_cases app s tx txSize h with ⟨hnone, _, hstore, _⟩ | ⟨f, hready, hf, rfl⟩
  · -- the messages are not reached
    have hcharged : feeCharged app s tx txSize = 0 := by simp only [feeCharged, hnone]
    refine ⟨fun _ f used hf => ?_, fun _ => ⟨hcharged.ge, fun hfee => ?_, fun d => ?_,
      fun addr _ d => ?_, fun f hf p => ?_⟩⟩
    · rw [hnone] at hf
      cases hf
    · rw [hcharged]
      exact hfee.irisOnly.nonneg
    · simp [hstore, hcharged]
    · simp [hstore, hcharged, msgsEffect, hnone]
    · rw [refundFrame_of_left hnone hf]
      simp
  · obtain ⟨hfee, _, hch⟩ := charged_of_readyFrame app hready
    have hsmall : tx.fee.gas < 2 ^ 63 :=
      gas_lt_of_readyFrame app hgas (fun hzero => absurd hzero (by omega)) hready
    have hrefunded := refunded_iff hwrites hleaves hsmall hcollected hready hf
    constructor
    · intro hacc f' used hf' hused hlt
      rw [hready, Option.some.injEq] at hf'
      subst hf'
      exact hrefunded.mp (hacc.refund_ok hready) used hused hlt
    · intro hfits
      obtain ⟨s', hok⟩ := hrefunded.mpr (fun used => hfits f used hready)
      have hstore := store_runDeferred_of_ok hok
      have hd : Delivered app tx f (deliverMsgs app tx f) :=
        delivered_deliverMsgs hwrites hleaves hch.result
      have hnoPanic : ∀ f', refundFrame app s tx txSize = some f' → ∀ p,
          feeRefundHandler f'.ctx f'.state.store tx f'.refundResult ≠ .error (.panic p) := by
        intro f' hf' p
        rw [feeRefundHandler_refundFrame hready hf', hok]
        simp
      rcases refund_cases hwrites hleaves hsmall hready hf rfl with
        ⟨hzero, _, hself⟩ | ⟨used, addr, _, _, hhead, _, hiff⟩
      · rw [hself, Except.ok.injEq] at hok
        refine .of_refunded hready hf hfee hd.collectedFees ?_ ?_ hnoPanic
        · simp [hstore, ← hok, hzero]
        · simp [hstore, ← hok, hzero]
      · obtain ⟨_, _, hbalance, hcoll⟩ := refundTo_ok ((hiff s').mp hok).2
        refine .of_refunded hready hf hfee hd.collectedFees (fun d => ?_)
          (fun addr' haddr' d => ?_) hnoPanic
        · simp only [hstore]
          exact hcoll d
        · rw [hhead, Option.some.injEq] at haddr'
          subst haddr'
          simp only [hstore, hbalance, true_and]

end

lemma sampleApp_leavesFees : sampleApp.LeavesFees := by
  intro route handler hroute ctx s msg
  simp only [sampleApp, Option.some.injEq] at hroute
  subst hroute
  refine .bind (.any _) (fun _ _ => ?_)
  exact .bind (.any _) (fun _ _ => .pure rfl)

/-- A transfer that uses 350 of 1000 gas pays 350 of its fee of 1000. -/
theorem sampleTx_fee_accounted : ∃ o, runTx sampleApp (sampleState 1000) (sampleTx 5) 20 = .ok o ∧
      feeCharged sampleApp (sampleState 1000) (sampleTx 5) 20 = 350 ∧
      FeeAccounted sampleApp (sampleState 1000) (sampleTx 5) 20 o := by
  obtain ⟨o, ho, _⟩ := of_returns (p := fun _ => true)
    (x := runTx sampleApp (sampleState 1000) (sampleTx 5) 20) (by decide +kernel)
  refine ⟨o, ho, by decide +kernel, ?_⟩
  refine (fee_accounted_iff sampleApp_writesAccounts sampleApp_leavesFees (by decide) (by decide)
    (by decide +kernel) ho).mpr ?_
  intro f used hf hused _
  have hfits : (readyFrame sampleApp (sampleState 1000) (sampleTx 5) 20).all (fun f =>
      decide (msgsGas sampleApp (sampleTx 5) f = some 350 ∧
        InRange ((deliverMsgs sampleApp (sampleTx 5) f).state.store.bank.balance 1 irisAtto +
          650))) = true := by decide +kernel
  rw [hf] at hfits
  obtain ⟨hgas, hrange⟩ := of_decide_eq_true hfits
  rw [hgas, Option.some.injEq] at hused
  subst hused
  refine ⟨by decide +kernel, fun addr haddr => ?_⟩
  obtain rfl : 1 = addr := Option.some.inj haddr
  exact hrange

def richState : DeliverState Unit :=
  { sampleState 1000 with
    store := { sampleStore with
      bank := sampleStore.bank.setCoins 1
        ⟨[⟨irisAtto, 2 ^ 252⟩], List.pairwise_singleton _ _, by simp⟩ } }

/-- Transfer of `sampleTx` for a fee of 2^250 iris-atto. -/
def highFeeTx : StdTx SampleMsg :=
  { sampleTx 5 with fee := { amount := [⟨irisAtto, 2 ^ 250⟩], gas := 1000 } }

/-- Messages pass with 350 of 1000 gas, the refund panics on its product, and the whole fee
is kept. -/
theorem highFeeTx_not_refunded : ∃ o, runTx sampleApp richState highFeeTx 20 = .ok o ∧
      o.state.store.bank.balance 2 irisAtto = 5 ∧
      o.state.store.collectedFees.amountOf irisAtto = 2 ^ 250 ∧
      feeCharged sampleApp richState highFeeTx 20 = 2 ^ 250 - 2 ^ 250 * 650 / 1000 ∧
      ¬FeeAccounted sampleApp richState highFeeTx 20 o := by
  obtain ⟨o, ho, hrun⟩ := of_returns
    (p := fun o : TxOutcome Unit => decide (o.state.store.bank.balance 2 irisAtto = 5 ∧
      o.state.store.collectedFees.amountOf irisAtto = 2 ^ 250))
    (x := runTx sampleApp richState highFeeTx 20) (by decide +kernel)
  obtain ⟨hbalance, hcollected⟩ := of_decide_eq_true hrun
  have hcharged : feeCharged sampleApp richState highFeeTx 20 = 2 ^ 250 - 2 ^ 250 * 650 / 1000 := by
    decide +kernel
  have hbefore : richState.store.collectedFees.amountOf irisAtto = 0 := by decide +kernel
  refine ⟨o, ho, hbalance, hcollected, hcharged, fun hacc => ?_⟩
  have hfees := hacc.collectedFees irisAtto
  rw [if_pos rfl, hcollected, hbefore, hcharged] at hfees
  norm_num at hfees

end Irishub.BaseApp
