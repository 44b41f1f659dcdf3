import Irishub.Service.Book

/-!
# Service: the invariant of the deposits and fees

`State.Backed` says what every message keeps: deposits, prices and fees are iris
coins, and the two escrow accounts cover the deposits and the fees that the module
owes. `State.Inv` says besides that the min deposit of every binding can be
computed, which the end blocker needs.

Whatever the module does is an `Effect`: one change of the tables, with the event that
it logs and the transfer of that event. A service is defined, a binding is written
(`BindingWrite`), a request is accepted, or the book takes a step.

**Results**
* `Effect.backed`, `Effect.inv`: an effect keeps the two invariants.
-/

namespace Irishub.Service
open Lib State Store

section

/-- What holds of every stored binding, whatever its prices. -/
structure SvcBinding.Sound (b : SvcBinding) : Prop where
  deposit : b.deposit.IrisOnly
  prices : ∀ p ∈ b.prices, p.isValidIrisAtto = true
  provider : b.provider ∉ moduleAccounts

/-- Binding whose minimum deposit can also be computed. -/
structure SvcBinding.WellFormed (params : Params) (b : SvcBinding) : Prop
    extends sound : b.Sound where
  minDeposit : MinDepositInRange params b.prices

namespace State

def depositSum (s : State) : ℤ := Store.total (fun _ b => b.deposit.iris) s.bindings

/-- What every message keeps, whatever its prices. -/
structure Backed (env : Env) (s : State) : Prop extends s.book.Sound env s.bindings where
  params : ∃ mainnet, s.params.validate mainnet = true
  bank : s.bank.Sound
  bindings : ∀ k b, s.bindings.get k = some b → k = b.key env ∧ b.Sound
  deposits : s.depositSum ≤ s.bank.balance serviceDepositCoinsAccAddr irisAtto
  fees : s.book.owed ≤ s.bank.balance serviceRequestCoinsAccAddr irisAtto

/-- Invariant of the module: its coins are backed, and the minimum deposit of every binding can be
computed. -/
structure Inv (env : Env) (s : State) : Prop extends backed : s.Backed env where
  minDeposit : ∀ k b, s.bindings.get k = some b → MinDepositInRange s.params b.prices

variable {env : Env} {s s' : State} {b : SvcBinding} {key : String}

lemma Inv.wellFormed (h : s.Inv env) (hb : s.bindings.get key = some b) : b.WellFormed s.params :=
  ⟨(h.bindings key b hb).2, h.minDeposit key b hb⟩

/-- The block in progress does not matter. -/
lemma Backed.inBlock (h : s.Backed env) (counter height blockTime : ℤ) :
    { s with intraTxCounter := counter, height := height, blockTime := blockTime }.Backed env :=
  ⟨⟨h.requests, h.returned, h.incoming⟩, h.params, h.bank, h.bindings, h.deposits, h.fees⟩

lemma Backed.params_bounds (h : s.Backed env) : 0 < s.params.minDepositMultiple ∧
      (0 ≤ s.params.slashFraction.raw ∧ s.params.slashFraction.raw ≤ 2 * 10 ^ 9) ∧
      (0 ≤ s.params.serviceFeeTax.raw ∧ s.params.serviceFeeTax.raw ≤ 2 * 10 ^ 9) := by
  obtain ⟨mainnet, h⟩ := h.params
  simp only [Params.validate, Bool.and_eq_true, decide_eq_true_eq, Dec.lt_def, Dec.le_def,
    Dec.zero_raw, Dec.newDecWithPrec] at h
  obtain ⟨⟨⟨⟨⟨⟨_, hmul, _⟩, hslash0, hslash1⟩, htax0, htax1⟩, _⟩, _⟩, _⟩ := h
  refine ⟨?_, ⟨hslash0.le, by omega⟩, ⟨htax0.le, by omega⟩⟩
  split_ifs at hmul <;> simp only [decide_eq_true_eq] at hmul <;> omega

/-- Every deposit is covered, and in range. -/
lemma Backed.deposit_le (h : s.Backed env) (hb : s.bindings.get key = some b) :
    b.deposit.iris ≤ s.bank.balance serviceDepositCoinsAccAddr irisAtto :=
  (le_total (fun k b hb => (h.bindings k b hb).2.deposit.nonneg) hb).trans h.deposits

lemma Backed.deposit_lt (h : s.Backed env) (hb : s.bindings.get key = some b) :
    b.deposit.iris < 2 ^ 255 :=
  ((h.deposit_le hb).trans (Bank.balance_le_sumOf _ _ _)).trans_lt h.bank.range

lemma Backed.owed_lt (h : s.Backed env) : s.book.owed < 2 ^ 255 :=
  (h.fees.trans (Bank.balance_le_sumOf _ _ _)).trans_lt h.bank.range

def depositAt (s : State) (key : String) : ℤ :=
  Store.contribution (fun _ b => b.deposit.iris) s.bindings key

lemma depositAt_of_get (h : s.bindings.get key = some b) : s.depositAt key = b.deposit.iris := by
  rw [depositAt, contribution, h]
  rfl

/-- Price that a request pays for its method. -/
def requestPrice (env : Env) (s : State) (msg : MsgSvcRequest) : Option Coin :=
  (s.bindings.get (msg.toBindingRef.key env)).bind (fun b =>
    (methodPrice b.prices msg.methodID).toOption.join)

/-- Request that a message adds. -/
def acceptedRequest (env : Env) (s : State) (msg : MsgSvcRequest) : SvcRequest where
  defChainID := msg.defChainID
  defName := msg.defName
  bindChainID := msg.bindChainID
  reqChainID := msg.reqChainID
  methodID := msg.methodID
  provider := msg.provider
  consumer := msg.consumer
  serviceFee := if msg.profiling then [] else (s.requestPrice env msg).toList
  profiling := msg.profiling
  requestHeight := s.height
  requestIntraTxCounter := s.intraTxCounter
  expirationHeight := s.height + s.params.maxRequestTimeout

/-- State with other tables of requests and fees, and another bank. -/
def withBook (s : State) (bank : Bank) (b : Book) : State :=
  { s with
    bank := bank
    requestsByExpiration := b.pending
    activeRequests := b.active
    responses := b.responses
    returnedFees := b.returned
    incomingFees := b.incoming }

end State
end

section
variable {env : Env} {s s' : State} {bank : Bank} {b : SvcBinding} {tested : Prop} {log : Log}
  {e : Event}

def SvcBinding.ref (b : SvcBinding) : BindingRef where
  defName := b.defName
  defChainID := b.defChainID
  bindChainID := b.bindChainID
  provider := b.provider

/-- Deposit of a binding is at least the minimum for its prices. -/
def SvcBinding.Covered (params : Params) (b : SvcBinding) : Prop :=
  ∃ minDeposit, getMinDeposit params b.prices = .ok minDeposit ∧
    b.deposit.isAllGTE minDeposit = true

/-- What every write of a binding does: the deposit changes by what is logged, and a binding that
is available is covered. `tested` is the condition under which new prices can be used. -/
structure BindingWrite (env : Env) (tested : Prop) (s : State) (log : Log) (b : SvcBinding) :
    Prop where
  sound : b.Sound
  key : ∀ e ∈ log, e.key? = some (b.key env)
  deposit : b.deposit.iris = s.depositAt (b.key env) + log.total Event.deposits
  covered : b.available = true → b.Covered s.params
  ref : (b.ref.validateBasic = .ok () ∧
      (s.getServiceDefinition b.defChainID b.defName).isSome = true) ∨
    ∃ old, s.bindings.get (b.key env) = some old ∧ b.ref = old.ref
  minDeposit : tested →
    (∀ old, s.bindings.get (b.key env) = some old → MinDepositInRange s.params old.prices) →
    MinDepositInRange s.params b.prices

/-- One change of the tables, and what it logs. -/
inductive Change (env : Env) (tested : Prop) (s : State) : Log → State → Prop
  | define {stored : Store String MethodProperty} (msg : MsgSvcDef)
      (hvalid : msg.validateBasic env = .ok ())
      (hfree : s.definitions.get (getServiceDefinitionKey msg.chainId msg.name) = none)
      (hstored : ∀ k m, stored.get k = some m → s.methods.get k = some m ∨
        k = getMethodPropertyKey msg.chainId msg.name m.id) :
      Change env tested s [] { s with
        definitions := s.definitions.set (getServiceDefinitionKey msg.chainId msg.name) msg.toSvcDef
        methods := stored }
  | write {log : Log} {b : SvcBinding} {bank : Bank} (h : BindingWrite env tested s log b) :
      Change env tested s log ({ s with bank := bank }.setBinding env b)
  | accept {bank : Bank} (msg : MsgSvcRequest)
      (hbinding :
        (s.bindings.get ((s.acceptedRequest env msg).bindingKey env)).isSome = true)
      (hfee : (s.acceptedRequest env msg).serviceFee.IrisOnly) :
      Change env tested s [.accepted (s.acceptedRequest env msg)] { s with
        bank := bank
        intraTxCounter := toInt16 (s.intraTxCounter + 1)
        requests := s.requests.set (getRequestKey env (s.acceptedRequest env msg))
          (s.acceptedRequest env msg)
        activeRequests := s.activeRequests.set (getRequestKey env (s.acceptedRequest env msg))
          (s.acceptedRequest env msg)
        requestsByExpiration := s.requestsByExpiration.set
          (getRequestsByExpirationIndexKeyByReq (s.acceptedRequest env msg))
          (s.acceptedRequest env msg) }
  | book {log : Log} {bank : Bank} {b : Book} (h : s.book.Step env log b)
      (hkey : ∀ e ∈ log, e.key? = none) : Change env tested s log (s.withBook bank b)

/-- One change, with at most one event, whose transfer is made. -/
structure Effect (env : Env) (tested : Prop) (s : State) (log : Log) (s' : State) : Prop where
  change : Change env tested s log s'
  single : log.length ≤ 1
  proper : ∀ e ∈ log, e.Proper
  pay : log.pay s.bank = .ok s'.bank

namespace Effect

lemma of_silent (h : Change env tested s [] s') (hbank : s'.bank = s.bank) :
    Effect env tested s [] s' :=
  ⟨h, Nat.zero_le 1, by simp, congrArg Except.ok hbank.symm⟩

lemma of_event {t : Transfer} (h : Change env tested s [e] s') (hproper : e.Proper)
    (ht : e.transfer? = some t)
    (hsend : s.bank.sendCoins t.fromAddr t.toAddr t.coins = .ok s'.bank) :
    Effect env tested s [e] s' :=
  ⟨h, le_rfl, by simpa using hproper, Log.pay_singleton ht hsend⟩

/-- An effect keeps the deposits and the fees backed. -/
lemma backed (he : Effect env tested s log s') (h : s.Backed env) : s'.Backed env := by
  have hbank := Log.sound_of_pay he.proper he.pay h.bank
  obtain ⟨hdeposits, howed⟩ := Log.escrow_of_pay he.proper he.pay
  have hold := h.deposits
  have hfees := h.fees
  cases he.change with
  | define msg =>
    exact ⟨⟨h.requests, h.returned, h.incoming⟩, h.params, h.bank, h.bindings, h.deposits, h.fees⟩
  | @write _ b bank hw =>
    have hzero := Log.total_eq_zero (fun e he => Event.fees_of_key? (hw.key e he))
    refine ⟨⟨fun k r hr => ?_, h.returned, h.incoming⟩, h.params, hbank,
      forall_set h.bindings ⟨rfl, hw.sound⟩, ?_, ?_⟩
    · obtain ⟨hkey, hfee, hbinding⟩ := h.requests k r hr
      refine ⟨hkey, hfee, ?_⟩
      simp only [setBinding, get_set]
      split_ifs
      · rfl
      · exact hbinding
    · have hdeposit := hw.deposit
      simp only [depositSum, setBinding, total_set, depositAt] at *
      omega
    · rw [hzero, add_zero] at howed
      exact hfees.trans howed
  | accept msg hbinding hfee =>
    obtain ⟨hsound, hle⟩ := Book.Sound.accept h.toSound ⟨rfl, hfee, hbinding⟩
    rw [Log.total_singleton] at hdeposits howed
    refine ⟨hsound, h.params, hbank, h.bindings, ?_, ?_⟩
    · exact (hold.trans (add_zero _).ge).trans hdeposits
    · exact (hle.trans (add_le_add_left hfees _)).trans howed
  | book hstep hkey =>
    have hzero := Log.total_eq_zero (fun e he => Event.deposits_of_key? (hkey e he))
    have howed' := hstep.owed
    refine ⟨Book.Sound.step h.toSound hstep, h.params, hbank, h.bindings, ?_, ?_⟩
    · rw [hzero, add_zero] at hdeposits
      exact hold.trans hdeposits
    · exact (howed'.le.trans (add_le_add_left hfees _)).trans howed

/-- Where the prices are tested, it also keeps the minimum deposits within range. -/
lemma inv (he : Effect env tested s log s') (h : s.Inv env) (htested : tested) : s'.Inv env := by
  refine ⟨he.backed h.backed, ?_⟩
  cases he.change with
  | define | accept | book => exact h.minDeposit
  | write hw => exact forall_set h.minDeposit (hw.minDeposit htested (h.minDeposit _))

end Effect
end
end Irishub.Service
