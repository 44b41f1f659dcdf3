import Irishub.Service.Solvency

/-!
# Service: what the messages do

`SvcMsg.events` lists what a message does, in the state before it. Every message of the
module is one effect with these events.

One update is outside `Inv`: `UpdateServiceBinding` does not test the prices of a binding
that is not available. `MsgSvcBindingUpdate.PricesInRange` excludes prices whose min
deposit leaves the range of an `sdk.Int`.

**Results**
* `handle_effect`: a message is one effect.
* `slash_effect`: so is a slash.
-/

namespace Irishub.Service
open Lib State Store Option

section
variable (env : Env) (s : State)

namespace State

/-- Request that a response names. -/
def answeredRequest (msg : MsgSvcResponse) : Option SvcRequest :=
  let (eHeight, rHeight, counter) := (convertRequestID msg.requestID).getD (0, 0, 0)
  s.getActiveRequest eHeight rHeight counter

def depositCoins (key : String) : Coins := ((s.bindings.get key).map (·.deposit)).getD []

def providerAt (key : String) : Address := ((s.bindings.get key).map (·.provider)).getD 0

/-- Tax on the fee of a request. -/
def taxCoins (req : SvcRequest) : Coins :=
  (shareOf s.params.serviceFeeTax req.serviceFee).toOption.getD []

/-- Share of the deposit that the timeout of a request costs. -/
def slashCoins (req : SvcRequest) : Coins :=
  (shareOf s.params.slashFraction (s.depositCoins (req.bindingKey env))).toOption.getD []

end State

/-- What a message does, in the state before it. -/
def SvcMsg.events : SvcMsg → Log
  | .bind msg => [.deposited (msg.toBindingRef.key env) msg.provider msg.deposit]
  | .updateBinding msg => [.deposited (msg.toBindingRef.key env) msg.provider msg.deposit]
  | .enable msg =>
    -- the deposit is paid by the provider of the stored binding
    let key := msg.toBindingRef.key env
    [.deposited key (s.providerAt key) msg.deposit]
  | .refundDeposit msg =>
    let key := msg.toBindingRef.key env
    [.depositRefunded key (s.providerAt key) (s.depositCoins key)]
  | .request msg => [.accepted (s.acceptedRequest env msg)]
  | .respond msg => (s.answeredRequest msg).toList.map (fun req => .answered req (s.taxCoins req))
  | .refundFees msg => [.feeRefunded msg.consumer ((s.returnedFees.get msg.consumer).getD [])]
  | .withdrawFees msg => [.feeWithdrawn msg.provider ((s.incomingFees.get msg.provider).getD [])]
  | .withdrawTax msg => [.taxWithdrawn msg.destAddress msg.amount]
  | .define _ | .disable _ => []

/-- Prices of an update are tested, if the binding is available, or within range, if it is
not. -/
def MsgSvcBindingUpdate.PricesInRange (msg : MsgSvcBindingUpdate) : Prop :=
  ∀ b, s.bindings.get (msg.toBindingRef.key env) = some b → b.available = false →
    MinDepositInRange s.params msg.prices

def SvcMsg.PricesInRange : SvcMsg → Prop
  | .updateBinding msg => msg.PricesInRange env s
  | _ => True

end

section
variable {env : Env} {s s' : State} {bank : Bank} {b : SvcBinding} {tested : Prop} {log : Log}
  {deposit added : Coins} {prices : List Coin}

lemma mustGetBinding_ok {ref : BindingRef} :
    s.mustGetBinding env ref = .ok b ↔ s.bindings.get (ref.key env) = some b := by
  unfold mustGetBinding
  cases s.bindings.get (ref.key env) with
  | none | some b' => simp

lemma sendCoins_eq_ok {fromAddr toAddr : Address} {amt : Coins} :
    s.sendCoins fromAddr toAddr amt = .ok s' ↔
      ∃ bank, s.bank.sendCoins fromAddr toAddr amt = .ok bank ∧ s' = { s with bank := bank } := by
  simp only [sendCoins, bind_ok, pure_eq_ok]
  exact exists_congr (fun bank => and_congr_right (fun _ => eq_comm))

lemma elim_fail_ok {α : Type} {o : Option α} {e : SdkError} {a : α} :
    o.elim (fail e) .ok = (.ok a : Outcome α) ↔ o = some a := by
  cases o with
  | none | some a' => simp

lemma addMethodsFrom_ok {svcDef : SvcDef} {index : ℕ} {methods : List IdlMethod}
    (h : State.addMethodsFrom svcDef index s methods = .ok s') :
    ∃ stored, s' = { s with methods := stored } ∧
      ∀ k m, stored.get k = some m → s.methods.get k = some m ∨
        k = getMethodPropertyKey svcDef.chainId svcDef.name m.id := by
  induction methods generalizing index s with
  | nil =>
    cases h
    exact ⟨s'.methods, rfl, fun k m hm => Or.inl hm⟩
  | cons method methods ih =>
    simp only [addMethodsFrom, bind_ok] at h
    obtain ⟨methodProperty, _, h⟩ := h
    obtain ⟨stored, rfl, hstored⟩ := ih h
    refine ⟨stored, rfl, fun k m hm => ?_⟩
    rcases hstored k m hm with hm | hm
    · rw [get_set] at hm
      split_ifs at hm with hk
      · cases hm
        exact Or.inr hk
      · exact Or.inl hm
    · exact Or.inr hm

lemma handleMsgSvcDef_effect {msg : MsgSvcDef} (hv : msg.validateBasic env = .ok ())
    (hrun : s.handleMsgSvcDef env msg = .ok s') : Effect env tested s [] s' := by
  simp only [handleMsgSvcDef, addMethods, bind_ok, require_ok, isNone_iff_eq_none] at hrun
  obtain ⟨_, hfree, methods, _, hrun⟩ := hrun
  obtain ⟨stored, rfl, hstored⟩ := addMethodsFrom_ok hrun
  exact .of_silent (.define msg hv hfree hstored) rfl

lemma addDeposit_ok {r : Coins} (hd : deposit.IrisOnly)
    (ha : added.isValidIrisAtto = true) (h : addDeposit deposit added = .ok r) :
    r.IrisOnly ∧ r.iris = deposit.iris + added.iris := by
  have hadded := (Coins.IrisOnly.of_isValidIrisAtto ha).1
  have hneg : added.isAnyNegative = false := by
    rcases hadded with rfl | ⟨x, hx, rfl⟩
    · rfl
    · simpa [Coins.isAnyNegative] using hx
  rw [addDeposit, hneg] at h
  exact hd.of_add hadded h

lemma checkMinDeposit_ok {params : Params}
    (h : checkMinDeposit params prices deposit added = .ok ()) :
    ∃ minDeposit, getMinDeposit params prices = .ok minDeposit ∧
      deposit.isAllGTE minDeposit = true := by
  obtain ⟨minDeposit, hmin, h⟩ := bind_ok.mp h
  refine ⟨minDeposit, hmin, ?_⟩
  split_ifs at h with hgte
  · exact hgte
  · obtain ⟨_, _, h⟩ := bind_ok.mp h
    obtain ⟨_, _, h⟩ := bind_ok.mp h
    simp at h

lemma SvcBinding.Covered.minDepositInRange (h : s.Backed env)
    (hprices : ∀ p ∈ b.prices, p.isValidIrisAtto = true) (hb : b.Covered s.params) :
    MinDepositInRange s.params b.prices := by
  obtain ⟨minDeposit, hmin, _⟩ := hb
  exact (getMinDeposit_ok_iff h.params_bounds.1 hprices).mp ⟨minDeposit, hmin⟩

lemma handleMsgSvcBind_effect {msg : MsgSvcBind} (h : s.Backed env)
    (hv : msg.validateBasic = .ok ()) (hsigner : msg.provider ∉ moduleAccounts)
    (hrun : s.handleMsgSvcBind env msg = .ok s') :
    Effect env tested s ((SvcMsg.bind msg).events env s) s' := by
  simp only [MsgSvcBind.validateBasic, bind_ok, require_ok, List.all_eq_true] at hv
  obtain ⟨_, href, _, _, _, hdeposit, _, hprices, _⟩ := hv
  simp only [handleMsgSvcBind, addServiceBinding, bind_ok,
    require_ok, sendCoins_eq_ok, pure_eq_ok] at hrun
  obtain ⟨_, hdefined, _, hnone, minDeposit, hmin, _, hgte, _, _, s1, ⟨bank, hsend, rfl⟩,
    rfl⟩ := hrun
  have hzero : s.depositAt (msg.toBindingRef.key env) = 0 := by
    rw [depositAt, contribution]
    exact congrArg (fun o : Option SvcBinding => o.elim 0 (fun b => b.deposit.iris))
      (isNone_iff_eq_none.mp hnone)
  refine .of_event (.write ?_) hsigner rfl hsend
  constructor
  · exact ⟨(Coins.IrisOnly.of_isValidIrisAtto hdeposit).1, hprices, hsigner⟩
  · exact List.forall_mem_singleton.mpr rfl
  · rw [Log.total_singleton]
    exact ((congrArg (· + msg.deposit.iris) hzero).trans (zero_add _)).symm
  · exact fun _ => ⟨minDeposit, hmin, hgte⟩
  · exact Or.inl ⟨href, hdefined⟩
  · exact fun _ _ => (getMinDeposit_ok_iff h.params_bounds.1 hprices).mp ⟨minDeposit, hmin⟩

lemma updatedPrices_ok {msg : MsgSvcBindingUpdate} {old : List Coin}
    (h : s.updatedPrices msg old = .ok prices) : prices = old ∨ prices = msg.prices := by
  unfold updatedPrices at h
  split_ifs at h with hnil
  · exact Or.inl (Except.ok.inj h).symm
  · obtain ⟨_, _, h⟩ := bind_ok.mp h
    exact Or.inr (Except.ok.inj h).symm

lemma updateServiceBinding_effect {msg : MsgSvcBindingUpdate} (h : s.Backed env)
    (hv : msg.validateBasic = .ok ()) (hsigner : msg.provider ∉ moduleAccounts)
    (hrun : s.updateServiceBinding env msg = .ok s') :
    Effect env (msg.PricesInRange env s) s ((SvcMsg.updateBinding msg).events env s) s' := by
  simp only [MsgSvcBindingUpdate.validateBasic, bind_ok, require_ok, List.all_eq_true] at hv
  obtain ⟨_, _, _, _, _, hdeposit, _, hmsgPrices, _⟩ := hv
  simp only [updateServiceBinding, bind_ok, mustGetBinding_ok, sendCoins_eq_ok] at hrun
  obtain ⟨old, hold, prices, hprices, deposit, hadd, s1, ⟨bank, hsend, rfl⟩, hrun⟩ := hrun
  obtain ⟨hkey, hsound⟩ := h.bindings _ _ hold
  obtain ⟨hiris, hsum⟩ := addDeposit_ok hsound.deposit hdeposit hadd
  have hvalid : ∀ p ∈ prices, p.isValidIrisAtto = true := by
    rcases updatedPrices_ok hprices with rfl | rfl
    · exact hsound.prices
    · exact hmsgPrices
  have hcovered : old.available = true → (old.update msg prices deposit).Covered s.params := by
    intro havail
    rw [if_pos havail] at hrun
    obtain ⟨_, hcheck, _⟩ := bind_ok.mp hrun
    exact checkMinDeposit_ok hcheck
  have hs' : s' = { s with bank := bank }.setBinding env (old.update msg prices deposit) := by
    rw [hkey] at hrun
    split_ifs at hrun with havail
    · obtain ⟨_, _, hrun⟩ := bind_ok.mp hrun
      exact (Except.ok.inj hrun).symm
    · exact (Except.ok.inj hrun).symm
  have hold' : s.bindings.get ((old.update msg prices deposit).key env) = some old := by
    rw [hkey] at hold
    exact hold
  subst hs'
  refine .of_event (.write ?_) hsigner rfl hsend
  constructor
  · exact ⟨hiris, hvalid, hsound.provider⟩
  · exact List.forall_mem_singleton.mpr (congrArg some hkey)
  · rw [depositAt_of_get hold', Log.total_singleton]
    exact hsum
  · exact hcovered
  · exact Or.inr ⟨old, hold', rfl⟩
  · intro hrange hmin
    by_cases havail : old.available = true
    · exact (hcovered havail).minDepositInRange h hvalid
    · rcases updatedPrices_ok hprices with rfl | rfl
      · exact hmin old hold'
      · exact hrange old hold (by simpa using havail)

/-- A write that leaves the reference and the prices of a stored binding alone. -/
lemma BindingWrite.of_old {old : SvcBinding}
    (hold : s.bindings.get (b.key env) = some old) (hsound : b.Sound)
    (hkey : ∀ e ∈ log, e.key? = some (b.key env))
    (hdeposit : b.deposit.iris = old.deposit.iris + log.total Event.deposits)
    (hcovered : b.available = true → b.Covered s.params)
    (href : b.ref = old.ref) (hprices : b.prices = old.prices) :
    BindingWrite env tested s log b where
  sound := hsound
  key := hkey
  deposit := by
    rw [depositAt_of_get hold]
    exact hdeposit
  covered := hcovered
  ref := Or.inr ⟨old, hold, href⟩
  minDeposit _ hmin := by
    rw [hprices]
    exact hmin old hold

lemma disable_effect {msg : MsgSvcDisable} (h : s.Backed env) (hrun : s.disable env msg = .ok s') :
    Effect env tested s [] s' := by
  simp only [disable, bind_ok, mustGetBinding_ok, require_ok, pure_eq_ok] at hrun
  obtain ⟨b, hb, _, _, rfl⟩ := hrun
  obtain ⟨hkey, hsound⟩ := h.bindings _ _ hb
  rw [hkey] at hb
  refine .of_silent (.write (.of_old hb ⟨hsound.deposit, hsound.prices, hsound.provider⟩ ?_ ?_ ?_
    rfl rfl)) rfl
  · simp
  · exact (add_zero _).symm
  · exact fun havail => absurd havail (by simp)

lemma depositCoins_of_get {key : String} (hb : s.bindings.get key = some b) :
    s.providerAt key = b.provider ∧ s.depositCoins key = b.deposit := by
  rw [providerAt, depositCoins, hb]
  exact ⟨rfl, rfl⟩

lemma enable_effect {msg : MsgSvcEnable} (h : s.Backed env) (hv : msg.validateBasic = .ok ())
    (hrun : s.enable env msg = .ok s') :
    Effect env tested s ((SvcMsg.enable msg).events env s) s' := by
  simp only [MsgSvcEnable.validateBasic, bind_ok, require_ok] at hv
  obtain ⟨_, _, hdeposit⟩ := hv
  simp only [enable, bind_ok, mustGetBinding_ok, require_ok, sendCoins_eq_ok, pure_eq_ok] at hrun
  obtain ⟨b, hb, _, _, deposit, hadd, _, hcheck, s1, ⟨bank, hsend, rfl⟩, rfl⟩ := hrun
  obtain ⟨hkey, hsound⟩ := h.bindings _ _ hb
  obtain ⟨hiris, hsum⟩ := addDeposit_ok hsound.deposit hdeposit hadd
  rw [SvcMsg.events, (depositCoins_of_get hb).1]
  rw [hkey] at hb ⊢
  refine .of_event (.write (.of_old hb ⟨hiris, hsound.prices, hsound.provider⟩ ?_ ?_ ?_ rfl rfl))
    hsound.provider rfl hsend
  · exact List.forall_mem_singleton.mpr rfl
  · rw [Log.total_singleton]
    exact hsum
  · exact fun _ => checkMinDeposit_ok hcheck

lemma refundDeposit_effect {msg : MsgSvcRefundDeposit} (h : s.Backed env)
    (hrun : s.refundDeposit env msg = .ok s') :
    Effect env tested s ((SvcMsg.refundDeposit msg).events env s) s' := by
  simp only [refundDeposit, bind_ok, mustGetBinding_ok, require_ok, sendCoins_eq_ok,
    pure_eq_ok] at hrun
  obtain ⟨b, hb, _, havail, _, _, _, _, s1, ⟨bank, hsend, rfl⟩, rfl⟩ := hrun
  obtain ⟨hkey, hsound⟩ := h.bindings _ _ hb
  rw [SvcMsg.events, (depositCoins_of_get hb).1, (depositCoins_of_get hb).2]
  rw [hkey] at hb ⊢
  refine .of_event (.write (.of_old hb ⟨.nil, hsound.prices, hsound.provider⟩ ?_ ?_ ?_ rfl rfl))
    hsound.provider rfl hsend
  · exact List.forall_mem_singleton.mpr rfl
  · rw [Log.total_singleton]
    exact (add_neg_cancel _).symm
  · intro htrue
    rw [show b.available = true from htrue] at havail
    exact absurd havail (by simp)

/-- `Slash` of an amount within the deposit of a stored binding, already burned. -/
lemma slash_effect {slashCoins : Coins} (h : s.Backed env)
    (hb : s.bindings.get (b.key env) = some b) (hiris : slashCoins.IrisOnly)
    (hburn : s.bank.burnCoins serviceDepositCoinsAccAddr slashCoins = .ok bank)
    (hrun : { s with bank := bank }.slash env b slashCoins = .ok s') :
    Effect env tested s [.slashed (b.key env) slashCoins] s' := by
  obtain ⟨_, hsound⟩ := h.bindings _ _ hb
  simp only [slash, bind_ok, assert_ok] at hrun
  obtain ⟨⟨deposit, hasNeg⟩, hsub, _, hneg, minDeposit, hmin, hrun⟩ := hrun
  cases hasNeg with
  | true => simp at hneg
  | false =>
    obtain ⟨hdeposit, hsum⟩ := hsound.deposit.of_safeSub hiris hsub
    dsimp only at hrun
    have hwrite : ∀ b' : SvcBinding, b'.key env = b.key env → b'.deposit = deposit →
        b'.provider = b.provider → (b'.available = true → b'.Covered s.params) → b'.ref = b.ref →
        b'.prices = b.prices →
        BindingWrite env tested s [.slashed (b.key env) slashCoins] b' := by
      intro b' hkey hdep hprovider hcovered href hprices
      rw [← hkey] at hb
      refine .of_old hb ⟨hdep ▸ hdeposit, hprices ▸ hsound.prices, hprovider ▸ hsound.provider⟩
        ?_ ?_ hcovered href hprices
      · exact List.forall_mem_singleton.mpr (congrArg some hkey.symm)
      · rw [Log.total_singleton, hdep, hsum]
        rfl
    split_ifs at hrun with hgte
    · cases hrun
      exact .of_event (.write (hwrite _ rfl rfl rfl (fun _ => ⟨minDeposit, hmin, hgte⟩) rfl rfl))
        hiris rfl hburn
    · cases hrun
      exact .of_event (.write (hwrite _ rfl rfl rfl (fun havail => absurd havail (by simp)) rfl
        rfl)) hiris rfl hburn

end

section
variable {env : Env} {s s' : State} {tested : Prop} {req : SvcRequest} {address : Address}
  {coins : Coins} {e r c : ℤ}

lemma methodPrice_mem {prices : List Coin} {methodID : ℤ} {price : Option Coin}
    (h : methodPrice prices methodID = .ok price) : ∀ p, price = some p → p ∈ prices := by
  unfold methodPrice at h
  intro p hp
  subst hp
  split_ifs at h with hle hlt
  · simp at h
  · exact List.mem_of_getElem? (Except.ok.inj h)
  · simp at h

/-- An accepted request: it is stored three times, and the consumer pays the fee. -/
lemma handleMsgSvcRequest_ok {msg : MsgSvcRequest} (h : s.handleMsgSvcRequest env msg = .ok s') :
    ∃ b bank, s.bindings.get ((s.acceptedRequest env msg).bindingKey env) = some b ∧
      (∀ p, s.requestPrice env msg = some p → p ∈ b.prices) ∧
      s.bank.sendCoins msg.consumer serviceRequestCoinsAccAddr
        (s.acceptedRequest env msg).serviceFee = .ok bank ∧
      s' = { s with
        bank := bank
        intraTxCounter := toInt16 (s.intraTxCounter + 1)
        requests := s.requests.set (getRequestKey env (s.acceptedRequest env msg))
          (s.acceptedRequest env msg)
        activeRequests := s.activeRequests.set (getRequestKey env (s.acceptedRequest env msg))
          (s.acceptedRequest env msg)
        requestsByExpiration := s.requestsByExpiration.set
          (getRequestsByExpirationIndexKeyByReq (s.acceptedRequest env msg))
          (s.acceptedRequest env msg) } := by
  simp only [handleMsgSvcRequest, bind_ok, mustGetBinding_ok, require_ok] at h
  obtain ⟨b, hb, _, _, _, _, _, _, price, hprice, _, _, h⟩ := h
  have hrequest : s.requestPrice env msg = price := by
    simp only [requestPrice]
    rw [show s.bindings.get (msg.toBindingRef.key env) = some b from hb, bind_some, hprice]
    rfl
  simp only [addRequest, bind_ok, sendCoins_eq_ok, pure_eq_ok, ← hrequest] at h
  obtain ⟨_, ⟨bank, hsend, rfl⟩, rfl⟩ := h
  refine ⟨b, bank, hb, ?_, hsend, rfl⟩
  rw [hrequest]
  exact methodPrice_mem hprice

lemma handleMsgSvcRequest_effect {msg : MsgSvcRequest} (h : s.Backed env)
    (hsigner : msg.consumer ∉ moduleAccounts) (hrun : s.handleMsgSvcRequest env msg = .ok s') :
    Effect env tested s [.accepted (s.acceptedRequest env msg)] s' := by
  obtain ⟨b, bank, hb, hprice, hsend, rfl⟩ := handleMsgSvcRequest_ok hrun
  have hfee : (s.acceptedRequest env msg).serviceFee.IrisOnly := by
    simp only [acceptedRequest]
    split_ifs
    · exact .nil
    · cases hp : s.requestPrice env msg with
      | none => exact .nil
      | some p =>
        exact (Coins.IrisOnly.of_coin ((h.bindings _ _ hb).2.prices p (hprice p hp))).1
  exact .of_event (.accept msg (isSome_iff_exists.mpr ⟨b, hb⟩) hfee) hsigner rfl hsend

/-- Tax leaves the request account, and the rest is added to the income of the provider. -/
lemma addIncomingFee_ok (hrun : s.addIncomingFee address coins = .ok s')
    (htax : 0 ≤ s.params.serviceFeeTax.raw ∧ s.params.serviceFeeTax.raw ≤ 2 * 10 ^ 9)
    (hincoming : ∀ a cs, s.incomingFees.get a = some cs → cs.IrisOnly)
    (hcoins : coins.IrisOnly) (hmax : coins.iris < 2 ^ 255) :
    ∃ tax bank sum, shareOf s.params.serviceFeeTax coins = .ok tax ∧
      s.bank.sendCoins serviceRequestCoinsAccAddr serviceTaxCoinsAccAddr tax = .ok bank ∧
      Coins.IrisOnly sum ∧
      Coins.iris sum = amountAt s.incomingFees address + (coins.iris - tax.iris) ∧
      s' = { s with bank := bank, incomingFees := s.incomingFees.set address sum } := by
  simp only [addIncomingFee, bind_ok, sendCoins_eq_ok, require_ok, pure_eq_ok] at hrun
  obtain ⟨tax, hshare, s1, ⟨bank, hsend, rfl⟩, ⟨rest, hasNeg⟩, hrest, _, hneg, sum, hadd, rfl⟩ :=
    hrun
  obtain ⟨tax', hshare', htaxIris, _⟩ := shareOf_ok htax.1 htax.2 hcoins hmax
  cases hshare.symm.trans hshare'
  have hold : ((s.incomingFees.get address).getD []).IrisOnly ∧
      ((s.incomingFees.get address).getD []).iris = amountAt s.incomingFees address := by
    unfold amountAt contribution
    cases hget : s.incomingFees.get address with
    | none => exact ⟨.nil, rfl⟩
    | some cs => exact ⟨hincoming _ _ hget, rfl⟩
  cases hasNeg with
  | true => simp at hneg
  | false =>
    obtain ⟨hrestIris, hrestSum⟩ := hcoins.of_safeSub htaxIris hrest
    obtain ⟨hsumIris, hsum⟩ := hold.1.of_add hrestIris hadd
    refine ⟨tax, bank, sum, hshare, hsend, hsumIris, ?_, rfl⟩
    rw [hsum, hold.2, hrestSum]

/-- Response that is stored for a message and the request it answers. -/
def MsgSvcResponse.response (msg : MsgSvcResponse) (req : SvcRequest) : SvcResponse where
  reqChainID := msg.reqChainID
  expirationHeight := ((convertRequestID msg.requestID).getD (0, 0, 0)).1
  requestHeight := ((convertRequestID msg.requestID).getD (0, 0, 0)).2.1
  requestIntraTxCounter := ((convertRequestID msg.requestID).getD (0, 0, 0)).2.2
  provider := msg.provider
  consumer := req.consumer

lemma toInt16_range (i : ℤ) : -2 ^ 15 ≤ toInt16 i ∧ toInt16 i < 2 ^ 15 := by
  unfold toInt16
  omega

lemma convertRequestID_range {id : String} (h : convertRequestID id = some (e, r, c)) :
    (-2 ^ 63 ≤ e ∧ e < 2 ^ 63) ∧ (-2 ^ 63 ≤ r ∧ r < 2 ^ 63) ∧ (-2 ^ 15 ≤ c ∧ c < 2 ^ 15) := by
  unfold convertRequestID at h
  split at h
  · simp only [bind, bind_eq_some_iff, pure, some.injEq, Prod.mk.injEq] at h
    obtain ⟨e', he, r', hr, c', hc, rfl, rfl, rfl⟩ := h
    exact ⟨range_of_parseInt he, range_of_parseInt hr, toInt16_range c'⟩
  · simp at h

/-- Keys of `int64` heights and `int16` counters are different. -/
lemma getRequestsByExpirationIndexKey_inj {e' r' c' : ℤ}
    (he : -2 ^ 63 ≤ e ∧ e < 2 ^ 63) (hr : -2 ^ 63 ≤ r ∧ r < 2 ^ 63)
    (hc : -2 ^ 15 ≤ c ∧ c < 2 ^ 15) (he' : -2 ^ 63 ≤ e' ∧ e' < 2 ^ 63)
    (hr' : -2 ^ 63 ≤ r' ∧ r' < 2 ^ 63) (hc' : -2 ^ 15 ≤ c' ∧ c' < 2 ^ 15)
    (h : getRequestsByExpirationIndexKey e r c = getRequestsByExpirationIndexKey e' r' c') :
    e = e' ∧ r = r' ∧ c = c' := by
  have hparts : toUint 64 e = toUint 64 e' ∧ toUint 64 r = toUint 64 r' ∧
      toUint 16 c = toUint 16 c' := by
    have h1 := congrArg (fun k : ExpirationKey => (ofLex k).1) h
    have h2 := congrArg (fun k : ExpirationKey => (ofLex (ofLex k).2).1) h
    have h3 := congrArg (fun k : ExpirationKey => (ofLex (ofLex k).2).2) h
    exact ⟨h1, h2, h3⟩
  unfold toUint at hparts
  omega

lemma response_eq {msg : MsgSvcResponse} (h : s.Backed env)
    (hreq : s.answeredRequest msg = some req) (hprovider : msg.provider = req.provider)
    (hchain : req.reqChainID = msg.reqChainID) (hrange : req.InRange) :
    msg.response req = req.response := by
  have hnumbers : let n := (convertRequestID msg.requestID).getD (0, 0, 0)
      (-2 ^ 63 ≤ n.1 ∧ n.1 < 2 ^ 63) ∧ (-2 ^ 63 ≤ n.2.1 ∧ n.2.1 < 2 ^ 63) ∧
        (-2 ^ 15 ≤ n.2.2 ∧ n.2.2 < 2 ^ 15) := by
    cases hid : convertRequestID msg.requestID with
    | none => simp
    | some n => exact convertRequestID_range (e := n.1) (r := n.2.1) (c := n.2.2) hid
  have hget : s.requestsByExpiration.get (getRequestsByExpirationIndexKey
      ((convertRequestID msg.requestID).getD (0, 0, 0)).1
      ((convertRequestID msg.requestID).getD (0, 0, 0)).2.1
      ((convertRequestID msg.requestID).getD (0, 0, 0)).2.2) = some req := hreq
  obtain ⟨he, hr, hc⟩ := hnumbers
  obtain ⟨he', hr', hc'⟩ := getRequestsByExpirationIndexKey_inj he hr hc hrange.int64.1
    hrange.int64.2 hrange.counter (h.requests _ _ hget).key_eq
  simp only [MsgSvcResponse.response, SvcRequest.response, SvcResponse.mk.injEq]
  exact ⟨hchain.symm, he', hr', hc', hprovider, trivial⟩

lemma handleMsgSvcResponse_effect {msg : MsgSvcResponse} (h : s.Backed env)
    (hrun : s.handleMsgSvcResponse env msg = .ok s') :
    Effect env tested s ((SvcMsg.respond msg).events env s) s' := by
  simp only [handleMsgSvcResponse, bind_ok, require_ok, elim_fail_ok, beq_iff_eq] at hrun
  obtain ⟨req, hreq, _, hprovider, _, hchain, hrun⟩ := hrun
  change (((s.addResponse (msg.response req)).deleteActiveRequest env req).deleteRequestExpiration
    req).addIncomingFee msg.provider req.serviceFee = .ok s' at hrun
  rw [hprovider] at hrun
  have hget : s.requestsByExpiration.get (getRequestsByExpirationIndexKeyByReq req) = some req := by
    have hget : s.requestsByExpiration.get _ = some req := hreq
    rw [← (h.requests _ _ hget).key_eq]
    exact hget
  have hle := h.toSound.fee_le hget req.consumer
  have hmax := h.owed_lt
  obtain ⟨tax, bank, sum, hshare, hsend, hiris, hsum, rfl⟩ := addIncomingFee_ok hrun
    h.params_bounds.2.2 h.incoming (h.requests _ _ hget).fee (by omega)
  have htax : s.taxCoins req = tax := by
    have hshare' : shareOf s.params.serviceFeeTax req.serviceFee = .ok tax := hshare
    rw [taxCoins, hshare']
    rfl
  have hevents : (SvcMsg.respond msg).events env s = [.answered req tax] := by
    have hanswered : s.answeredRequest msg = some req := hreq
    rw [SvcMsg.events, hanswered, ← htax]
    rfl
  have hstep : s.book.Step env [.answered req tax] _ :=
    .answer hget (response_eq h hreq hprovider hchain) hiris hsum
  rw [hevents]
  exact .of_event (.book hstep (by simp [Event.key?])) trivial rfl hsend

lemma refundFee_effect (haddress : address ∉ moduleAccounts)
    (hrun : s.refundFee address = .ok s') : Effect env tested s
      [.feeRefunded address ((s.returnedFees.get address).getD [])] s' := by
  simp only [refundFee, bind_ok, sendCoins_eq_ok, pure_eq_ok, elim_fail_ok] at hrun
  obtain ⟨fee, hfee, _, ⟨bank, hsend, rfl⟩, rfl⟩ := hrun
  have hstep : s.book.Step env [.feeRefunded address fee] _ := .refund hfee
  rw [hfee]
  exact .of_event (.book hstep (by simp [Event.key?])) haddress rfl hsend

lemma withdrawFee_effect (haddress : address ∉ moduleAccounts)
    (hrun : s.withdrawFee address = .ok s') : Effect env tested s
      [.feeWithdrawn address ((s.incomingFees.get address).getD [])] s' := by
  simp only [withdrawFee, bind_ok, sendCoins_eq_ok, pure_eq_ok, elim_fail_ok] at hrun
  obtain ⟨fee, hfee, _, ⟨bank, hsend, rfl⟩, rfl⟩ := hrun
  have hstep : s.book.Step env [.feeWithdrawn address fee] _ := .withdraw hfee
  rw [hfee]
  exact .of_event (.book hstep (by simp [Event.key?])) haddress rfl hsend

lemma handleMsgSvcWithdrawTax_effect {msg : MsgSvcWithdrawTax}
    (hv : (SvcMsg.withdrawTax msg).validateBasic env = .ok ())
    (hrun : s.handleMsgSvcWithdrawTax env msg = .ok s') :
    Effect env tested s [.taxWithdrawn msg.destAddress msg.amount] s' := by
  simp only [handleMsgSvcWithdrawTax, bind_ok, require_ok, sendCoins_eq_ok] at hrun
  obtain ⟨_, _, bank, hsend, rfl⟩ := hrun
  have hstep : s.book.Step env [.taxWithdrawn msg.destAddress msg.amount] s.book :=
    .idle (by simp [Event.offBook])
  exact .of_event (.book hstep (by simp [Event.key?]))
    (Coins.IrisOnly.of_isValidIrisAtto (require_ok.mp hv)).1 rfl hsend

/-- A message is one effect, with the events that are listed for it. -/
lemma handle_effect {msg : SvcMsg} (h : s.Backed env) (hv : msg.validateBasic env = .ok ())
    (hsigner : msg.signer ∉ moduleAccounts) (hrun : s.handle env msg = .ok s') :
    Effect env (msg.PricesInRange env s) s (msg.events env s) s' := by
  cases msg with
  | define msg => exact handleMsgSvcDef_effect hv hrun
  | bind msg => exact handleMsgSvcBind_effect h hv hsigner hrun
  | updateBinding msg => exact updateServiceBinding_effect h hv hsigner hrun
  | disable msg => exact disable_effect h hrun
  | enable msg => exact enable_effect h hv hrun
  | refundDeposit msg => exact refundDeposit_effect h hrun
  | request msg => exact handleMsgSvcRequest_effect h hsigner hrun
  | respond msg => exact handleMsgSvcResponse_effect h hrun
  | refundFees msg => exact refundFee_effect hsigner hrun
  | withdrawFees msg => exact withdrawFee_effect hsigner hrun
  | withdrawTax msg => exact handleMsgSvcWithdrawTax_effect hv hrun

end
end Irishub.Service
