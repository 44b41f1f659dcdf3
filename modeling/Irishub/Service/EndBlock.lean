import Irishub.Service.Effects

/-!
# Service: the end blocker

An iteration of `EndBlocker` is a sequence of effects: the slash of the provider, and
the timeout of the request. In a state that satisfies the invariant `EndBlocker` returns:
the loop invariant says besides that the requests still to visit are in the expiration
index under different keys.

**Results**
* `timeout_effects`: an iteration has the effects that `timeoutEvents` lists.
* `endBlocker_returns`: in every state reached by covered steps the end blocker returns.
-/

namespace Irishub.Service
open Lib Store List State

section
variable {env : Env} {s s' : State} {b : SvcBinding} {key : String} {req : SvcRequest} {log : Log}

/-- What the timeout of a request does. -/
def State.timeoutEvents (env : Env) (s : State) (req : SvcRequest) : Log :=
  (if req.profiling then [] else [.slashed (req.bindingKey env) (s.slashCoins env req)]) ++
    [.timedOut req]

/-- Effects one after the other, in which prices are tested. -/
abbrev Effects (env : Env) : State → Log → State → Prop := Traced (Effect env True)

lemma Effects.backed (h : Effects env s log s') (hs : s.Backed env) : s'.Backed env :=
  h.kept (fun _ _ _ hs he => he.backed hs) hs

lemma Effects.inv (h : Effects env s log s') (hs : s.Inv env) : s'.Inv env :=
  h.kept (fun _ _ _ hs he => he.inv hs trivial) hs

lemma slash_ok (env : Env) (s : State) {slashCoins : Coins}
    (hmul : 0 < s.params.minDepositMultiple) (hb : b.WellFormed s.params)
    (hslash : slashCoins.IrisOnly) (hle : slashCoins.iris ≤ b.deposit.iris)
    (hmax : b.deposit.iris < 2 ^ 255) : ∃ s', s.slash env b slashCoins = .ok s' := by
  have hnn := hb.deposit.nonneg
  obtain ⟨deposit, hsub, -⟩ := hb.deposit.safeSub_ok hslash hle
    (SdkInt.inRange_iff.mpr (by omega))
  obtain ⟨minDeposit, hmin⟩ := (getMinDeposit_ok_iff hmul hb.prices).mpr hb.minDeposit
  by_cases hgte : deposit.isAllGTE minDeposit = true
  · exact ⟨s.setBinding env { b with deposit := deposit },
      by simp [slash, hsub, hmin, assert, hgte]⟩
  · exact ⟨s.setBinding env
        { b with deposit := deposit, available := false, disableTime := s.blockTime },
      by simp [slash, hsub, hmin, assert, hgte]⟩

lemma State.Backed.slashShare (h : s.Backed env) (hb : s.bindings.get key = some b) :
    ∃ slashCoins, shareOf s.params.slashFraction b.deposit = .ok slashCoins ∧
      slashCoins.IrisOnly ∧ slashCoins.iris ≤ b.deposit.iris := by
  obtain ⟨-, ⟨hslash0, hslash1⟩, -⟩ := h.params_bounds
  exact shareOf_ok hslash0 hslash1 (h.bindings _ _ hb).2.deposit (h.deposit_lt hb)

/-- A slash does nothing for a profiling request, and otherwise writes one binding. -/
lemma slashProvider_effects (h : s.Backed env)
    (hbinding : (s.bindings.get (req.bindingKey env)).isSome = true)
    (hrun : s.slashProvider env req = .ok s') :
    Effects env s (if req.profiling then [] else
      [.slashed (req.bindingKey env) (s.slashCoins env req)]) s' ∧ s'.book = s.book := by
  unfold slashProvider at hrun
  split_ifs at hrun ⊢ with hprofiling
  · cases hrun
    exact ⟨.nil, rfl⟩
  · obtain ⟨b, hb⟩ := Option.isSome_iff_exists.mp hbinding
    have hget : s.getServiceBinding env req.defChainID req.defName req.bindChainID
        req.provider = some b := hb
    rw [hget] at hrun
    simp only [Option.getD_some, bind_ok, panicOnError_ok] at hrun
    obtain ⟨slashCoins, hshare, bank, hburn, hslash⟩ := hrun
    obtain ⟨slashCoins', hshare', hiris, -⟩ := h.slashShare hb
    cases hshare.symm.trans hshare'
    have hcoins : s.slashCoins env req = slashCoins := by
      rw [State.slashCoins, (depositCoins_of_get hb).2, hshare]
      rfl
    rw [hcoins, (h.bindings _ _ hb).1]
    rw [(h.bindings _ _ hb).1] at hb
    refine ⟨.single (slash_effect h hb hiris hburn hslash), ?_⟩
    simp only [slash, bind_ok] at hslash
    obtain ⟨_, _, _, _, _, _, hslash⟩ := hslash
    split_ifs at hslash <;> cases hslash <;> rfl

lemma slashProvider_ok (h : s.Inv env)
    (hbinding : (s.bindings.get (req.bindingKey env)).isSome = true) :
    ∃ s', s.slashProvider env req = .ok s' := by
  unfold slashProvider
  split_ifs with hprofiling
  · exact ⟨s, rfl⟩
  · obtain ⟨b, hb⟩ := Option.isSome_iff_exists.mp hbinding
    obtain ⟨slashCoins, hshare, hiris, hle⟩ := h.backed.slashShare hb
    obtain ⟨bank, hburn⟩ : ∃ bank, s.bank.sendCoins serviceDepositCoinsAccAddr burnedCoinsAccAddr
        slashCoins = .ok bank :=
      Bank.sendCoins_ok h.bank (by decide) hiris (hle.trans (h.backed.deposit_le hb))
    obtain ⟨s', hslash⟩ := slash_ok env { s with bank := bank } h.backed.params_bounds.1
      (h.wellFormed hb) hiris hle (h.backed.deposit_lt hb)
    have hget : s.getServiceBinding env req.defChainID req.defName req.bindChainID
        req.provider = some b := hb
    exact ⟨s', by simp [hget, hshare, Bank.burnCoins, hburn, hslash, panicOnError]⟩

lemma addReturnFee_ok (h : s.Backed env)
    (hreq : s.requestsByExpiration.get (getRequestsByExpirationIndexKeyByReq req) = some req) :
    ∃ fee, s.addReturnFee req.consumer req.serviceFee =
        .ok { s with returnedFees := s.returnedFees.set req.consumer fee } ∧ fee.IrisOnly ∧
      fee.iris = amountAt s.returnedFees req.consumer + req.serviceFee.iris := by
  have hfee := (h.requests _ _ hreq).fee
  have hle := h.toSound.fee_le hreq req.consumer
  have hlt := h.owed_lt
  unfold addReturnFee
  cases hget : s.returnedFees.get req.consumer with
  | none => exact ⟨req.serviceFee, rfl, hfee, by simp [amountAt, contribution, hget]⟩
  | some fee =>
    have hold : amountAt s.book.returned req.consumer = fee.iris := amountAt_of_get hget
    have hnn := hfee.nonneg
    obtain ⟨sum, hsum, hiris, hsumEq⟩ := (h.returned _ _ hget).add_ok hfee
      (SdkInt.inRange_iff.mpr (by omega))
    refine ⟨sum, ?_, hiris, hsumEq.trans (congrArg (· + req.serviceFee.iris) hold.symm)⟩
    dsimp only
    rw [hsum]
    rfl

/-- One iteration of `EndBlocker`: the slash, the returned fee, and the deletion. -/
lemma timeout_effects (h : s.Backed env)
    (hreq : s.requestsByExpiration.get (getRequestsByExpirationIndexKeyByReq req) = some req)
    (hrun : s.timeout env req = .ok s') : Effects env s (s.timeoutEvents env req) s' ∧
      s'.requestsByExpiration =
        s.requestsByExpiration.delete (getRequestsByExpirationIndexKeyByReq req) := by
  simp only [timeout, bind_ok, pure_eq_ok] at hrun
  obtain ⟨s1, hslash, s2, hreturn, rfl⟩ := hrun
  obtain ⟨hslashed, hbook⟩ := slashProvider_effects h (h.requests _ _ hreq).binding hslash
  have hpending : s1.requestsByExpiration = s.requestsByExpiration := congrArg Book.pending hbook
  rw [← hpending] at hreq ⊢
  obtain ⟨fee, hfee, hiris, hsum⟩ := addReturnFee_ok (hslashed.backed h) hreq
  cases hreturn.symm.trans hfee
  have hstep : s1.book.Step env [.timedOut req] _ := .timeOut hreq hiris hsum
  refine ⟨.snoc hslashed ?_, rfl⟩
  exact ⟨.book hstep (by simp [Event.key?]), le_rfl, by simp [Event.Proper], rfl⟩

lemma timeout_ok (h : s.Inv env)
    (hreq : s.requestsByExpiration.get (getRequestsByExpirationIndexKeyByReq req) = some req) :
    ∃ s', s.timeout env req = .ok s' ∧ s'.Inv env ∧ s'.requestsByExpiration =
        s.requestsByExpiration.delete (getRequestsByExpirationIndexKeyByReq req) := by
  have hbinding := (h.requests _ _ hreq).binding
  obtain ⟨s1, hslash⟩ := slashProvider_ok h hbinding
  obtain ⟨hslashed, hbook⟩ := slashProvider_effects h.backed hbinding hslash
  have hreq1 : s1.requestsByExpiration.get (getRequestsByExpirationIndexKeyByReq req) =
      some req := (congrArg (fun b : Book => b.pending.get _) hbook).trans hreq
  obtain ⟨fee, hreturn, _⟩ := addReturnFee_ok (hslashed.backed h.backed) hreq1
  have hrun : ∃ s', s.timeout env req = .ok s' := by simp [timeout, hslash, hreturn]
  obtain ⟨s', hrun⟩ := hrun
  obtain ⟨heffects, hpending⟩ := timeout_effects h.backed hreq hrun
  exact ⟨s', hrun, heffects.inv h, hpending⟩

end

section
variable {env : Env} {s : State} {req : SvcRequest} {reqs : List SvcRequest}

/-- Requests still to visit are pending, under different keys. -/
structure Due (reqs : List SvcRequest) (s : State) : Prop where
  pending : ∀ req ∈ reqs,
    s.requestsByExpiration.get (getRequestsByExpirationIndexKeyByReq req) = some req
  nodup : (reqs.map getRequestsByExpirationIndexKeyByReq).Nodup

lemma Due.tail {s' : State} (h : Due (req :: reqs) s) (hs' : s'.requestsByExpiration =
      s.requestsByExpiration.delete (getRequestsByExpirationIndexKeyByReq req)) : Due reqs s' := by
  have hnodup := h.nodup
  rw [map_cons, nodup_cons] at hnodup
  refine ⟨fun req' hreq' => ?_, hnodup.2⟩
  have hne : getRequestsByExpirationIndexKeyByReq req' ≠ getRequestsByExpirationIndexKeyByReq req :=
    fun heq => hnodup.1 (heq ▸ mem_map_of_mem hreq')
  rw [hs', get_delete_ne _ hne]
  exact h.pending req' (mem_cons_of_mem _ hreq')

lemma activeRequestQueue_due (h : s.Backed env) (height : ℤ) :
    Due (s.activeRequestQueue height) s := by
  have hkey : ∀ e ∈ s.requestsByExpiration.entries,
      getRequestsByExpirationIndexKeyByReq e.2 = e.1 := by
    intro e he
    exact (h.requests e.1 e.2 (mem_entries.mp he)).key_eq.symm
  constructor
  · intro req hreq
    obtain ⟨e, he, rfl⟩ := mem_map.mp hreq
    have he := (mem_filter.mp he).1
    rw [hkey e he]
    exact mem_entries.mp he
  · unfold activeRequestQueue
    rw [map_map]
    have hmap : ∀ e ∈ s.requestsByExpiration.entries.filter
        (fun e => (ofLex e.1).1 == toUint 64 height),
        (getRequestsByExpirationIndexKeyByReq ∘ Prod.snd) e = Prod.fst e := by
      intro e he
      exact hkey e (mem_filter.mp he).1
    rw [map_congr_left hmap]
    exact s.requestsByExpiration.nodup_keys.sublist (List.filter_sublist.map _)

/-- Loop invariant: the requests still to visit are due, and the invariant of the module. -/
structure LoopInv (env : Env) (reqs : List SvcRequest) (s : State) : Prop
    extends due : Due reqs s where
  inv : s.Inv env

lemma LoopInv.timeout (h : LoopInv env (req :: reqs) s) :
    Sat NoFault (LoopInv env reqs) (s.timeout env req) := by
  obtain ⟨s', hs', hinv, hrequests⟩ := timeout_ok h.inv (h.pending req (by simp))
  rw [hs']
  exact ⟨h.due.tail hrequests, hinv⟩

lemma activeRequestQueue_loopInv (h : s.Inv env) (height : ℤ) :
    LoopInv env (s.activeRequestQueue height) s :=
  ⟨activeRequestQueue_due h.backed height, h⟩

lemma endBlocker_ok (h : s.Inv env) : ∃ s', s.endBlocker env = .ok s' ∧ s'.Inv env := by
  have hreset : { s with intraTxCounter := 0 }.Inv env :=
    ⟨h.backed.inBlock 0 s.height s.blockTime, h.minDeposit⟩
  have hloop : Sat NoFault (LoopInv env []) (s.endBlocker env) :=
    Sat.foldlM_suffix (I := LoopInv env) (fun req reqs s hs => LoopInv.timeout hs) _ _
      (activeRequestQueue_loopInv hreset _)
  obtain ⟨s', hs', hinv⟩ := hloop.exists_ok
  exact ⟨s', hs', hinv.inv⟩

end

section

/-- What happens to the module: a delivered message, or the end of a block, after which the next
block begins at a given time. -/
inductive Op
  | deliver (msg : SvcMsg)
  | endBlock (nextTime : ℤ)
  deriving DecidableEq

/-- `DeliverTx` of one message, and `EndBlock`. -/
def Op.run (env : Env) (s : State) : Op → Outcome State
  | deliver msg => do
    msg.validateBasic env
    s.handle env msg
  | endBlock nextTime => do
    let s ← s.endBlocker env
    return { s with height := s.height + 1, blockTime := nextTime }

def Op.SignedByUser : Op → Prop
  | deliver msg => msg.signer ∉ moduleAccounts
  | endBlock _ => True

instance : DecidablePred Op.SignedByUser
  | .deliver msg => inferInstanceAs (Decidable (msg.signer ∉ moduleAccounts))
  | .endBlock _ => isTrue trivial

def Op.PricesInRange (env : Env) (s : State) : Op → Prop
  | deliver msg => msg.PricesInRange env s
  | endBlock _ => True

def Step (env : Env) (s s' : State) : Prop :=
  ∃ op : Op, op.SignedByUser ∧ op.run env s = .ok s'

def CoveredStep (env : Env) (s s' : State) : Prop :=
  ∃ op : Op, op.SignedByUser ∧ op.PricesInRange env s ∧ op.run env s = .ok s'

/-- A first block: valid parameters, nothing stored by the module, and a sound bank. -/
structure State.Genesis (s : State) : Prop where
  params : ∃ mainnet, s.params.validate mainnet = true
  bank : s.bank.Sound
  bindings : s.bindings = Store.empty
  requests : s.requestsByExpiration = Store.empty
  returned : s.returnedFees = Store.empty
  incoming : s.incomingFees = Store.empty

variable {env : Env} {s s' : State}

lemma State.Genesis.inv (h : s.Genesis) : s.Inv env where
  params := h.params
  bank := h.bank
  bindings k b hb := by simp [h.bindings] at hb
  minDeposit k b hb := by simp [h.bindings] at hb
  requests k r hr := by simp [book, h.requests] at hr
  returned a cs hcs := by simp [book, h.returned] at hcs
  incoming a cs hcs := by simp [book, h.incoming] at hcs
  deposits := by
    rw [depositSum, h.bindings, total_empty]
    exact s.bank.balance_nonneg _ _
  fees := by
    rw [Book.owed, book, h.requests, h.returned, h.incoming, total_empty, total_empty]
    exact s.bank.balance_nonneg _ _

lemma CoveredStep.keeps (h : s.Inv env) (hstep : CoveredStep env s s') : s'.Inv env := by
  obtain ⟨op, hsigned, hrange, hrun⟩ := hstep
  cases op with
  | deliver msg =>
    obtain ⟨_, hv, hrun⟩ := bind_ok.mp hrun
    exact (handle_effect h.backed hv hsigned hrun).inv h hrange
  | endBlock nextTime =>
    obtain ⟨s1, hs1, hrun⟩ := bind_ok.mp hrun
    obtain ⟨s2, hs2, hinv⟩ := endBlocker_ok h
    cases hs1.symm.trans hs2
    cases hrun
    exact ⟨hinv.backed.inBlock s1.intraTxCounter (s1.height + 1) nextTime, hinv.minDeposit⟩

/-- In every state reached by covered steps the end blocker returns. -/
theorem endBlocker_returns (hs : s.Genesis) (hrun : Relation.ReflTransGen (CoveredStep env) s s') :
    ∃ s'', s'.endBlocker env = .ok s'' := by
  have hinv : s'.Inv env :=
    invariant_of_step (I := fun s => s.Inv env) (fun _ _ h hstep => CoveredStep.keeps h hstep) hrun
      hs.inv
  obtain ⟨s'', hs'', _⟩ := endBlocker_ok hinv
  exact ⟨s'', hs''⟩

end

def sampleEnv : Env where
  addrString := toString
  getMethods := fun _ => some [⟨"method", []⟩]
  isProfiler := fun _ => false
  isTrustee := fun _ => false

/-- Accounts 1 and 2 hold a million units; requests time out after five blocks. -/
def sampleState : State where
  bank :=
    { accounts := (Store.empty.set 1 ⟨[⟨"iris-atto", 10 ^ 6⟩], by decide, by decide⟩).set 2
        ⟨[⟨"iris-atto", 10 ^ 6⟩], by decide, by decide⟩
      totalLoosenToken := ⟨[⟨"iris-atto", 2 * 10 ^ 6⟩], by decide, by decide⟩
      totalSupply := Store.empty }
  params := { defaultParams with maxRequestTimeout := 5 }
  definitions := Store.empty
  methods := Store.empty
  bindings := Store.empty
  requests := Store.empty
  activeRequests := Store.empty
  requestsByExpiration := Store.empty
  responses := Store.empty
  returnedFees := Store.empty
  incomingFees := Store.empty
  intraTxCounter := 0
  height := 1
  blockTime := 0

lemma sampleState_genesis : sampleState.Genesis where
  params := ⟨false, by decide⟩
  bank := ⟨by decide, by decide, by decide⟩
  bindings := rfl
  requests := rfl
  returned := rfl
  incoming := rfl

def sampleRef : BindingRef where
  defName := "service"
  defChainID := "chain"
  bindChainID := "chain"
  provider := 1

/-- Account 1 offers the service at a price of one unit and account 2 requests it. -/
def sampleRequestOps : List Op :=
  [.deliver (.define
    { name := "service", chainId := "chain", description := "", tags := [], author := 1
      authorDescription := "", idlContent := "idl" }),
   .deliver (.bind { sampleRef with
      bindingType := .localBinding, deposit := [⟨"iris-atto", 1000⟩]
      prices := [⟨"iris-atto", 1⟩], level := ⟨1, 1⟩ }),
   .deliver (.request { sampleRef with
      reqChainID := "chain", methodID := 1, consumer := 2
      serviceFee := [⟨"iris-atto", 1⟩], profiling := false })]

def sampleOverpriceOps : List Op :=
  [.deliver (.disable { sampleRef with }),
   .deliver (.updateBinding { sampleRef with
      bindingType := .unset, deposit := [⟨"iris-atto", 1⟩]
      prices := [⟨"iris-atto", 2 ^ 250⟩], level := ⟨0, 0⟩ })]

def sampleBlocks : List Op := [.endBlock 1, .endBlock 2, .endBlock 3, .endBlock 4, .endBlock 5]

/-- A provider stops the chain: the min deposit of the price that was set while the binding was
not available cannot be computed when the pending request times out. -/
theorem overpriced_update_halts : sampleState.Genesis ∧
      ∃ s', Relation.ReflTransGen (Step sampleEnv) sampleState s' ∧
        s'.endBlocker sampleEnv = raise .returnedError := by
  obtain ⟨s', hs', hpanic⟩ := of_returns
    (p := fun s' : State => decide (s'.endBlocker sampleEnv = raise .returnedError))
    (x := (sampleRequestOps ++ sampleOverpriceOps ++ sampleBlocks).foldlM (Op.run sampleEnv)
      sampleState) (by decide +kernel)
  refine ⟨sampleState_genesis, s', ?_, by simpa using hpanic⟩
  have hsigned : ∀ op ∈ sampleRequestOps ++ sampleOverpriceOps ++ sampleBlocks,
      op.SignedByUser := by decide +kernel
  exact reflTransGen_of_foldlM (fun op hop _ _ hrun => ⟨op, hsigned op hop, hrun⟩) hs'

/-- Without the update the provider is slashed when the request times out. -/
theorem sampleRequest_times_out :
    ∃ s', Relation.ReflTransGen (CoveredStep sampleEnv) sampleState s' ∧
      s'.activeRequestQueue s'.height ≠ [] ∧ ∃ s'', s'.endBlocker sampleEnv = .ok s'' := by
  obtain ⟨s', hs', hqueue⟩ := of_returns
    (p := fun s' : State => decide (s'.activeRequestQueue s'.height ≠ []))
    (x := (sampleRequestOps ++ sampleBlocks).foldlM (Op.run sampleEnv) sampleState)
    (by decide +kernel)
  have hsigned : ∀ op ∈ sampleRequestOps ++ sampleBlocks, op.SignedByUser := by decide +kernel
  have hrange : ∀ op ∈ sampleRequestOps ++ sampleBlocks, ∀ s, op.PricesInRange sampleEnv s := by
    simp only [sampleRequestOps, sampleBlocks, cons_append, nil_append,
      forall_mem_cons, Op.PricesInRange, SvcMsg.PricesInRange]
    simp
  have hrun : Relation.ReflTransGen (CoveredStep sampleEnv) sampleState s' :=
    reflTransGen_of_foldlM
      (fun op hop s _ hrun => ⟨op, hsigned op hop, hrange op hop s, hrun⟩) hs'
  exact ⟨s', hrun, by simpa using hqueue, endBlocker_returns sampleState_genesis hrun⟩

end Irishub.Service
