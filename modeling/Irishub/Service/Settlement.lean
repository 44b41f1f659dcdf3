import Irishub.Service.History

/-!
# Service: every fee is settled once

The request account covers the fees of the pending requests, the fees to return and
the fees to withdraw, so that a refund and a withdrawal of a recorded fee succeed.
Every accepted request is pending, answered or timed out, once. What the log calls taxed,
withdrawn and refunded are coins of the bank: every balance is the one of the first state
changed by what the log credits.

The counter that tells the requests of one block apart is an `int16`, so that the
request after `2 ^ 16` others overwrites the first of them in the expiration index
(`crowded_block_loses_fee`).
-/

namespace Irishub.Service
open Lib Store List State

section
variable {env : Env} {s : State} {l l' : Logged} {bound : ℕ} {fee : Coins} {a : Address}

def State.owed (s : State) (denom : String) : ℤ :=
  Store.total (fun _ r => Coins.denomSum denom r.serviceFee) s.requestsByExpiration +
    Store.total (fun _ cs => Coins.denomSum denom cs) s.returnedFees +
    Store.total (fun _ cs => Coins.denomSum denom cs) s.incomingFees

/-- Fees are covered, can be paid out, and each is settled once, in coins of the bank that the run
started with. -/
structure Logged.FeesSettled (start : Bank) (l : Logged) : Prop where
  solvent : ∀ denom, l.state.owed denom ≤ l.state.bank.balance serviceRequestCoinsAccAddr denom
  refundFee : ∀ a fee, l.state.returnedFees.get a = some fee → ∃ s', l.state.refundFee a = .ok s'
  withdrawFee : ∀ a fee, l.state.incomingFees.get a = some fee →
    ∃ s', l.state.withdrawFee a = .ok s'
  once : (Log.accepted l.log).Perm
    (l.state.requestsByExpiration.values ++ (Log.answered l.log ++ Log.timedOut l.log))
  due : ∀ r ∈ l.state.requestsByExpiration.values, l.state.height ≤ r.expirationHeight
  income : ∀ a, l.log.total (Event.earned a) = l.log.total (Event.taxed a) +
    l.log.total (Event.withdrawn a) + amountAt l.state.incomingFees a
  returned : ∀ a, l.log.total (Event.lapsed a) =
    l.log.total (Event.refunded a) + amountAt l.state.returnedFees a
  balances : ∀ a denom, l.state.bank.balance a denom =
    start.balance a denom + l.log.total (Event.credit a denom)

/-- A request is delivered while its block has accepted fewer than `bound` requests. -/
def Op.FewRequests (bound : ℕ) (l : Logged) : Op → Prop
  | deliver (.request _) => (Log.acceptedAt l.log l.state.height).length < bound
  | _ => True

/-- A step of a run in which no block accepts more than `bound` requests. -/
def FewRequestsStep (env : Env) (bound : ℕ) (l l' : Logged) : Prop :=
  ∃ op : Op, op.SignedByUser ∧ op.FewRequests bound l ∧ op.runLogged env l = .ok l'

lemma FewRequestsStep.loggedStep (h : FewRequestsStep env bound l l') : LoggedStep env l l' := by
  obtain ⟨op, hsigned, _, hrun⟩ := h
  exact ⟨op, hsigned, hrun⟩

lemma State.Backed.owed_le (h : s.Backed env) (denom : String) :
    s.owed denom ≤ s.bank.balance serviceRequestCoinsAccAddr denom := by
  by_cases hd : denom = irisAtto
  · rw [hd]
    exact h.fees
  · have hzero : ∀ {cs : Coins}, cs.IrisOnly → Coins.denomSum denom cs = 0 := by
      intro cs hcs
      rw [Coins.denomSum_of_irisOnly hcs, if_neg hd]
    have hpending : total (fun _ (r : SvcRequest) => Coins.denomSum denom r.serviceFee)
        s.requestsByExpiration ≤ 0 :=
      (total_le_total (g := fun _ _ => 0)
        (fun k r hr => (hzero (h.requests k r hr).fee).le)).trans (by simp [total])
    have hreturned : total (fun _ (cs : Coins) => Coins.denomSum denom cs)
        s.returnedFees ≤ 0 :=
      (total_le_total (g := fun _ _ => 0)
        (fun a cs hcs => (hzero (h.returned a cs hcs)).le)).trans (by simp [total])
    have hincoming : total (fun _ (cs : Coins) => Coins.denomSum denom cs)
        s.incomingFees ≤ 0 :=
      (total_le_total (g := fun _ _ => 0)
        (fun a cs hcs => (hzero (h.incoming a cs hcs)).le)).trans (by simp [total])
    have hbalance := s.bank.balance_nonneg serviceRequestCoinsAccAddr denom
    unfold owed
    omega

/-- A fee that is recorded can be paid from the request account. -/
lemma State.Backed.pay (h : s.Backed env) (hfee : fee.IrisOnly)
    (hle : fee.iris ≤ s.book.owed) (a : Address) :
    ∃ bank, s.bank.sendCoins serviceRequestCoinsAccAddr a fee = .ok bank :=
  Bank.sendCoins_ok h.bank (by decide) hfee (hle.trans h.fees)

lemma State.Backed.refundFee_ok (h : s.Backed env)
    (hget : s.returnedFees.get a = some fee) : ∃ s', s.refundFee a = .ok s' := by
  have hle := le_total (f := fun _ (cs : Coins) => cs.iris)
    (fun a cs hcs => (h.returned a cs hcs).nonneg) hget
  have hnn := h.toSound.parts_nonneg
  obtain ⟨bank, hsend⟩ := h.pay (h.returned _ _ hget) (by unfold Book.owed; omega) a
  exact ⟨_, by simp [refundFee, hget, sendCoins, hsend]; rfl⟩

lemma State.Backed.withdrawFee_ok (h : s.Backed env)
    (hget : s.incomingFees.get a = some fee) : ∃ s', s.withdrawFee a = .ok s' := by
  have hle := le_total (f := fun _ (cs : Coins) => cs.iris)
    (fun a cs hcs => (h.incoming a cs hcs).nonneg) hget
  have hnn := h.toSound.parts_nonneg
  obtain ⟨bank, hsend⟩ := h.pay (h.incoming _ _ hget) (by unfold Book.owed; omega) a
  exact ⟨_, by simp [withdrawFee, hget, sendCoins, hsend]; rfl⟩

lemma FewRequestsStep.accounts (h : l.Inv env) (ha : Book.Accounts l.log l.state.book)
    (hstep : FewRequestsStep env (2 ^ 16) l l') : Book.Accounts l'.log l'.state.book := by
  obtain ⟨op, hsigned, hfew, hrun⟩ := hstep
  cases transition_of_runLogged h.backed hsigned hrun with
  | accept msg hbook =>
    rw [hbook]
    exact ha.accept (h.free hfew msg)
  | settle _ hsettled | endBlock _ hsettled => exact ha.run hsettled.book

lemma State.Initial.accounts (hs : s.Initial) : Book.Accounts [] s.book where
  keyed k r hr := by simp [book, hs.requests] at hr
  once := by simp [book, hs.requests, values, empty, Log.accepted, Log.answered, Log.timedOut]

/-- In a run in which no block accepts more than `2 ^ 16` requests the fees are covered and every
fee is settled once. -/
theorem fees_settled (hs : s.Initial)
    (hrun : Relation.ReflTransGen (FewRequestsStep env (2 ^ 16)) ⟨s, []⟩ l) :
    l.FeesSettled s.bank := by
  have hboth : l.Inv env ∧ Book.Accounts l.log l.state.book :=
    invariant_of_step (I := fun l => l.Inv env ∧ Book.Accounts l.log l.state.book)
      (fun _ _ h hstep => ⟨h.1.step hstep.loggedStep, hstep.accounts h.1 h.2⟩) hrun
      ⟨hs.inv, hs.accounts⟩
  obtain ⟨hinv, haccounts⟩ := hboth
  have hlogged : Relation.ReflTransGen (LoggedStep env) ⟨s, []⟩ l :=
    Relation.ReflTransGen.mono (fun _ _ => FewRequestsStep.loggedStep) _ _ hrun
  constructor
  · exact hinv.backed.owed_le
  · exact fun a fee hget => hinv.backed.refundFee_ok hget
  · exact fun a fee hget => hinv.backed.withdrawFee_ok hget
  · exact haccounts.once
  · intro r hr
    obtain ⟨k, hk⟩ := mem_values.mp hr
    exact (hinv.pending k r hk).2
  · exact hinv.settles.income
  · exact hinv.settles.returned
  · exact Log.balance_of_pay (Logged.pay_of_run hs hlogged)

lemma length_accepted_le {op : Op} (h : l.Inv env) (hsigned : op.SignedByUser)
    (hrun : op.runLogged env l = .ok l') :
    (Log.accepted l'.log).length ≤ (Log.accepted l.log).length + 1 := by
  cases transition_of_runLogged h.backed hsigned hrun with
  | accept msg => simp [Event.accepted?]
  | settle _ hsettled | endBlock _ hsettled => simp [hsettled.book.accepted_eq_nil]

lemma fewRequests_of_length {ops : List Op} (h : l.Inv env) (hsigned : ∀ op ∈ ops, op.SignedByUser)
    (hlength : (Log.accepted l.log).length + ops.length ≤ bound)
    (hrun : ops.foldlM (Op.runLogged env) l = .ok l') :
    Relation.ReflTransGen (FewRequestsStep env bound) l l' := by
  induction ops generalizing l with
  | nil =>
    cases hrun
    exact .refl
  | cons op ops ih =>
    rw [foldlM_cons] at hrun
    obtain ⟨l1, hfirst, hrun⟩ := bind_ok.mp hrun
    have hop := hsigned op (by simp)
    have hle := length_accepted_le h hop hfirst
    rw [length_cons] at hlength
    have hfew : op.FewRequests bound l := by
      have hat : (Log.acceptedAt l.log l.state.height).length ≤ (Log.accepted l.log).length :=
        length_filter_le _ _
      unfold Op.FewRequests
      split
      · omega
      · trivial
    exact .head ⟨op, hop, hfew, hfirst⟩ (ih (h.step ⟨op, hop, hfirst⟩)
      (fun op' hop' => hsigned op' (mem_cons_of_mem _ hop')) (by omega) hrun)

end

section
variable {s : State} {funds : ℤ}

lemma sampleState_initial : sampleState.Initial where
  toGenesis := sampleState_genesis
  definitions := rfl
  methods := rfl
  active := rfl
  responses := rfl
  counter := rfl
  height := by decide
  timeout := by decide

/-- Two requests, of which the first is answered and the second times out, after which both fees
are paid out. -/
def sampleSettledOps : List Op :=
  sampleRequestOps ++ sampleRequestOps.drop 2 ++
    [.deliver (.respond { reqChainID := "chain", requestID := "6-1-0", provider := 1 })] ++
    sampleBlocks ++
    [.endBlock 6, .deliver (.refundFees { consumer := 2 }),
      .deliver (.withdrawFees { provider := 1 })]

/-- Consumer of two requests gets the fee of the one that nobody answered back, and the request
account is empty again. -/
theorem sampleRequest_fee_returned :
    ∃ l, Relation.ReflTransGen (FewRequestsStep sampleEnv (2 ^ 16)) ⟨sampleState, []⟩ l ∧
      (Log.answered l.log).length = 1 ∧ (Log.timedOut l.log).length = 1 ∧
      l.state.bank.balance 2 irisAtto = 10 ^ 6 - 1 ∧
      l.state.bank.balance serviceRequestCoinsAccAddr irisAtto = 0 ∧
      l.FeesSettled sampleState.bank := by
  obtain ⟨l, hl, hlog⟩ := of_returns
    (p := fun l : Logged => decide ((Log.answered l.log).length = 1 ∧
      (Log.timedOut l.log).length = 1 ∧ l.state.bank.balance 2 irisAtto = 10 ^ 6 - 1 ∧
      l.state.bank.balance serviceRequestCoinsAccAddr irisAtto = 0))
    (x := sampleSettledOps.foldlM (Op.runLogged sampleEnv) ⟨sampleState, []⟩) (by decide +kernel)
  rw [decide_eq_true_eq] at hlog
  obtain ⟨hanswered, htimedOut, hconsumer, hrequest⟩ := hlog
  have hrun : Relation.ReflTransGen (FewRequestsStep sampleEnv (2 ^ 16)) ⟨sampleState, []⟩ l :=
    fewRequests_of_length sampleState_initial.inv (by decide +kernel) (by decide) hl
  exact ⟨l, hrun, hanswered, htimedOut, hconsumer, hrequest, fees_settled sampleState_initial hrun⟩

def sampleRequest : MsgSvcRequest :=
  { sampleRef with
    reqChainID := "chain", methodID := 1, consumer := 2
    serviceFee := [⟨"iris-atto", 1⟩], profiling := false }

def sampleBinding : SvcBinding where
  defName := "service"
  defChainID := "chain"
  bindChainID := "chain"
  provider := 1
  bindingType := .localBinding
  deposit := [⟨"iris-atto", 1000⟩]
  prices := [⟨"iris-atto", 1⟩]
  level := ⟨1, 1⟩
  available := true
  disableTime := zeroTime

/-- Request with a given counter. -/
def sampleAccepted (counter : ℤ) : SvcRequest where
  defChainID := "chain"
  defName := "service"
  bindChainID := "chain"
  reqChainID := "chain"
  methodID := 1
  provider := 1
  consumer := 2
  serviceFee := [⟨"iris-atto", 1⟩]
  profiling := false
  requestHeight := 1
  requestIntraTxCounter := counter
  expirationHeight := 6

/-- First block, with the binding in place and funds for requests. -/
structure Ready (s : State) (funds : ℤ) : Prop where
  bank : s.bank.Sound
  funds : s.bank.balance 2 irisAtto = funds
  binding : s.bindings.get (sampleRequest.toBindingRef.key sampleEnv) = some sampleBinding
  method : (s.getMethod "chain" "service" 1).isSome = true
  height : s.height = 1
  timeout : s.params.maxRequestTimeout = 5

lemma Ready.acceptedRequest (h : Ready s funds) :
    s.acceptedRequest sampleEnv sampleRequest = sampleAccepted s.intraTxCounter := by
  have hprice : s.requestPrice sampleEnv sampleRequest = some ⟨"iris-atto", 1⟩ := by
    rw [requestPrice, h.binding]
    rfl
  rw [State.acceptedRequest, hprice, h.height, h.timeout]
  rfl

lemma Ready.request (h : Ready s (funds + 1)) (hfunds : 0 ≤ funds) :
    ∃ s', (Op.deliver (.request sampleRequest)).run sampleEnv s = .ok s' ∧ Ready s' funds ∧
      s'.intraTxCounter = toInt16 (s.intraTxCounter + 1) := by
  have hiris : Coins.iris [⟨"iris-atto", 1⟩] = 1 := Coins.iris_single 1
  obtain ⟨bank, hsend⟩ : ∃ bank, s.bank.sendCoins sampleRequest.consumer serviceRequestCoinsAccAddr
      [⟨"iris-atto", 1⟩] = .ok bank := by
    refine Bank.sendCoins_ok h.bank (by decide) (Coins.IrisOnly.single (by decide)) ?_
    have := h.funds
    show Coins.iris [⟨"iris-atto", 1⟩] ≤ s.bank.balance 2 irisAtto
    omega
  have hvalid : sampleRequest.validateBasic = .ok () := by decide +kernel
  have hbinding : s.mustGetBinding sampleEnv sampleRequest.toBindingRef = .ok sampleBinding :=
    mustGetBinding_ok.mpr h.binding
  have havailable : sampleBinding.available = true := rfl
  have hmethod : (s.getMethod sampleRequest.defChainID sampleRequest.defName
      sampleRequest.methodID).isSome = true := h.method
  have hprofiling : sampleRequest.profiling = false := rfl
  have hprice : methodPrice sampleBinding.prices sampleRequest.methodID =
      .ok (some ⟨"iris-atto", 1⟩) := by decide
  have hfee : sampleRequest.serviceFee.isAllGTE [⟨"iris-atto", 1⟩] = true := by decide +kernel
  obtain ⟨s', hs'⟩ : ∃ s', s.handleMsgSvcRequest sampleEnv sampleRequest = .ok s' := by
    simp [handleMsgSvcRequest, hbinding, havailable, hmethod, hprofiling, hprice, hfee,
      require, addRequest, sendCoins, hsend]
  refine ⟨s', ?_, ?_⟩
  · simp [Op.run, handle, SvcMsg.validateBasic, hvalid, hs']
  · obtain ⟨_, bank', _, _, hsend', rfl⟩ := handleMsgSvcRequest_ok hs'
    rw [h.acceptedRequest] at hsend'
    have hbal := Bank.balance_sendCoins hsend' 2 irisAtto
    rw [if_pos (by rfl), if_neg (by decide)] at hbal
    have hpaid : Coins.denomSum irisAtto (sampleAccepted s.intraTxCounter).serviceFee = 1 := hiris
    have hold := h.funds
    refine ⟨⟨?_, ?_, h.binding, h.method, h.height, h.timeout⟩, rfl⟩
    · exact h.bank.sendCoins (by decide) (fun heq => absurd heq (by decide)) hsend'
    · dsimp only
      omega

lemma Ready.requests (log : Log) (start n : ℕ)
    (h : Ready s (funds + n)) (hfunds : 0 ≤ funds) (hcounter : s.intraTxCounter = toInt16 start) :
    ∃ l, Relation.ReflTransGen (LoggedStep sampleEnv) ⟨s, log⟩ l ∧ Ready l.state funds ∧
      l.log = log ++ (range n).map
        (fun i : ℕ => Event.accepted (sampleAccepted (toInt16 (start + i : ℕ)))) := by
  induction n generalizing s log start with
  | zero => exact ⟨⟨s, log⟩, .refl, by simpa using h, by simp⟩
  | succ n ih =>
    have hnext : Ready s (funds + n + 1) := by
      rw [add_assoc]
      exact_mod_cast h
    obtain ⟨s', hrun, hready, hcounter'⟩ := hnext.request (by omega)
    have hstart : s'.intraTxCounter = toInt16 (start + 1 : ℕ) := by
      rw [hcounter', hcounter, toInt16_toInt16_add_one]
      push_cast
      rfl
    obtain ⟨l, hl, hready', hlog⟩ :=
      ih (log ++ [.accepted (sampleAccepted s.intraTxCounter)]) (start + 1) hready hstart
    have hfirst : LoggedStep sampleEnv ⟨s, log⟩
        ⟨s', log ++ [.accepted (sampleAccepted s.intraTxCounter)]⟩ := by
      refine ⟨.deliver (.request sampleRequest), by decide, ?_⟩
      simp only [Op.runLogged, hrun, ok_bind, SvcMsg.events, h.acceptedRequest]
      rfl
    refine ⟨l, .head hfirst hl, hready', ?_⟩
    rw [hlog, range_succ_eq_map, append_assoc, hcounter]
    simp [Function.comp_def, Nat.add_assoc, Nat.add_comm 1]

def sampleBindOps : List Op := sampleRequestOps.take 2

lemma sampleBinding_ready : ∃ l, Relation.ReflTransGen (LoggedStep sampleEnv) ⟨sampleState, []⟩ l ∧
      Ready l.state (10 ^ 6) ∧ l.state.intraTxCounter = 0 ∧ Log.accepted l.log = [] ∧
      Log.answered l.log = [] ∧ Log.timedOut l.log = [] := by
  obtain ⟨l, hl, hready⟩ := of_returns
    (p := fun l : Logged => decide (l.state.bank.balance 2 irisAtto = 10 ^ 6 ∧
      l.state.bindings.get (sampleRequest.toBindingRef.key sampleEnv) = some sampleBinding ∧
      (l.state.getMethod "chain" "service" 1).isSome = true ∧ l.state.height = 1 ∧
      l.state.params.maxRequestTimeout = 5 ∧ l.state.intraTxCounter = 0 ∧
      Log.accepted l.log = [] ∧ Log.answered l.log = [] ∧ Log.timedOut l.log = []))
    (x := sampleBindOps.foldlM (Op.runLogged sampleEnv) ⟨sampleState, []⟩) (by decide +kernel)
  rw [decide_eq_true_eq] at hready
  obtain ⟨hfunds, hbinding, hmethod, hheight, htimeout, hcounter, hlog⟩ := hready
  have hsigned : ∀ op ∈ sampleBindOps, op.SignedByUser := by decide +kernel
  have hrun : Relation.ReflTransGen (LoggedStep sampleEnv) ⟨sampleState, []⟩ l :=
    reflTransGen_of_foldlM (fun op hop _ _ hrun => ⟨op, hsigned op hop, hrun⟩) hl
  have hbank := (Logged.Inv.run sampleState_initial hrun).backed.bank
  exact ⟨l, hrun, ⟨hbank, hfunds, hbinding, hmethod, hheight, htimeout⟩, hcounter, hlog⟩

lemma sampleRequests_run (n : ℕ) (hn : n ≤ 10 ^ 6) :
    ∃ l, Relation.ReflTransGen (LoggedStep sampleEnv) ⟨sampleState, []⟩ l ∧
      Log.accepted l.log = (range n).map (fun i : ℕ => sampleAccepted (toInt16 i)) ∧
      Log.answered l.log = [] ∧ Log.timedOut l.log = [] := by
  obtain ⟨l0, hrun0, hready, hcounter, haccepted, hanswered, htimedOut⟩ := sampleBinding_ready
  have hfunds : (10 ^ 6 : ℤ) = (10 ^ 6 - n) + n := by omega
  rw [hfunds] at hready
  obtain ⟨l, hrun, _, hlog⟩ := Ready.requests l0.log 0 n hready (by omega) (by rw [hcounter]; rfl)
  refine ⟨l, hrun0.trans hrun, ?_, ?_, ?_⟩
  · rw [hlog, Log.accepted_append, haccepted]
    simp [Log.accepted, filterMap_map, Function.comp_def, Event.accepted?]
  · rw [hlog, Log.answered_append, hanswered]
    simp [Log.answered, filterMap_map, Function.comp_def, Event.answered?]
  · rw [hlog, Log.timedOut_append, htimedOut]
    simp [Log.timedOut, filterMap_map, Function.comp_def, Event.timedOut?]

/-- A block that accepts one request too many: the last one takes the place of the first, of which
the fee was paid and is neither owed to anybody nor pending. -/
theorem crowded_block_loses_fee : sampleState.Initial ∧
      ∃ l req, Relation.ReflTransGen (LoggedStep sampleEnv) ⟨sampleState, []⟩ l ∧
        (Log.accepted l.log).length = 2 ^ 16 + 1 ∧
        2 ≤ (Log.accepted l.log).count req ∧ req.serviceFee = [⟨"iris-atto", 1⟩] ∧
        Log.answered l.log = [] ∧ Log.timedOut l.log = [] ∧
        l.state.requestsByExpiration.values.count req ≤ 1 := by
  obtain ⟨l, hrun, haccepted, hanswered, htimedOut⟩ := sampleRequests_run (2 ^ 16 + 1) (by decide)
  refine ⟨sampleState_initial, l, sampleAccepted 0, hrun, ?_, ?_, rfl, hanswered, htimedOut, ?_⟩
  · rw [haccepted, length_map, length_range]
  · have hfirst : [0].Sublist (range (2 ^ 16)) :=
      singleton_sublist.mpr (mem_range.mpr (by decide))
    have hends : [0, 2 ^ 16].Sublist (range (2 ^ 16 + 1)) := by
      rw [range_succ]
      exact hfirst.append (Sublist.refl [2 ^ 16])
    have hzero : toInt16 (0 : ℕ) = 0 := by decide
    have hwrap : toInt16 (2 ^ 16 : ℕ) = 0 := by decide
    have hcount := (hends.map (fun i : ℕ => sampleAccepted (toInt16 i))).count_le (sampleAccepted 0)
    rw [map_cons, map_singleton, hzero, hwrap, count_cons_self, count_singleton_self] at hcount
    rw [haccepted]
    exact hcount
  · have hnodup := nodup_values (s := l.state.requestsByExpiration)
      (fun k r hr => ((Logged.Inv.run sampleState_initial hrun).backed.requests k r hr).key_eq)
    exact nodup_iff_count_le_one.mp hnodup _

end
end Irishub.Service
