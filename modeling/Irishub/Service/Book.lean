import Irishub.Service.Transfers

/-!
# Service: the book of requests and fees

An abstract account of what the module does with requests and their fees. A `Book`
holds the five tables that the events of a log write, and `Book.accept` and `Book.Step`
say how each event changes them. What the book owes changes by the fees of the log
(`Book.Step.owed`).

`Book.Settles`: what an address has earned by answering is the tax, what it withdrew and
what it may still withdraw, and the same for the fees that were returned.
`Book.Accounts`: every accepted request is pending, was answered or timed out. The first
is kept by every event, the second as long as an accepted request finds its place in the
expiration index free.
-/

namespace Irishub.Service
open Lib Store List

def amountAt (table : Store Address Coins) (a : Address) : ℤ :=
  Store.contribution (fun _ cs => cs.iris) table a

lemma amountAt_set (table : Store Address Coins) (a a' : Address) (cs : Coins) :
    amountAt (table.set a cs) a' = if a' = a then cs.iris else amountAt table a' := by
  unfold amountAt contribution
  rw [get_set]
  split_ifs <;> rfl

lemma amountAt_delete (table : Store Address Coins) (a a' : Address) :
    amountAt (table.delete a) a' = if a' = a then 0 else amountAt table a' := by
  unfold amountAt contribution
  rw [get_delete]
  split_ifs <;> rfl

lemma amountAt_of_get {table : Store Address Coins} {a : Address} {cs : Coins}
    (h : table.get a = some cs) : amountAt table a = cs.iris := by
  unfold amountAt contribution
  rw [h]
  rfl

def SvcRequest.bindingKey (env : Env) (req : SvcRequest) : String :=
  getServiceBindingKey env req.defChainID req.defName req.bindChainID req.provider

/-- What holds of every entry of the expiration index. -/
structure SvcRequest.WellFormed (env : Env) (bindings : Store String SvcBinding)
    (key : ExpirationKey) (req : SvcRequest) : Prop where
  key_eq : key = getRequestsByExpirationIndexKeyByReq req
  fee : req.serviceFee.IrisOnly
  binding : (bindings.get (req.bindingKey env)).isSome = true

/-- Heights of a request are `int64` and its counter is an `int16`. -/
structure SvcRequest.InRange (req : SvcRequest) : Prop where
  requestHeight : 0 ≤ req.requestHeight ∧ req.requestHeight < 2 ^ 63
  expirationHeight : 0 ≤ req.expirationHeight ∧ req.expirationHeight < 2 ^ 63
  counter : -2 ^ 15 ≤ req.requestIntraTxCounter ∧ req.requestIntraTxCounter < 2 ^ 15

lemma SvcRequest.InRange.int64 {req : SvcRequest} (h : req.InRange) :
    (-2 ^ 63 ≤ req.expirationHeight ∧ req.expirationHeight < 2 ^ 63) ∧
      (-2 ^ 63 ≤ req.requestHeight ∧ req.requestHeight < 2 ^ 63) := by
  have hexpiration := h.expirationHeight
  have hrequest := h.requestHeight
  omega

def SvcRequest.response (req : SvcRequest) : SvcResponse where
  reqChainID := req.reqChainID
  expirationHeight := req.expirationHeight
  requestHeight := req.requestHeight
  requestIntraTxCounter := req.requestIntraTxCounter
  provider := req.provider
  consumer := req.consumer

/-- Tables of the requests and of the fees. -/
structure Book where
  pending : Store ExpirationKey SvcRequest
  active : Store String SvcRequest
  responses : Store String SvcResponse
  returned : Store Address Coins
  incoming : Store Address Coins

def State.book (s : State) : Book where
  pending := s.requestsByExpiration
  active := s.activeRequests
  responses := s.responses
  returned := s.returnedFees
  incoming := s.incomingFees

namespace Book

section
variable (env : Env) (b : Book)

def accept (req : SvcRequest) : Book :=
  { b with
    pending := b.pending.set (getRequestsByExpirationIndexKeyByReq req) req
    active := b.active.set (getRequestKey env req) req }

def remove (req : SvcRequest) : Book :=
  { b with
    pending := b.pending.delete (getRequestsByExpirationIndexKeyByReq req)
    active := b.active.delete (getRequestKey env req) }

/-- Other events, with their effects. -/
inductive Step : Log → Book → Prop
  | answer {req : SvcRequest} {resp : SvcResponse} {tax sum : Coins}
      (hreq : b.pending.get (getRequestsByExpirationIndexKeyByReq req) = some req)
      (hresp : req.InRange → resp = req.response) (hiris : sum.IrisOnly)
      (hsum : sum.iris = amountAt b.incoming req.provider + (req.serviceFee.iris - tax.iris)) :
      Step [.answered req tax]
        { b.remove env req with
          responses := b.responses.set (getResponseKey resp) resp
          incoming := b.incoming.set req.provider sum }
  | timeOut {req : SvcRequest} {fee : Coins}
      (hreq : b.pending.get (getRequestsByExpirationIndexKeyByReq req) = some req)
      (hiris : fee.IrisOnly)
      (hsum : fee.iris = amountAt b.returned req.consumer + req.serviceFee.iris) :
      Step [.timedOut req] { b.remove env req with returned := b.returned.set req.consumer fee }
  | refund {a : Address} {fee : Coins} (hfee : b.returned.get a = some fee) :
      Step [.feeRefunded a fee] { b with returned := b.returned.delete a }
  | withdraw {a : Address} {fee : Coins} (hfee : b.incoming.get a = some fee) :
      Step [.feeWithdrawn a fee] { b with incoming := b.incoming.delete a }
  | idle {log : Log} (hlog : ∀ e ∈ log, e.offBook = true) : Step log b

end

variable {env : Env} {b b' b'' : Book} {log log' : Log} {e : Event}

/-- Steps one after the other, with the log that they write. -/
abbrev Run (env : Env) : Book → Log → Book → Prop := Traced (Step env)

lemma offBook_quantities (h : e.offBook = true) (a : Address) :
    e.earned a = 0 ∧ e.taxed a = 0 ∧ e.withdrawn a = 0 ∧ e.lapsed a = 0 ∧ e.refunded a = 0 := by
  cases e <;> simp [Event.offBook] at h <;> exact ⟨rfl, rfl, rfl, rfl, rfl⟩

lemma offBook_requests (h : e.offBook = true) :
    e.accepted? = none ∧ e.answered? = none ∧ e.timedOut? = none := by
  cases e <;> simp [Event.offBook] at h <;> exact ⟨rfl, rfl, rfl⟩

lemma Step.accepted_eq_nil (h : b.Step env log b') : Log.accepted log = [] := by
  cases h with
  | answer | timeOut | refund | withdraw => rfl
  | idle hlog => exact Log.filterMap_eq_nil (fun e he => (offBook_requests (hlog e he)).1)

lemma Run.accepted_eq_nil (h : Run env b log b') : Log.accepted log = [] := by
  induction h with
  | nil => rfl
  | snoc _ hlast ih => rw [Log.accepted_append, ih, hlast.accepted_eq_nil, append_nil]

section

/-- Fees that the module owes. -/
def owed (b : Book) : ℤ :=
  Store.total (fun _ r => r.serviceFee.iris) b.pending +
    Store.total (fun _ cs => cs.iris) b.returned + Store.total (fun _ cs => cs.iris) b.incoming

/-- Requests have their keys and their bindings, and all fees are iris coins. -/
structure Sound (env : Env) (bindings : Store String SvcBinding) (b : Book) : Prop where
  requests : ∀ k r, b.pending.get k = some r → r.WellFormed env bindings k
  returned : ∀ a cs, b.returned.get a = some cs → cs.IrisOnly
  incoming : ∀ a cs, b.incoming.get a = some cs → cs.IrisOnly

variable {bindings : Store String SvcBinding} {req : SvcRequest}

lemma Sound.parts_nonneg (h : b.Sound env bindings) :
    0 ≤ Store.total (fun _ (r : SvcRequest) => r.serviceFee.iris) b.pending ∧
      0 ≤ Store.total (fun _ (cs : Coins) => cs.iris) b.returned ∧
      0 ≤ Store.total (fun _ (cs : Coins) => cs.iris) b.incoming :=
  ⟨total_nonneg (fun k r hr => (h.requests k r hr).fee.nonneg),
    total_nonneg (fun a cs hcs => (h.returned a cs hcs).nonneg),
    total_nonneg (fun a cs hcs => (h.incoming a cs hcs).nonneg)⟩

/-- Fee of a pending request and the fees to return to an account are parts of what is owed. -/
lemma Sound.fee_le (h : b.Sound env bindings) {k : ExpirationKey} (hr : b.pending.get k = some req)
    (a : Address) :
    0 ≤ amountAt b.returned a ∧ amountAt b.returned a + req.serviceFee.iris ≤ b.owed := by
  have hreq := le_total (f := fun _ (r : SvcRequest) => r.serviceFee.iris)
    (fun k r hr => (h.requests k r hr).fee.nonneg) hr
  obtain ⟨_, hreturned, hincoming⟩ := h.parts_nonneg
  unfold owed
  cases hget : b.returned.get a with
  | none =>
    have hzero : amountAt b.returned a = 0 := by simp [amountAt, contribution, hget]
    omega
  | some cs =>
    have hle := le_total (f := fun _ (cs : Coins) => cs.iris)
      (fun a cs hcs => (h.returned a cs hcs).nonneg) hget
    have hnonneg := (h.returned a cs hget).nonneg
    rw [amountAt_of_get hget]
    omega

lemma Sound.step (h : b.Sound env bindings) (hstep : b.Step env log b') :
    b'.Sound env bindings := by
  cases hstep with
  | answer hreq hresp hiris hsum =>
    exact ⟨forall_delete h.requests _, h.returned, forall_set h.incoming hiris⟩
  | timeOut hreq hiris hsum =>
    exact ⟨forall_delete h.requests _, forall_set h.returned hiris, h.incoming⟩
  | refund hfee => exact ⟨h.requests, forall_delete h.returned _, h.incoming⟩
  | withdraw hfee => exact ⟨h.requests, h.returned, forall_delete h.incoming _⟩
  | idle hlog => exact h

/-- What is owed changes by the fees of the log. -/
lemma Step.owed (hstep : b.Step env log b') : b'.owed = b.owed + log.total Event.fees := by
  cases hstep with
  | answer hreq hresp hiris hsum | timeOut hreq hiris hsum =>
    simp only [Book.owed, remove, total_delete, total_set, contribution, amountAt, hreq,
      Option.elim_some, Log.total_singleton, Event.fees] at hsum ⊢
    omega
  | refund hfee | withdraw hfee =>
    simp only [Book.owed, total_delete, contribution, hfee, Option.elim_some, Log.total_singleton,
      Event.fees]
    omega
  | idle hlog =>
    have hnone : ∀ e ∈ log, e.fees = 0 := fun e he => by
      have hoff := hlog e he
      cases e <;> simp_all [Event.offBook, Event.fees]
    rw [Log.total_eq_zero hnone, add_zero]

lemma Sound.accept (h : b.Sound env bindings)
    (hreq : req.WellFormed env bindings (getRequestsByExpirationIndexKeyByReq req)) :
    (b.accept env req).Sound env bindings ∧
      (b.accept env req).owed ≤ b.owed + req.serviceFee.iris := by
  refine ⟨⟨forall_set h.requests hreq, h.returned, h.incoming⟩, ?_⟩
  have hold : 0 ≤ contribution (fun _ (r : SvcRequest) => r.serviceFee.iris) b.pending
      (getRequestsByExpirationIndexKeyByReq req) := by
    unfold contribution
    cases hget : b.pending.get (getRequestsByExpirationIndexKeyByReq req) with
    | none => exact le_rfl
    | some r => exact (h.requests _ r hget).fee.nonneg
  simp only [Book.owed, Book.accept, total_set]
  omega

end

section

/-- What was earned is taxed, withdrawn or still recorded, and what lapsed is refunded or still
recorded. -/
structure Settles (log : Log) (b : Book) : Prop where
  income : ∀ a, log.total (Event.earned a) =
    log.total (Event.taxed a) + log.total (Event.withdrawn a) + amountAt b.incoming a
  returned : ∀ a, log.total (Event.lapsed a) =
    log.total (Event.refunded a) + amountAt b.returned a

variable {log0 : Log}

lemma Settles.step (h : Settles log0 b) (hstep : b.Step env log b') : Settles (log0 ++ log) b' := by
  constructor
  · intro a
    have hincome := h.income a
    simp only [Log.total_append]
    cases hstep with
    | answer _ _ _ hsum =>
      simp only [Log.total_singleton, Event.earned, Event.taxed, Event.withdrawn, amountAt_set,
        eq_comm (a := a)]
      split_ifs with ha
      · subst ha
        omega
      · omega
    | timeOut _ _ _ => simpa [Event.earned, Event.taxed, Event.withdrawn, remove] using hincome
    | refund _ => simpa [Event.earned, Event.taxed, Event.withdrawn] using hincome
    | withdraw hfee =>
      simp only [Log.total_singleton, Event.earned, Event.taxed, Event.withdrawn,
        amountAt_delete, eq_comm (a := a)]
      split_ifs with ha
      · subst ha
        rw [amountAt_of_get hfee] at hincome
        omega
      · omega
    | idle hlog =>
      rw [Log.total_eq_zero (fun e he => (offBook_quantities (hlog e he) a).1),
        Log.total_eq_zero (fun e he => (offBook_quantities (hlog e he) a).2.1),
        Log.total_eq_zero (fun e he => (offBook_quantities (hlog e he) a).2.2.1)]
      omega
  · intro a
    have hreturned := h.returned a
    simp only [Log.total_append]
    cases hstep with
    | answer _ _ _ _ => simpa [Event.lapsed, Event.refunded, remove] using hreturned
    | timeOut _ _ hsum =>
      simp only [Log.total_singleton, Event.lapsed, Event.refunded, amountAt_set, eq_comm (a := a)]
      split_ifs with ha
      · subst ha
        omega
      · omega
    | refund hfee =>
      simp only [Log.total_singleton, Event.lapsed, Event.refunded, amountAt_delete,
        eq_comm (a := a)]
      split_ifs with ha
      · subst ha
        rw [amountAt_of_get hfee] at hreturned
        omega
      · omega
    | withdraw _ => simpa [Event.lapsed, Event.refunded] using hreturned
    | idle hlog =>
      rw [Log.total_eq_zero (fun e he => (offBook_quantities (hlog e he) a).2.2.2.1),
        Log.total_eq_zero (fun e he => (offBook_quantities (hlog e he) a).2.2.2.2)]
      omega

lemma Settles.run (h : Settles log0 b) (hrun : Run env b log b') : Settles (log0 ++ log) b' :=
  hrun.keeps (I := fun b log => Settles log b) (fun _ _ _ _ h hstep => h.step hstep) h

lemma Settles.accept (h : Settles log b) (req : SvcRequest) :
    Settles (log ++ [.accepted req]) (b.accept env req) := by
  constructor
  · intro a
    simpa [Event.earned, Event.taxed, Event.withdrawn, Book.accept] using h.income a
  · intro a
    simpa [Event.lapsed, Event.refunded, Book.accept] using h.returned a

end

section

/-- Every accepted request is pending, was answered or timed out, and only one of the three. -/
structure Accounts (log : Log) (b : Book) : Prop where
  keyed : ∀ k r, b.pending.get k = some r → k = getRequestsByExpirationIndexKeyByReq r
  once : (Log.accepted log).Perm (b.pending.values ++ (Log.answered log ++ Log.timedOut log))

variable {log0 : Log} {req : SvcRequest}

lemma Accounts.mem_accepted (h : Accounts log b) {k : ExpirationKey} {r : SvcRequest}
    (hr : b.pending.get k = some r) : r ∈ Log.accepted log := by
  rw [h.once.mem_iff]
  exact mem_append_left _ (mem_values.mpr ⟨k, hr⟩)

lemma Accounts.accept (h : Accounts log b)
    (hfree : b.pending.get (getRequestsByExpirationIndexKeyByReq req) = none) :
    Accounts (log ++ [.accepted req]) (b.accept env req) where
  keyed := forall_set h.keyed rfl
  once := by
    have hnew := perm_values_set hfree req
    rw [perm_iff_count]
    intro r
    have hold := h.once.count_eq r
    have hcount := hnew.count_eq r
    simp only [Log.accepted_append, Log.answered_append, Log.timedOut_append,
      Log.accepted_singleton, Log.answered_singleton, Log.timedOut_singleton, Event.accepted?,
      Event.answered?, Event.timedOut?, Option.toList_some, Option.toList_none, Book.accept,
      count_append, count_cons, count_nil] at hold hcount ⊢
    omega

lemma Accounts.remove (h : Accounts log0 b)
    (hreq : b.pending.get (getRequestsByExpirationIndexKeyByReq req) = some req)
    (haccepted : Log.accepted log = []) (hlog : Log.answered log ++ Log.timedOut log = [req]) :
    (Log.accepted (log0 ++ log)).Perm
      ((b.pending.delete (getRequestsByExpirationIndexKeyByReq req)).values ++
        (Log.answered (log0 ++ log) ++ Log.timedOut (log0 ++ log))) := by
  rw [perm_iff_count]
  intro r
  have hold := h.once.count_eq r
  have hcount := (perm_values_delete hreq).count_eq r
  have hnew := congrArg (List.count r) hlog
  simp only [Log.accepted_append, Log.answered_append, Log.timedOut_append, haccepted,
    count_append, count_cons, count_nil] at hold hcount hnew ⊢
  omega

lemma Accounts.step (h : Accounts log0 b) (hstep : b.Step env log b') :
    Accounts (log0 ++ log) b' := by
  have haccepted := hstep.accepted_eq_nil
  cases hstep with
  | answer hreq _ _ _ | timeOut hreq _ _ =>
    exact ⟨forall_delete h.keyed _, h.remove hreq haccepted rfl⟩
  | refund _ | withdraw _ =>
    refine ⟨h.keyed, ?_⟩
    simpa [Event.accepted?, Event.answered?, Event.timedOut?] using h.once
  | idle hlog =>
    refine ⟨h.keyed, ?_⟩
    have hanswered : Log.answered log = [] :=
      Log.filterMap_eq_nil (fun e he => (offBook_requests (hlog e he)).2.1)
    have htimedOut : Log.timedOut log = [] :=
      Log.filterMap_eq_nil (fun e he => (offBook_requests (hlog e he)).2.2)
    simpa [haccepted, hanswered, htimedOut] using h.once

lemma Accounts.run (h : Accounts log0 b) (hrun : Run env b log b') : Accounts (log0 ++ log) b' :=
  hrun.keeps (I := fun b log => Accounts log b) (fun _ _ _ _ h hstep => h.step hstep) h

end
end Book
end Irishub.Service
