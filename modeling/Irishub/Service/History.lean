import Irishub.Service.EndBlock

/-!
# Service: runs with a log

`Op.runLogged` runs an operation and appends to a log what happens to requests,
fees and deposits; it does to the state what `Op.run` does (`runLogged_state`). What
every effect keeps is therefore kept by a run (`LoggedStep.keeps`).
`transition_of_runLogged` says what an operation can do to the tables: it accepts one
request, it takes steps of the book, or it ends a block and times out the requests
that expire.

`Logged.Inv` is what every run keeps without a condition on it. It says how many
requests each block has accepted and which counters they have, from which follows
that a request finds its place in the expiration index free as long as its block has
accepted fewer requests than an `int16` can tell apart (`Logged.Inv.free`).
-/

namespace Irishub.Service
open Lib State Store List

section
variable (env : Env)

/-- A state with the log of what led to it. -/
structure Logged where
  state : State
  log : Log

/-- One iteration of the loop of `EndBlocker`, with its log. -/
def Logged.timeout (l : Logged) (req : SvcRequest) : Outcome Logged := do
  let s ← l.state.timeout env req
  return ⟨s, l.log ++ l.state.timeoutEvents env req⟩

/-- An operation, with its log. -/
def Op.runLogged (l : Logged) : Op → Outcome Logged
  | deliver msg => do
    let s ← (deliver msg).run env l.state
    return ⟨s, l.log ++ msg.events env l.state⟩
  | endBlock nextTime => do
    let s := { l.state with intraTxCounter := 0 }
    let l ← (s.activeRequestQueue s.height).foldlM (Logged.timeout env) ⟨s, l.log⟩
    return { l with state :=
      { l.state with height := l.state.height + 1, blockTime := nextTime } }

def LoggedStep (l l' : Logged) : Prop := ∃ op : Op, op.SignedByUser ∧ op.runLogged env l = .ok l'

end

section
variable {env : Env} {l : Logged}

lemma foldlM_timeout_state (reqs : List SvcRequest) (l : Logged) :
    (reqs.foldlM (Logged.timeout env) l).map Logged.state =
      reqs.foldlM (fun s req => s.timeout env req) l.state := by
  induction reqs generalizing l with
  | nil => rfl
  | cons req reqs ih =>
    rw [foldlM_cons, foldlM_cons, Logged.timeout]
    cases l.state.timeout env req with
    | error e => rfl
    | ok s => exact ih _

lemma runLogged_state (op : Op) (l : Logged) :
    (op.runLogged env l).map Logged.state = op.run env l.state := by
  cases op with
  | deliver msg =>
    simp only [Op.runLogged]
    cases (Op.deliver msg).run env l.state with
    | error e | ok s => rfl
  | endBlock nextTime =>
    simp only [Op.runLogged, Op.run, endBlocker]
    rw [← foldlM_timeout_state _ ⟨{ l.state with intraTxCounter := 0 }, l.log⟩]
    cases List.foldlM (Logged.timeout env) ⟨{ l.state with intraTxCounter := 0 }, l.log⟩
      ({ l.state with intraTxCounter := 0 }.activeRequestQueue l.state.height) with
    | error e => rfl
    | ok l' => rfl

lemma run_of_runLogged {op : Op} {l' : Logged} (h : op.runLogged env l = .ok l') :
    op.run env l.state = .ok l'.state := by
  rw [← runLogged_state op l, h]
  rfl

end

section
variable {env : Env} {s s' s'' : State} {l l' : Logged} {log log' : Log} {reqs : List SvcRequest}
  {tested : Prop}

/-- What is done to the tables and the block without accepting a request. -/
structure Settled (env : Env) (s : State) (log : Log) (s' : State) : Prop where
  book : Book.Run env s.book log s'.book
  params : s'.params = s.params
  height : s'.height = s.height
  counter : s'.intraTxCounter = s.intraTxCounter

lemma Settled.trans (h : Settled env s log s') (h' : Settled env s' log' s'') :
    Settled env s (log ++ log') s'' where
  book := Traced.trans h.book h'.book
  params := h'.params.trans h.params
  height := h'.height.trans h.height
  counter := h'.counter.trans h.counter

lemma Effect.settled (h : Effect env tested s log s') (hlog : Log.accepted log = []) :
    Settled env s log s' := by
  cases h.change with
  | define msg => exact ⟨.nil, rfl, rfl, rfl⟩
  | write hw =>
    refine ⟨.single (.idle (fun e he => ?_)), rfl, rfl, rfl⟩
    have hkey := hw.key e he
    cases e <;> simp_all [Event.key?, Event.offBook]
  | accept msg => simp [Event.accepted?] at hlog
  | book hstep hkey => exact ⟨.single hstep, rfl, rfl, rfl⟩

lemma Effects.settled (h : Effects env s log s') (hlog : Log.accepted log = []) :
    Settled env s log s' := by
  induction h with
  | nil => exact ⟨.nil, rfl, rfl, rfl⟩
  | snoc _ hlast ih =>
    rw [Log.accepted_append, append_eq_nil_iff] at hlog
    exact (ih hlog.1).trans (hlast.settled hlog.2)

lemma accepted_timeoutEvents (env : Env) (s : State) (req : SvcRequest) :
    Log.accepted (s.timeoutEvents env req) = [] := by
  unfold timeoutEvents
  split_ifs <;> rfl

/-- Loop of `EndBlocker`: effects that delete the requests it visits. -/
lemma foldlM_timeout_effects (h : l.state.Backed env) (hdue : Due reqs l.state)
    (hrun : reqs.foldlM (Logged.timeout env) l = .ok l') :
    ∃ log, l'.log = l.log ++ log ∧ Effects env l.state log l'.state ∧ Log.accepted log = [] ∧
      ∀ k, l'.state.requestsByExpiration.get k =
        if k ∈ reqs.map getRequestsByExpirationIndexKeyByReq then none
        else l.state.requestsByExpiration.get k := by
  induction reqs generalizing l with
  | nil =>
    cases hrun
    exact ⟨[], (append_nil _).symm, .nil, rfl, by simp⟩
  | cons req reqs ih =>
    rw [foldlM_cons] at hrun
    obtain ⟨l1, hfirst, hrun⟩ := bind_ok.mp hrun
    obtain ⟨s1, htimeout, hl1⟩ := bind_ok.mp hfirst
    cases hl1
    obtain ⟨heffects, hpending⟩ := timeout_effects h (hdue.pending req (by simp)) htimeout
    obtain ⟨log, hlog, heffects', haccepted, hpending'⟩ :=
      ih (heffects.backed h) (hdue.tail hpending) hrun
    refine ⟨l.state.timeoutEvents env req ++ log, ?_, heffects.trans heffects', ?_, fun k => ?_⟩
    · rw [hlog, append_assoc]
    · rw [Log.accepted_append, accepted_timeoutEvents, haccepted]
      rfl
    · rw [hpending' k, hpending, get_delete, map_cons]
      by_cases hk : k = getRequestsByExpirationIndexKeyByReq req
      · simp [hk]
      · simp [hk]

/-- The end of a block: the effects of its timeouts, after which no entry of the expiration index
begins with its height. -/
lemma endBlock_effects {nextTime : ℤ} (h : l.state.Backed env)
    (hrun : (Op.endBlock nextTime).runLogged env l = .ok l') :
    ∃ log s1, Effects env { l.state with intraTxCounter := 0 } log s1 ∧ Log.accepted log = [] ∧
      l' = ⟨{ s1 with height := s1.height + 1, blockTime := nextTime }, l.log ++ log⟩ ∧
      ∀ k, s1.requestsByExpiration.get k =
        if (ofLex k).1 = toUint 64 l.state.height then none
        else l.state.requestsByExpiration.get k := by
  obtain ⟨⟨s1, log1⟩, hloop, hl'⟩ := bind_ok.mp hrun
  cases hl'
  have hreset := h.inBlock 0 l.state.height l.state.blockTime
  obtain ⟨log, hlog, heffects, haccepted, hpending⟩ :=
    foldlM_timeout_effects hreset (activeRequestQueue_due hreset _) hloop
  refine ⟨log, s1, heffects, haccepted, congrArg (Logged.mk _) hlog, fun k => ?_⟩
  refine (hpending k).trans ?_
  -- the queue holds the pending requests whose key begins with the height
  by_cases hk : (ofLex k).1 = toUint 64 l.state.height
  · rw [if_pos hk]
    split_ifs with hmem
    · rfl
    · cases hget : l.state.requestsByExpiration.get k with
      | none => rfl
      | some r =>
        refine absurd (mem_map.mpr ⟨r, ?_, (h.requests k r hget).key_eq.symm⟩) hmem
        exact mem_map.mpr ⟨(k, r), mem_filter.mpr ⟨mem_entries.mpr hget, by simpa using hk⟩, rfl⟩
  · rw [if_neg hk]
    rw [if_neg]
    intro hmem
    obtain ⟨r, hr, rfl⟩ := mem_map.mp hmem
    obtain ⟨e, he, rfl⟩ := mem_map.mp hr
    obtain ⟨hentry, hheight⟩ := mem_filter.mp he
    rw [← (h.requests e.1 e.2 (mem_entries.mp hentry)).key_eq] at hk
    exact hk (by simpa using hheight)

/-- What every effect keeps is kept by a step, apart from the block in progress. -/
lemma LoggedStep.keeps {I : State → Log → Prop}
    (heffect : ∀ tested s log₀ log s', s.Backed env → I s log₀ → Effect env tested s log s' →
      I s' (log₀ ++ log))
    (hblock : ∀ s log counter height blockTime, I s log →
      I { s with intraTxCounter := counter, height := height, blockTime := blockTime } log)
    (h : l.state.Backed env) (hI : I l.state l.log) (hstep : LoggedStep env l l') :
    l'.state.Backed env ∧ I l'.state l'.log := by
  obtain ⟨op, hsigned, hrun⟩ := hstep
  cases op with
  | deliver msg =>
    obtain ⟨s', hdelivered, hl'⟩ := bind_ok.mp hrun
    obtain ⟨_, hv, hhandle⟩ := bind_ok.mp hdelivered
    cases hl'
    have he := handle_effect h hv hsigned hhandle
    exact ⟨he.backed h, heffect _ _ _ _ _ h hI he⟩
  | endBlock nextTime =>
    obtain ⟨log, s1, heffects, _, rfl, _⟩ := endBlock_effects h hrun
    obtain ⟨hbacked, hkept⟩ := heffects.keeps (I := fun s log => s.Backed env ∧ I s log)
      (fun s log₀ log s' hs he => ⟨he.backed hs.1, heffect _ _ _ _ _ hs.1 hs.2 he⟩)
      ⟨h.inBlock 0 l.state.height l.state.blockTime,
        hblock l.state l.log 0 l.state.height l.state.blockTime hI⟩
    exact ⟨hbacked.inBlock s1.intraTxCounter (s1.height + 1) nextTime,
      hblock s1 _ s1.intraTxCounter (s1.height + 1) nextTime hkept⟩

/-- What an operation does to the tables and to the block. -/
inductive Transition (env : Env) (l : Logged) : Op → Logged → Prop
  | accept {s' : State} (msg : MsgSvcRequest)
      (hbook : s'.book = l.state.book.accept env (l.state.acceptedRequest env msg))
      (hparams : s'.params = l.state.params) (hheight : s'.height = l.state.height)
      (hcounter : s'.intraTxCounter = toInt16 (l.state.intraTxCounter + 1)) :
      Transition env l (.deliver (.request msg))
        ⟨s', l.log ++ [.accepted (l.state.acceptedRequest env msg)]⟩
  | settle {s' : State} {log : Log} (msg : SvcMsg) (h : Settled env l.state log s') :
      Transition env l (.deliver msg) ⟨s', l.log ++ log⟩
  | endBlock {s1 : State} {log : Log} (nextTime : ℤ)
      (h : Settled env { l.state with intraTxCounter := 0 } log s1)
      (hpending : ∀ k, s1.requestsByExpiration.get k =
        if (ofLex k).1 = toUint 64 l.state.height then none
        else l.state.requestsByExpiration.get k) :
      Transition env l (.endBlock nextTime)
        ⟨{ s1 with height := s1.height + 1, blockTime := nextTime }, l.log ++ log⟩

lemma transition_of_runLogged {op : Op} (h : l.state.Backed env) (hsigned : op.SignedByUser)
    (hrun : op.runLogged env l = .ok l') : Transition env l op l' := by
  cases op with
  | deliver msg =>
    obtain ⟨s', hdeliver, hl'⟩ := bind_ok.mp hrun
    obtain ⟨_, hv, hhandle⟩ := bind_ok.mp hdeliver
    cases hl'
    have he := handle_effect h hv hsigned hhandle
    cases msg with
    | request msg =>
      obtain ⟨_, _, _, _, _, rfl⟩ := handleMsgSvcRequest_ok hhandle
      exact .accept msg rfl rfl rfl rfl
    | respond msg =>
      refine .settle _ (he.settled ?_)
      cases hreq : l.state.answeredRequest msg with
      | none | some req => simp [SvcMsg.events, hreq, Log.accepted, Event.accepted?]
    | _ => exact .settle _ (he.settled rfl)
  | endBlock nextTime =>
    obtain ⟨log, s1, heffects, haccepted, rfl, hpending⟩ := endBlock_effects h hrun
    exact .endBlock nextTime (heffects.settled haccepted) hpending

end

section
variable {env : Env} {l l' : Logged} {log : Log} {s s' : State} {r : SvcRequest}

def Log.acceptedAt (log : Log) (height : ℤ) : List SvcRequest :=
  (Log.accepted log).filter (fun r => r.requestHeight = height)

lemma Log.acceptedAt_append (log log' : Log) (height : ℤ) :
    Log.acceptedAt (log ++ log') height =
      Log.acceptedAt log height ++ Log.acceptedAt log' height := by
  simp [Log.acceptedAt]

lemma Log.acceptedAt_append_of_accepted {log' : Log} (h : Log.accepted log' = [])
    (height : ℤ) : Log.acceptedAt (log ++ log') height = Log.acceptedAt log height := by
  simp [Log.acceptedAt, h]

/-- A first block: nothing is stored by the module, and the timeout is an `int64`. -/
structure State.Initial (s : State) : Prop extends State.Genesis s where
  definitions : s.definitions = Store.empty
  methods : s.methods = Store.empty
  active : s.activeRequests = Store.empty
  responses : s.responses = Store.empty
  counter : s.intraTxCounter = 0
  height : 0 < s.height
  timeout : s.params.maxRequestTimeout < 2 ^ 63

/-- What every run keeps. -/
structure Logged.Inv (env : Env) (l : Logged) : Prop where
  backed : l.state.Backed env
  timeout : l.state.params.maxRequestTimeout < 2 ^ 63
  height : 0 < l.state.height
  settles : Book.Settles l.log l.state.book
  accepted : ∀ r ∈ Log.accepted l.log, 0 < r.requestHeight ∧ r.requestHeight ≤ l.state.height ∧
    r.expirationHeight = r.requestHeight + l.state.params.maxRequestTimeout
  counters : ∀ height, (Log.acceptedAt l.log height).map (·.requestIntraTxCounter) =
    (List.range (Log.acceptedAt l.log height).length).map (fun i : ℕ => toInt16 i)
  counter : l.state.intraTxCounter = toInt16 (Log.acceptedAt l.log l.state.height).length
  pending : ∀ k r, l.state.requestsByExpiration.get k = some r →
    r ∈ Log.accepted l.log ∧ l.state.height ≤ r.expirationHeight

lemma State.Backed.timeout_pos (h : s.Backed env) : 0 < s.params.maxRequestTimeout := by
  obtain ⟨mainnet, h⟩ := h.params
  simp only [Params.validate, Bool.and_eq_true, decide_eq_true_eq] at h
  have htimeout := h.1.1.1.1.1.1
  split_ifs at htimeout <;> simp only [decide_eq_true_eq] at htimeout <;> omega

lemma State.Genesis.backed (h : s.Genesis) : s.Backed env := h.inv.backed

lemma State.Initial.inv (h : s.Initial) : Logged.Inv env ⟨s, []⟩ where
  backed := h.toGenesis.backed
  timeout := h.timeout
  height := h.height
  settles := by
    constructor
    · intro a
      simp [Log.total, amountAt, Store.contribution, book, h.incoming]
    · intro a
      simp [Log.total, amountAt, Store.contribution, book, h.returned]
  accepted r hr := by simp [Log.accepted] at hr
  counters height := rfl
  counter := by simp [h.counter, Log.acceptedAt, Log.accepted, toInt16]
  pending k r hr := by simp [h.requests] at hr

lemma Book.Run.pending_of_pending {b b' : Book} (h : Book.Run env b log b')
    {k : ExpirationKey} (hr : b'.pending.get k = some r) : b.pending.get k = some r := by
  have hdelete : ∀ {b : Book} (req : SvcRequest), (b.remove env req).pending.get k = some r →
      b.pending.get k = some r := by
    intro b req hget
    simp only [Book.remove, get_delete] at hget
    split_ifs at hget
    exact hget
  induction h with
  | nil => exact hr
  | snoc _ hstep ih =>
    refine ih ?_
    cases hstep with
    | answer | timeOut => exact hdelete _ hr
    | refund | withdraw | idle => exact hr

lemma toInt16_toInt16_add_one (n : ℤ) : toInt16 (toInt16 n + 1) = toInt16 (n + 1) := by
  unfold toInt16
  omega

lemma Log.counters_accept {req : SvcRequest}
    (h : ∀ height, (Log.acceptedAt log height).map (·.requestIntraTxCounter) =
      (List.range (Log.acceptedAt log height).length).map (fun i : ℕ => toInt16 i))
    (hcounter : req.requestIntraTxCounter =
      toInt16 (Log.acceptedAt log req.requestHeight).length) (height : ℤ) :
    (Log.acceptedAt (log ++ [.accepted req]) height).map (·.requestIntraTxCounter) =
      (List.range (Log.acceptedAt (log ++ [.accepted req]) height).length).map
        (fun i : ℕ => toInt16 i) := by
  have hsingle : Log.acceptedAt [.accepted req] height =
      if req.requestHeight = height then [req] else [] := by
    by_cases hreq : req.requestHeight = height
    · simp [Log.acceptedAt, Event.accepted?, hreq]
    · simp [Log.acceptedAt, Event.accepted?, hreq]
  rw [Log.acceptedAt_append, hsingle]
  split_ifs with hreq
  · subst hreq
    rw [map_append, h, length_append, length_singleton, range_succ,
      map_append, map_singleton, map_singleton, hcounter]
  · rw [append_nil]
    exact h height

lemma Logged.Inv.accept (h : l.Inv env) (msg : MsgSvcRequest)
    (hbacked : s'.Backed env) (hparams : s'.params = l.state.params)
    (hbook : s'.book = l.state.book.accept env (l.state.acceptedRequest env msg))
    (hheight : s'.height = l.state.height)
    (hcounter : s'.intraTxCounter = toInt16 (l.state.intraTxCounter + 1)) :
    Logged.Inv env ⟨s', l.log ++ [.accepted (l.state.acceptedRequest env msg)]⟩ := by
  have hmem : ∀ r ∈ Log.accepted (l.log ++ [.accepted (l.state.acceptedRequest env msg)]),
      r ∈ Log.accepted l.log ∨ r = l.state.acceptedRequest env msg := by
    intro r hr
    simpa [Event.accepted?] using hr
  have hpos := h.backed.timeout_pos
  constructor
  · exact hbacked
  · rw [hparams]
    exact h.timeout
  · rw [hheight]
    exact h.height
  · rw [hbook]
    exact h.settles.accept _
  · intro r hr
    rw [hparams, hheight]
    rcases hmem r hr with hr | rfl
    · exact h.accepted r hr
    · exact ⟨h.height, le_rfl, rfl⟩
  · exact Log.counters_accept h.counters h.counter
  · have hlength : (Log.acceptedAt (l.log ++ [.accepted (l.state.acceptedRequest env msg)])
        l.state.height).length = (Log.acceptedAt l.log l.state.height).length + 1 := by
      simp [Log.acceptedAt, Event.accepted?, acceptedRequest]
    rw [hcounter, hheight, hlength, h.counter, toInt16_toInt16_add_one]
    push_cast
    rfl
  · have hpending : s'.requestsByExpiration = l.state.requestsByExpiration.set
        (getRequestsByExpirationIndexKeyByReq (l.state.acceptedRequest env msg))
        (l.state.acceptedRequest env msg) := congrArg Book.pending hbook
    rw [hpending, hheight]
    refine forall_set (fun k r hr => ?_) ⟨?_, ?_⟩
    · obtain ⟨hr, hdue⟩ := h.pending k r hr
      exact ⟨by simp [hr], hdue⟩
    · simp [Event.accepted?]
    · simp only [acceptedRequest]
      omega

lemma Settled.accepted_eq (h : Settled env s log s') (log₀ : Log) (height : ℤ) :
    Log.accepted (log₀ ++ log) = Log.accepted log₀ ∧
      Log.acceptedAt (log₀ ++ log) height = Log.acceptedAt log₀ height := by
  rw [Log.accepted_append, h.book.accepted_eq_nil, append_nil]
  exact ⟨rfl, Log.acceptedAt_append_of_accepted h.book.accepted_eq_nil height⟩

lemma Logged.Inv.settle (h : l.Inv env) (hbacked : s'.Backed env)
    (hsettled : Settled env l.state log s') : Logged.Inv env ⟨s', l.log ++ log⟩ := by
  have haccepted := hsettled.accepted_eq l.log
  constructor
  · exact hbacked
  · rw [hsettled.params]
    exact h.timeout
  · rw [hsettled.height]
    exact h.height
  · exact h.settles.run hsettled.book
  · rw [(haccepted 0).1, hsettled.params, hsettled.height]
    exact h.accepted
  · intro height
    rw [(haccepted height).2]
    exact h.counters height
  · rw [hsettled.counter, hsettled.height, (haccepted _).2]
    exact h.counter
  · intro k r hr
    rw [(haccepted 0).1, hsettled.height]
    exact h.pending k r (hsettled.book.pending_of_pending hr)

lemma Logged.Inv.endBlock {s1 : State} (h : l.Inv env) (nextTime : ℤ)
    (hbacked : { s1 with height := s1.height + 1, blockTime := nextTime }.Backed env)
    (hsettled : Settled env { l.state with intraTxCounter := 0 } log s1)
    (hpending : ∀ k, s1.requestsByExpiration.get k =
      if (ofLex k).1 = toUint 64 l.state.height then none else l.state.requestsByExpiration.get k) :
    Logged.Inv env
      ⟨{ s1 with height := s1.height + 1, blockTime := nextTime }, l.log ++ log⟩ := by
  have haccepted := hsettled.accepted_eq l.log
  have hparams : s1.params = l.state.params := hsettled.params
  have hheight : s1.height = l.state.height := hsettled.height
  have hpos := h.height
  constructor
  · exact hbacked
  · dsimp only
    rw [hparams]
    exact h.timeout
  · dsimp only
    omega
  · exact h.settles.run hsettled.book
  · intro r hr
    rw [(haccepted 0).1] at hr
    obtain ⟨h0, hle, hexpires⟩ := h.accepted r hr
    dsimp only
    rw [hparams]
    exact ⟨h0, by omega, hexpires⟩
  · intro height
    rw [(haccepted height).2]
    exact h.counters height
  · have hnone : Log.acceptedAt l.log (l.state.height + 1) = [] := by
      refine filter_eq_nil_iff.mpr (fun r hr => ?_)
      have := (h.accepted r hr).2.1
      simp only [decide_eq_true_eq]
      omega
    dsimp only
    rw [hsettled.counter, hheight, (haccepted _).2, hnone]
    rfl
  · intro k r hr
    rw [(haccepted 0).1]
    have hkey := (hbacked.requests k r hr).key_eq
    change s1.requestsByExpiration.get k = some r at hr
    rw [hpending k] at hr
    split_ifs at hr with hk
    obtain ⟨hr, hdue⟩ := h.pending k r hr
    refine ⟨hr, ?_⟩
    have hne : r.expirationHeight ≠ l.state.height := by
      intro heq
      rw [hkey] at hk
      exact hk (congrArg (toUint 64) heq)
    dsimp only
    omega

lemma LoggedStep.backed (h : l.state.Backed env) (hstep : LoggedStep env l l') :
    l'.state.Backed env :=
  (hstep.keeps (I := fun _ _ => True) (fun _ _ _ _ _ _ _ _ => trivial) (fun _ _ _ _ _ _ => trivial)
    h trivial).1

lemma Logged.Inv.step (h : l.Inv env) (hstep : LoggedStep env l l') : l'.Inv env := by
  have hbacked := hstep.backed h.backed
  obtain ⟨op, hsigned, hrun⟩ := hstep
  cases transition_of_runLogged h.backed hsigned hrun with
  | accept msg hbook hparams hheight hcounter =>
    exact h.accept msg hbacked hparams hbook hheight hcounter
  | settle _ hsettled => exact h.settle hbacked hsettled
  | endBlock nextTime hsettled hpending => exact h.endBlock nextTime hbacked hsettled hpending

lemma Logged.Inv.run (hs : s.Initial)
    (hrun : Relation.ReflTransGen (LoggedStep env) ⟨s, []⟩ l) : l.Inv env :=
  invariant_of_step (I := Logged.Inv env) (fun _ _ h hstep => h.step hstep) hrun hs.inv

/-- What every effect keeps is kept by a run. -/
lemma Logged.kept {I : State → Log → Prop}
    (heffect : ∀ tested s log₀ log s', s.Backed env → I s log₀ → Effect env tested s log s' →
      I s' (log₀ ++ log))
    (hblock : ∀ s log counter height blockTime, I s log →
      I { s with intraTxCounter := counter, height := height, blockTime := blockTime } log)
    (hs : s.Initial) (hI : I s []) (hrun : Relation.ReflTransGen (LoggedStep env) ⟨s, []⟩ l) :
    I l.state l.log := by
  have hboth : l.state.Backed env ∧ I l.state l.log :=
    invariant_of_step (I := fun l : Logged => l.state.Backed env ∧ I l.state l.log)
      (fun _ _ h hstep => hstep.keeps heffect hblock h.1 h.2) hrun ⟨hs.inv.backed, hI⟩
  exact hboth.2

/-- Replaying the log of a run on the first bank gives the last one. -/
lemma Logged.pay_of_run (hs : s.Initial)
    (hrun : Relation.ReflTransGen (LoggedStep env) ⟨s, []⟩ l) :
    l.log.pay s.bank = .ok l.state.bank := by
  refine Logged.kept (I := fun s1 log => log.pay s.bank = .ok s1.bank) ?_ ?_ hs rfl hrun
  · intro tested s1 log₀ log s' _ hpay he
    rw [Log.pay_append hpay]
    exact he.pay
  · exact fun _ _ _ _ _ hpay => hpay

lemma Logged.Inv.counter_of_mem (h : l.Inv env) (hr : r ∈ Log.accepted l.log) :
    ∃ i : ℕ, i < (Log.acceptedAt l.log r.requestHeight).length ∧
      r.requestIntraTxCounter = toInt16 i := by
  have hmem : r ∈ Log.acceptedAt l.log r.requestHeight := mem_filter.mpr ⟨hr, by simp⟩
  have hcounter := mem_map_of_mem (f := (·.requestIntraTxCounter)) hmem
  rw [h.counters] at hcounter
  obtain ⟨i, hi, hcounter⟩ := mem_map.mp hcounter
  exact ⟨i, mem_range.mp hi, hcounter.symm⟩

lemma toUint_toInt16 (n : ℕ) : toUint 16 (toInt16 n) = n % 2 ^ 16 := by
  unfold toUint toInt16
  omega

/-- Place of a new request is free if its block has accepted fewer than `2 ^ 16`. -/
lemma Logged.Inv.free (h : l.Inv env)
    (hfew : (Log.acceptedAt l.log l.state.height).length < 2 ^ 16) (msg : MsgSvcRequest) :
    l.state.requestsByExpiration.get
      (getRequestsByExpirationIndexKeyByReq (l.state.acceptedRequest env msg)) = none := by
  cases hget : l.state.requestsByExpiration.get
      (getRequestsByExpirationIndexKeyByReq (l.state.acceptedRequest env msg)) with
  | none => rfl
  | some r =>
    exfalso
    obtain ⟨hr, hdue⟩ := h.pending _ _ hget
    obtain ⟨_, hle, hexpires⟩ := h.accepted r hr
    have hkey := (h.backed.requests _ _ hget).key_eq
    have hheight : toUint 64 (l.state.height + l.state.params.maxRequestTimeout) =
        toUint 64 r.expirationHeight := congrArg (fun k : ExpirationKey => (ofLex k).1) hkey
    have hcounter : toUint 16 l.state.intraTxCounter = toUint 16 r.requestIntraTxCounter :=
      congrArg (fun k : ExpirationKey => (ofLex (ofLex k).2).2) hkey
    have htimeout := h.timeout
    -- both expire within the timeout from now, so the heights are the same
    have hnow : r.requestHeight = l.state.height := by
      unfold toUint at hheight
      omega
    obtain ⟨i, hi, hri⟩ := h.counter_of_mem hr
    rw [h.counter, hri, toUint_toInt16, toUint_toInt16] at hcounter
    rw [hnow] at hi
    omega

lemma loggedRun_of_returns {ops : List Op} {p : Logged → Bool}
    (hsigned : ∀ op ∈ ops, op.SignedByUser)
    (h : returns p (ops.foldlM (Op.runLogged env) l) = true) :
    ∃ l', Relation.ReflTransGen (LoggedStep env) l l' ∧ p l' = true := by
  obtain ⟨l', hl', hp⟩ := of_returns h
  exact ⟨l', reflTransGen_of_foldlM (fun op hop _ _ hrun => ⟨op, hsigned op hop, hrun⟩) hl', hp⟩

end
end Irishub.Service
