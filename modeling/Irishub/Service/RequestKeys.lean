import Irishub.Service.Settlement
import Mathlib.Data.List.Pairwise

/-!
# Service: the keys of requests and responses

The keys of requests, active requests and responses contain the heights and the counter
as `string(n)`, which is the character with the code point `n`. For a number that is
no code point, a surrogate among them, it is U+FFFD. Two numbers are told apart by it
when they are different and one of them is a code point other than U+FFFD.
-/

namespace Irishub.Service
open Lib Store Log List String

def OwnCodePoint (i : ℤ) : Prop :=
  0 ≤ i ∧ (i < 0xD800 ∨ (0xDFFF < i ∧ i ≤ 0x10FFFF)) ∧ i ≠ 0xFFFD

instance : DecidablePred OwnCodePoint := fun _ => inferInstanceAs (Decidable (_ ∧ _ ∧ _))

def ToldApart (i j : ℤ) : Prop := i ≠ j ∧ (OwnCodePoint i ∨ OwnCodePoint j)

instance (i j : ℤ) : Decidable (ToldApart i j) := inferInstanceAs (Decidable (_ ∧ _))

def runeChar (i : ℤ) : Char :=
  if 0 ≤ i ∧ (i < 0xD800 ∨ (0xDFFF < i ∧ i ≤ 0x10FFFF)) then Char.ofNat i.toNat
  else Char.ofNat 0xFFFD

lemma stringOfRune_toList (i : ℤ) : (stringOfRune i).toList = [runeChar i] := by
  unfold stringOfRune runeChar
  split_ifs
  · exact toList_singleton _
  · rfl

lemma toNat_runeChar (i : ℤ) :
    (runeChar i).toNat = if 0 ≤ i ∧ (i < 0xD800 ∨ (0xDFFF < i ∧ i ≤ 0x10FFFF)) then i.toNat
      else 0xFFFD := by
  unfold runeChar
  split_ifs with hi
  · have hvalid : i.toNat.isValidChar := by
      unfold Nat.isValidChar
      omega
    unfold Char.ofNat
    rw [dif_pos hvalid]
    rfl
  · decide

lemma runeChar_eq_iff (i j : ℤ) : runeChar i = runeChar j ↔ ¬ToldApart i j := by
  rw [← Char.toNat_inj, toNat_runeChar, toNat_runeChar]
  unfold ToldApart OwnCodePoint
  constructor
  · intro h
    split_ifs at h <;> omega
  · intro h
    split_ifs <;> omega

lemma ToldApart.symm {i j : ℤ} (h : ToldApart i j) : ToldApart j i := ⟨h.1.symm, h.2.symm⟩

section
variable {env : Env} {req req' : SvcRequest}

lemma getRequestKey_toList (env : Env) (req : SvcRequest) :
    (getRequestKey env req).toList = (req.bindingKey env).toList ++
      ['\x00', runeChar req.requestHeight, '\x00', runeChar req.requestIntraTxCounter] := by
  simp only [getRequestKey, SvcRequest.bindingKey, getServiceBindingKey, getStringsKey,
    toList_intercalate, map_cons, map_nil, stringOfRune_toList]
  simp [List.intercalate, List.intersperse]

lemma getResponseKey_toList (resp : SvcResponse) :
    (getResponseKey resp).toList = resp.reqChainID.toList ++
      ['\x00', runeChar resp.expirationHeight, '\x00', runeChar resp.requestHeight, '\x00',
        runeChar resp.requestIntraTxCounter] := by
  simp only [getResponseKey, getStringsKey, toList_intercalate, map_cons, map_nil,
    stringOfRune_toList]
  simp [List.intercalate, List.intersperse]

def SvcRequest.ToldApart (req req' : SvcRequest) : Prop :=
  Service.ToldApart req.requestHeight req'.requestHeight ∨
    Service.ToldApart req.requestIntraTxCounter req'.requestIntraTxCounter

instance (req req' : SvcRequest) : Decidable (req.ToldApart req') :=
  inferInstanceAs (Decidable (_ ∨ _))

instance : Std.Symm SvcRequest.ToldApart where
  symm _ _ h := h.imp Service.ToldApart.symm Service.ToldApart.symm

lemma getRequestKey_ne (h : req.ToldApart req') :
    getRequestKey env req ≠ getRequestKey env req' := by
  intro heq
  have hlist := congrArg toList heq
  rw [getRequestKey_toList, getRequestKey_toList] at hlist
  obtain ⟨_, hsuffix⟩ := append_inj' hlist rfl
  simp only [cons.injEq, runeChar_eq_iff, true_and, and_true] at hsuffix
  rcases h with h | h
  · exact hsuffix.1 h
  · exact hsuffix.2 h

lemma getResponseKey_ne (h : req.ToldApart req') :
    getResponseKey req.response ≠ getResponseKey req'.response := by
  intro heq
  have hlist := congrArg toList heq
  rw [getResponseKey_toList, getResponseKey_toList] at hlist
  obtain ⟨_, hsuffix⟩ := append_inj' hlist rfl
  simp only [SvcRequest.response, cons.injEq, runeChar_eq_iff, true_and, and_true] at hsuffix
  rcases h with h | h
  · exact hsuffix.2.1 h
  · exact hsuffix.2.2 h

/-- Two requests are for the same binding. -/
structure SameBinding (req req' : SvcRequest) : Prop where
  defChainID : req.defChainID = req'.defChainID
  defName : req.defName = req'.defName
  bindChainID : req.bindChainID = req'.bindChainID
  provider : req.provider = req'.provider

lemma getRequestKey_ne_iff (h : SameBinding req req') :
    getRequestKey env req ≠ getRequestKey env req' ↔ req.ToldApart req' := by
  refine ⟨fun hne => ?_, getRequestKey_ne⟩
  by_contra hnot
  refine hne ?_
  rw [SvcRequest.ToldApart, not_or, ← runeChar_eq_iff, ← runeChar_eq_iff] at hnot
  have hbinding : req.bindingKey env = req'.bindingKey env := by
    simp only [SvcRequest.bindingKey, h.defChainID, h.defName, h.bindChainID, h.provider]
  rw [← toList_inj, getRequestKey_toList, getRequestKey_toList, hbinding, hnot.1, hnot.2]

lemma getResponseKey_ne_iff {resp resp' : SvcResponse} (h : resp.reqChainID = resp'.reqChainID) :
    getResponseKey resp ≠ getResponseKey resp' ↔
      ToldApart resp.expirationHeight resp'.expirationHeight ∨
        ToldApart resp.requestHeight resp'.requestHeight ∨
        ToldApart resp.requestIntraTxCounter resp'.requestIntraTxCounter := by
  rw [← not_iff_not, not_not, not_or, not_or, ← runeChar_eq_iff, ← runeChar_eq_iff,
    ← runeChar_eq_iff, ← toList_inj, getResponseKey_toList, getResponseKey_toList, h,
    append_cancel_left_eq]
  simp only [cons.injEq, true_and, and_true]

end

section
variable {env : Env}

/-- Requests of a log are told apart, and their numbers are in range. -/
structure Log.Clear (log : Log) : Prop where
  apart : (Log.accepted log).Pairwise SvcRequest.ToldApart
  inRange : ∀ r ∈ Log.accepted log, r.InRange

lemma Log.Clear.of_append {log log' : Log} (h : Clear (log ++ log')) : Clear log := by
  constructor
  · have happart := h.apart
    rw [accepted_append] at happart
    exact (pairwise_append.mp happart).1
  · intro r hr
    exact h.inRange r (by simp [hr])

lemma SvcRequest.ToldApart.expirationKey_ne {r r' : SvcRequest} (h : r.ToldApart r')
    (hr : r.InRange) (hr' : r'.InRange) :
    getRequestsByExpirationIndexKeyByReq r ≠ getRequestsByExpirationIndexKeyByReq r' := by
  intro heq
  obtain ⟨_, hheight, hcounter⟩ := getRequestsByExpirationIndexKey_inj hr.int64.1 hr.int64.2
    hr.counter hr'.int64.1 hr'.int64.2 hr'.counter heq
  rcases h with h | h
  · exact h.1 hheight
  · exact h.1 hcounter

namespace Book
variable {b b' : Book} {log log0 : Log} {req : SvcRequest}

/-- Active requests are the entries of the index, and the response to every answered request
is stored. -/
structure Indexed (env : Env) (log : Log) (b : Book) : Prop where
  active_of_pending : ∀ k r, b.pending.get k = some r →
    b.active.get (getRequestKey env r) = some r
  pending_of_active : ∀ k r, b.active.get k = some r → k = getRequestKey env r ∧
    b.pending.get (getRequestsByExpirationIndexKeyByReq r) = some r
  responses : ∀ r ∈ Log.answered log, b.responses.get (getResponseKey r.response) = some r.response

lemma Accounts.free (h : Accounts log b) (hclear : Clear (log ++ [.accepted req])) :
    b.pending.get (getRequestsByExpirationIndexKeyByReq req) = none := by
  cases hget : b.pending.get (getRequestsByExpirationIndexKeyByReq req) with
  | none => rfl
  | some r =>
    have hr := h.mem_accepted hget
    have happart := hclear.apart
    rw [accepted_append, pairwise_append] at happart
    have hne := happart.2.2 r hr req (by simp [Event.accepted?])
    exact absurd (h.keyed _ _ hget).symm (hne.expirationKey_ne (hclear.inRange r (by simp [hr]))
      (hclear.inRange req (by simp [Event.accepted?])))

lemma Indexed.accept (h : Indexed env log b) (ha : Accounts log b)
    (hclear : Clear (log ++ [.accepted req])) :
    Indexed env (log ++ [.accepted req]) (b.accept env req) := by
  have happart : ∀ r ∈ accepted log, r.ToldApart req := by
    have happart := hclear.apart
    rw [accepted_append, pairwise_append] at happart
    exact fun r hr => happart.2.2 r hr req (by simp [Event.accepted?])
  have hfree := ha.free hclear
  constructor
  · refine forall_set (fun k r hr => ?_) (get_set_self _ _ _)
    have hne : getRequestKey env r ≠ getRequestKey env req :=
      getRequestKey_ne (happart r (ha.mem_accepted hr))
    simp only [Book.accept, get_set_ne _ _ hne]
    exact h.active_of_pending k r hr
  · refine forall_set (fun k r hr => ?_) ⟨rfl, get_set_self _ _ _⟩
    obtain ⟨hk, hpending⟩ := h.pending_of_active k r hr
    refine ⟨hk, ?_⟩
    have hne :
        getRequestsByExpirationIndexKeyByReq r ≠ getRequestsByExpirationIndexKeyByReq req := by
      intro heq
      rw [heq, hfree] at hpending
      simp at hpending
    simp only [Book.accept, get_set_ne _ _ hne]
    exact hpending
  · intro r hr
    rw [answered_append, answered_singleton] at hr
    simp only [Event.answered?, Option.toList_none, append_nil] at hr
    exact h.responses r hr

/-- Accepted requests are told apart wherever they are now. -/
lemma Accounts.apart (h : Accounts log b) (hclear : Clear log) :
    (b.pending.values ++ (answered log ++ timedOut log)).Pairwise SvcRequest.ToldApart :=
  (h.once.pairwise_iff (fun hxy => Std.Symm.symm _ _ hxy)).mp hclear.apart

/-- A pending request is deleted from both tables. -/
lemma Indexed.remove (h : Indexed env log b) (ha : Accounts log b) (hclear : Clear log)
    (hreq : b.pending.get (getRequestsByExpirationIndexKeyByReq req) = some req) :
    (∀ k r, (b.remove env req).pending.get k = some r →
      (b.remove env req).active.get (getRequestKey env r) = some r) ∧
    ∀ k r, (b.remove env req).active.get k = some r → k = getRequestKey env r ∧
      (b.remove env req).pending.get (getRequestsByExpirationIndexKeyByReq r) = some r := by
  have happart := (pairwise_append.mp (ha.apart hclear)).1
  constructor
  · intro k r hr
    simp only [Book.remove, get_delete] at hr ⊢
    split_ifs at hr with hk
    have hne : r ≠ req := by
      rintro rfl
      exact hk (ha.keyed k r hr)
    have htold := happart.forall (mem_values.mpr ⟨k, hr⟩) (mem_values.mpr ⟨_, hreq⟩) hne
    rw [if_neg (getRequestKey_ne htold)]
    exact h.active_of_pending k r hr
  · intro k r hr
    simp only [Book.remove, get_delete] at hr ⊢
    split_ifs at hr with hk
    obtain ⟨hkey, hpending⟩ := h.pending_of_active k r hr
    refine ⟨hkey, ?_⟩
    rw [if_neg]
    · exact hpending
    · intro heq
      rw [heq, hreq] at hpending
      cases hpending
      exact hk hkey

lemma Indexed.step (h : Indexed env log0 b) (ha : Accounts log0 b) (hclear : Clear log0)
    (hstep : b.Step env log b') : Indexed env (log0 ++ log) b' := by
  cases hstep with
  | @answer req resp tax sum hreq hresp _ hsum =>
    obtain ⟨hactive, hpending⟩ := h.remove ha hclear hreq
    refine ⟨hactive, hpending, ?_⟩
    have hmem : req ∈ accepted log0 := ha.mem_accepted hreq
    rw [hresp (hclear.inRange req hmem)]
    intro r hr
    rw [answered_append, answered_singleton] at hr
    simp only [Event.answered?, Option.toList_some, mem_append, mem_singleton] at hr
    rcases hr with hr | rfl
    · have htold : req.ToldApart r :=
        (pairwise_append.mp (ha.apart hclear)).2.2 req (mem_values.mpr ⟨_, hreq⟩) r
          (mem_append_left _ hr)
      rw [get_set_ne _ _ (getResponseKey_ne htold).symm]
      exact h.responses r hr
    · exact get_set_self _ _ _
  | timeOut hreq =>
    obtain ⟨hactive, hpending⟩ := h.remove ha hclear hreq
    refine ⟨hactive, hpending, fun r hr => ?_⟩
    rw [answered_append, answered_singleton] at hr
    exact h.responses r (by simpa [Event.answered?] using hr)
  | refund _ | withdraw _ =>
    refine ⟨h.active_of_pending, h.pending_of_active, fun r hr => ?_⟩
    rw [answered_append, answered_singleton] at hr
    exact h.responses r (by simpa [Event.answered?] using hr)
  | idle hlog =>
    refine ⟨h.active_of_pending, h.pending_of_active, fun r hr => ?_⟩
    have hanswered : answered log = [] :=
      filterMap_eq_nil (fun e he => (offBook_requests (hlog e he)).2.1)
    rw [answered_append, hanswered, append_nil] at hr
    exact h.responses r hr

lemma Indexed.run (h : Indexed env log0 b) (ha : Accounts log0 b) (hclear : Clear log0)
    (hrun : Run env b log b') : Indexed env (log0 ++ log) b' := by
  have hkeeps : Clear (log0 ++ log) ∧ Accounts (log0 ++ log) b' ∧ Indexed env (log0 ++ log) b' := by
    refine hrun.keeps (I := fun b log => Clear log ∧ Accounts log b ∧ Indexed env log b) ?_
      ⟨hclear, ha, h⟩
    rintro b log0 log b' ⟨hclear, ha, h⟩ hstep
    refine ⟨⟨?_, ?_⟩, ha.step hstep, h.step ha hclear hstep⟩
    · rw [accepted_append, hstep.accepted_eq_nil, append_nil]
      exact hclear.apart
    · rw [accepted_append, hstep.accepted_eq_nil, append_nil]
      exact hclear.inRange
  exact hkeeps.2.2

end Book
end

section
variable {env : Env} {s : State} {l l' : Logged}

/-- Active requests are the pending ones, each under its own key in both tables, and every
response is stored. -/
structure Logged.RequestsIndexed (env : Env) (l : Logged) : Prop where
  bijective : l.state.activeRequests.values.Perm l.state.requestsByExpiration.values
  active : ∀ k r, l.state.activeRequests.get k = some r → k = getRequestKey env r
  pending : ∀ k r, l.state.requestsByExpiration.get k = some r →
    k = getRequestsByExpirationIndexKeyByReq r
  responses : ∀ r ∈ Log.answered l.log,
    l.state.responses.get (getResponseKey r.response) = some r.response

lemma Logged.Inv.clear (h : l.Inv env)
    (hexpires : ∀ r ∈ Log.accepted l.log, r.expirationHeight < 2 ^ 63)
    (happart : (Log.accepted l.log).Pairwise SvcRequest.ToldApart) : Log.Clear l.log := by
  refine ⟨happart, fun r hr => ?_⟩
  obtain ⟨hpos, -, he⟩ := h.accepted r hr
  have htimeout := h.backed.timeout_pos
  have hlt := hexpires r hr
  obtain ⟨i, -, hcounter⟩ := h.counter_of_mem hr
  refine ⟨by omega, by omega, ?_⟩
  rw [hcounter]
  exact toInt16_range i

def Logged.IndexedWhileClear (env : Env) (l : Logged) : Prop :=
  Log.Clear l.log → Book.Accounts l.log l.state.book ∧ Book.Indexed env l.log l.state.book

lemma Logged.IndexedWhileClear.step (h : l.Inv env) (hI : l.IndexedWhileClear env)
    (hstep : LoggedStep env l l') : l'.IndexedWhileClear env := by
  obtain ⟨op, hsigned, hrun⟩ := hstep
  cases transition_of_runLogged h.backed hsigned hrun with
  | accept msg hbook =>
    intro hclear
    obtain ⟨ha, hi⟩ := hI hclear.of_append
    rw [hbook]
    exact ⟨ha.accept (ha.free hclear), hi.accept ha hclear⟩
  | settle _ hsettled | endBlock _ hsettled =>
    intro hclear
    obtain ⟨ha, hi⟩ := hI hclear.of_append
    exact ⟨ha.run hsettled.book, hi.run ha hclear.of_append hsettled.book⟩

lemma State.Initial.indexed (hs : s.Initial) : Logged.IndexedWhileClear env ⟨s, []⟩ := by
  refine fun _ => ⟨hs.accounts, ?_, ?_, ?_⟩
  · intro k r hr
    simp [State.book, hs.requests] at hr
  · intro k r hr
    simp [State.book, hs.active] at hr
  · intro r hr
    simp [answered] at hr

lemma Book.Indexed.requestsIndexed (ha : Accounts l.log l.state.book)
    (hi : Indexed env l.log l.state.book) : l.RequestsIndexed env := by
  have hactive : ∀ k r, l.state.activeRequests.get k = some r → k = getRequestKey env r :=
    fun k r hr => (hi.pending_of_active k r hr).1
  refine ⟨?_, hactive, ha.keyed, hi.responses⟩
  refine (perm_ext_iff_of_nodup (nodup_values hactive) (nodup_values ha.keyed)).mpr (fun r => ?_)
  rw [mem_values, mem_values]
  constructor
  · rintro ⟨k, hr⟩
    exact ⟨_, (hi.pending_of_active k r hr).2⟩
  · rintro ⟨k, hr⟩
    exact ⟨_, hi.active_of_pending k r hr⟩

/-- Which keys of one service are different, and what follows for a run whose requests are told
apart and expire at an `int64` height. -/
theorem requestKeys_identify (env : Env) : (∀ req req', SameBinding req req' →
      (getRequestKey env req ≠ getRequestKey env req' ↔ req.ToldApart req')) ∧
    (∀ resp resp' : SvcResponse, resp.reqChainID = resp'.reqChainID →
      (getResponseKey resp ≠ getResponseKey resp' ↔
        ToldApart resp.expirationHeight resp'.expirationHeight ∨
          ToldApart resp.requestHeight resp'.requestHeight ∨
          ToldApart resp.requestIntraTxCounter resp'.requestIntraTxCounter)) ∧
    (∀ s l, s.Initial → Relation.ReflTransGen (LoggedStep env) ⟨s, []⟩ l →
      (Log.accepted l.log).Pairwise SvcRequest.ToldApart →
      (∀ r ∈ Log.accepted l.log, r.expirationHeight < 2 ^ 63) → l.RequestsIndexed env) := by
  refine ⟨fun _ _ => getRequestKey_ne_iff, fun _ _ => getResponseKey_ne_iff, ?_⟩
  intro s l hs hrun happart hexpires
  have hboth : l.Inv env ∧ l.IndexedWhileClear env :=
    invariant_of_step (I := fun l => l.Inv env ∧ l.IndexedWhileClear env)
      (fun _ _ h hstep => ⟨h.1.step hstep, h.2.step h.1 hstep⟩) hrun ⟨hs.inv, hs.indexed⟩
  obtain ⟨ha, hi⟩ := hboth.2 (hboth.1.clear hexpires happart)
  exact hi.requestsIndexed ha

def sampleAnswerOps : List Op :=
  sampleRequestOps ++ [.deliver (.request sampleRequest),
    .deliver (.respond { reqChainID := "chain", requestID := "6-1-0", provider := 1 })]

/-- Two requests have different keys, the second is active and the response is stored. -/
theorem sampleAnswer_indexed :
    getRequestKey sampleEnv (sampleAccepted 0) ≠ getRequestKey sampleEnv (sampleAccepted 1) ∧
      getResponseKey (sampleAccepted 0).response ≠ getResponseKey (sampleAccepted 1).response ∧
      ∃ l, Relation.ReflTransGen (LoggedStep sampleEnv) ⟨sampleState, []⟩ l ∧
        Log.accepted l.log = [sampleAccepted 0, sampleAccepted 1] ∧
        Log.answered l.log = [sampleAccepted 0] ∧ l.RequestsIndexed sampleEnv := by
  obtain ⟨hkeys, hresponses, hindexed⟩ := requestKeys_identify sampleEnv
  refine ⟨?_, ?_, ?_⟩
  · exact (hkeys (sampleAccepted 0) (sampleAccepted 1) ⟨rfl, rfl, rfl, rfl⟩).mpr (by decide)
  · exact (hresponses (sampleAccepted 0).response (sampleAccepted 1).response rfl).mpr (by decide)
  · obtain ⟨l, hrun, hlog⟩ := @loggedRun_of_returns sampleEnv ⟨sampleState, []⟩ sampleAnswerOps
      (fun l => decide (accepted l.log = [sampleAccepted 0, sampleAccepted 1] ∧
        answered l.log = [sampleAccepted 0])) (by decide +kernel) (by decide +kernel)
    rw [decide_eq_true_eq] at hlog
    refine ⟨l, hrun, hlog.1, hlog.2, hindexed sampleState l sampleState_initial hrun ?_ ?_⟩
    · rw [hlog.1]
      decide
    · rw [hlog.1]
      decide

def surrogateState : State := { sampleState with height := 0xD800 }

def sampleAcceptedAt (height : ℤ) : SvcRequest :=
  { sampleAccepted 0 with requestHeight := height, expirationHeight := height + 5 }

/-- Two requests at surrogate heights: they have one key, so that both are pending while only the
second is active. -/
theorem surrogate_heights_collide : surrogateState.Initial ∧
      SameBinding (sampleAcceptedAt 0xD800) (sampleAcceptedAt 0xD801) ∧
      getRequestKey sampleEnv (sampleAcceptedAt 0xD800) =
        getRequestKey sampleEnv (sampleAcceptedAt 0xD801) ∧
      getResponseKey (sampleAcceptedAt 0xD800).response =
        getResponseKey (sampleAcceptedAt 0xD801).response ∧
      ∃ l, Relation.ReflTransGen (LoggedStep sampleEnv) ⟨surrogateState, []⟩ l ∧
        Log.accepted l.log = [sampleAcceptedAt 0xD800, sampleAcceptedAt 0xD801] ∧
        l.state.requestsByExpiration.values = [sampleAcceptedAt 0xD800, sampleAcceptedAt 0xD801] ∧
        l.state.activeRequests.values = [sampleAcceptedAt 0xD801] := by
  refine ⟨{ sampleState_initial with height := by decide }, ⟨rfl, rfl, rfl, rfl⟩,
    by decide +kernel, by decide +kernel, ?_⟩
  obtain ⟨l, hrun, hlog⟩ := @loggedRun_of_returns sampleEnv ⟨surrogateState, []⟩
    (sampleRequestOps ++ [.endBlock 1, .deliver (.request sampleRequest)])
    (fun l => decide (accepted l.log = [sampleAcceptedAt 0xD800, sampleAcceptedAt 0xD801] ∧
      l.state.requestsByExpiration.values = [sampleAcceptedAt 0xD800, sampleAcceptedAt 0xD801] ∧
      l.state.activeRequests.values = [sampleAcceptedAt 0xD801]))
    (by decide +kernel) (by decide +kernel)
  exact ⟨l, hrun, by simpa using hlog⟩

end
end Irishub.Service
