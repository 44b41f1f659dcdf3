import Irishub.Rand.Keeper
import Mathlib.Data.List.Nodup

/-!
# Rand: every request has an entry of its own

A run of the module is recorded with the requests that were accepted and the blocks
that were begun. `Kept` says of such a history that no two requests share an id, that
a request is in the queue until its height and that it has its result afterwards.

The id of a request is the hash of its height and its consumer. Two requests of one
consumer in one block therefore have one id, and the later one takes the entry or the
result of the other; and an interval that makes the height wrap puts the request at a
height that is past. Without these two the history is kept (`requests_kept_iff`).

`Sound` holds of every history: what is in the tables comes from an accepted request.
`Kept` is then proved step by step as long as the ids are different.
-/

namespace Irishub.Rand
open Lib Store List State

section

/-- What happens on the chain: a request message in the transaction `txBytes`, and the beginning
of a block. -/
inductive Op
  | request (txBytes : Bytes) (msg : MsgRequestRand)
  | beginBlock (lastBlockHash : Bytes) (timestamp : ℤ)
  deriving DecidableEq

/-- A request that was accepted, with the interval of its message. -/
structure Accepted where
  request : Request
  blockInterval : UInt64
  deriving DecidableEq

/-- Header of a block that was begun. -/
structure Block where
  height : ℕ
  lastBlockHash : Bytes
  timestamp : ℤ
  deriving DecidableEq

/-- State with the requests and the blocks that led to it. -/
structure History where
  state : State
  accepted : List Accepted
  blocks : List Block
  deriving DecidableEq

variable (sha256 : Bytes → Bytes)

namespace Accepted
variable (r : Accepted)

def id : Bytes := generateRequestID sha256 r.request

def dest : ℤ := destHeight r.request.height r.blockInterval

end Accepted

/-- An operation; a failed message leaves no state. -/
def Op.run (l : History) : Op → Outcome History
  | .request txBytes msg => do
    msg.validateBasic
    return { l with
      state := l.state.handleMsgRequestRand sha256 txBytes msg
      accepted := l.accepted ++
        [⟨⟨l.state.height, msg.consumer, sha256 txBytes⟩, msg.blockInterval⟩] }
  | .beginBlock lastBlockHash timestamp => do
    let state ← { l.state with height := l.state.height + 1 }.beginBlocker sha256 lastBlockHash
      timestamp
    return { l with
      state := state
      blocks := l.blocks ++ [⟨l.state.height + 1, lastBlockHash, timestamp⟩] }

def History.start (height : ℕ) : History := ⟨⟨.empty, .empty, height⟩, [], []⟩

def IsResult (l : History) (r : Accepted) (rand : Rand) : Prop :=
  ∃ block ∈ l.blocks, (block.height : ℤ) = r.dest + 1 ∧
    rand.requestTxHash = r.request.txHash ∧ rand.height = r.dest ∧
    getRand sha256 block.lastBlockHash block.timestamp r.request.consumer = .ok rand.value

/-- Every accepted request has its own id, its own entry in the queue until its height and its own
result afterwards. -/
structure Kept (l : History) : Prop where
  ids : (l.accepted.map (Accepted.id sha256)).Nodup
  pending : ∀ r ∈ l.accepted, (l.state.height : ℤ) ≤ r.dest →
    l.state.randRequestQueue.get (toLex (r.dest, r.id sha256)) = some r.request
  result : ∀ r ∈ l.accepted, r.dest < l.state.height →
    ∃ rand, l.state.getRand (r.id sha256) = .ok rand ∧ IsResult sha256 l r rand

/-- No consumer requests twice in a block, and no height wraps. -/
structure Separate (l : History) : Prop where
  consumers : (l.accepted.map (fun r => (r.request.height, r.request.consumer))).Nodup
  fits : ∀ r ∈ l.accepted, r.request.height + r.blockInterval.toNat < 2 ^ 63

/-- What is in the tables comes from an accepted request. -/
structure Sound (l : History) : Prop where
  height : ∀ r ∈ l.accepted, r.request.height ≤ l.state.height
  queue : ∀ k request, l.state.randRequestQueue.get k = some request →
    ∃ r ∈ l.accepted, r.request = request ∧ k = toLex (r.dest, r.id sha256)
  rands : ∀ reqID rand, l.state.rands.get reqID = some rand →
    ∃ r ∈ l.accepted, r.id sha256 = reqID ∧ (r.request.height : ℤ) ≤ r.dest

end

lemma le_destHeight_iff {height : ℕ} (hheight : height < 2 ^ 63) (blockInterval : UInt64) :
    (height : ℤ) ≤ destHeight height blockInterval ↔ height + blockInterval.toNat < 2 ^ 63 := by
  have hbound := blockInterval.toNat_lt
  unfold destHeight int64OfUint64
  rw [Int.bmod_def]
  split_ifs <;> omega

section
variable {sha256 : Bytes → Bytes}

lemma id_eq_iff (hsha : Function.Injective sha256) {r r' : Accepted}
    (hr : r.request.height < 2 ^ 63) (hr' : r'.request.height < 2 ^ 63) :
    r.id sha256 = r'.id sha256 ↔
      r.request.height = r'.request.height ∧ r.request.consumer = r'.request.consumer := by
  constructor
  · intro h
    obtain ⟨hheight, hconsumer⟩ := append_inj (hsha h) (by simp)
    exact ⟨Bytes.bigEndian_injOn (by omega) (by omega) hheight, hconsumer⟩
  · rintro ⟨hheight, hconsumer⟩
    rw [Accepted.id, Accepted.id, generateRequestID, generateRequestID, hheight, hconsumer]

lemma nodup_ids_iff (hsha : Function.Injective sha256) {rs : List Accepted}
    (hrs : ∀ r ∈ rs, r.request.height < 2 ^ 63) : (rs.map (Accepted.id sha256)).Nodup ↔
      (rs.map (fun r => (r.request.height, r.request.consumer))).Nodup := by
  rw [Nodup, Nodup, pairwise_map, pairwise_map]
  refine Pairwise.iff_of_mem (fun hr hr' => ?_)
  rw [Ne, Ne, id_eq_iff hsha (hrs _ hr) (hrs _ hr'), Prod.mk.injEq]

end

section
variable {sha256 : Bytes → Bytes} {s s' : State} {h : ℤ} {hash : Bytes} {time : ℤ}

lemma mem_iterateRandRequestQueueByHeight {request : Request} :
    request ∈ s.iterateRandRequestQueueByHeight h ↔
      ∃ reqID, s.randRequestQueue.get (toLex (h, reqID)) = some request := by
  unfold iterateRandRequestQueueByHeight
  simp only [mem_map, mem_filter, decide_eq_true_eq, Prod.exists, exists_eq_right]
  constructor
  · rintro ⟨k, hmem, rfl⟩
    exact ⟨(ofLex k).2, mem_entries.mp hmem⟩
  · rintro ⟨reqID, hget⟩
    exact ⟨toLex (h, reqID), mem_entries.mpr hget, rfl⟩

lemma getRand_returns (sha256 : Bytes → Bytes) (hash initiator : Bytes) (htime : time ≠ 0) :
    ∃ value, getRand sha256 hash time initiator = .ok value := by simp [getRand, bigDiv, htime]

/-- What the loop of `BeginBlocker` leaves in the tables. -/
structure Handled (sha256 : Bytes → Bytes) (s s' : State) (h : ℤ) (hash : Bytes) (time : ℤ)
    (requests : List Request) : Prop where
  height : s'.height = s.height
  kept : ∀ k, (∀ request ∈ requests, k ≠ toLex (h, generateRequestID sha256 request)) →
    s'.randRequestQueue.get k = s.randRequestQueue.get k
  dequeued : ∀ k request, s'.randRequestQueue.get k = some request →
    s.randRequestQueue.get k = some request
  other : ∀ reqID, (∀ request ∈ requests, reqID ≠ generateRequestID sha256 request) →
    s'.rands.get reqID = s.rands.get reqID
  result : (requests.map (generateRequestID sha256)).Nodup → ∀ request ∈ requests,
    ∃ value, getRand sha256 hash time request.consumer = .ok value ∧
      s'.rands.get (generateRequestID sha256 request) = some ⟨request.txHash, h, value⟩

lemma handled_of_foldlM {requests : List Request}
    (hrun : requests.foldlM (fun s request => s.handleRequest sha256 h hash time request) s =
      .ok s') : Handled sha256 s s' h hash time requests := by
  induction requests generalizing s with
  | nil =>
    cases hrun
    exact ⟨rfl, fun _ _ => rfl, fun _ _ hk => hk, fun _ _ => rfl, by simp⟩
  | cons request requests ih =>
    rw [foldlM_cons] at hrun
    obtain ⟨s1, hfirst, hrun⟩ := bind_ok.mp hrun
    obtain ⟨value, hvalue, hs1⟩ := bind_ok.mp hfirst
    cases hs1
    have hrest := ih hrun
    refine ⟨hrest.height, ?_, ?_, ?_, ?_⟩
    · intro k hk
      rw [forall_mem_cons] at hk
      rw [hrest.kept k hk.2]
      exact get_delete_ne _ hk.1
    · intro k request' hget
      have hget' := hrest.dequeued k request' hget
      simp only [dequeueRandRequest, setRand, get_delete] at hget'
      split_ifs at hget'
      exact hget'
    · intro reqID hid
      rw [forall_mem_cons] at hid
      rw [hrest.other reqID hid.2]
      exact get_set_ne _ _ hid.1
    · intro hnodup request' hmem
      rw [map_cons, nodup_cons] at hnodup
      rcases mem_cons.mp hmem with rfl | hmem
      · -- the later requests have other ids
        refine ⟨value, hvalue, ?_⟩
        rw [hrest.other _ (fun request' hmem' heq =>
          hnodup.1 (mem_map.mpr ⟨request', hmem', heq.symm⟩))]
        exact get_set_self _ _ _
      · exact hrest.result hnodup.2 request' hmem

lemma beginBlocker_returns (s : State) (htime : time ≠ 0) :
    ∃ s', s.beginBlocker sha256 hash time = .ok s' := by
  have hloop : Sat NoFault (fun _ => True) (s.beginBlocker sha256 hash time) := by
    refine Sat.foldlM _ _ trivial (fun request _ s1 _ => ?_)
    obtain ⟨value, hvalue⟩ := getRand_returns sha256 hash request.consumer htime
    unfold handleRequest
    rw [hvalue]
    trivial
  obtain ⟨s', hs', -⟩ := hloop.exists_ok
  exact ⟨s', hs'⟩

end

section
variable {sha256 : Bytes → Bytes} {l l' : History} {txBytes lastBlockHash : Bytes}
  {msg : MsgRequestRand} {timestamp : ℤ}

lemma request_ok (h : Op.run sha256 l (.request txBytes msg) = .ok l') :
    ∃ r : Accepted, r.request.height = l.state.height ∧
      l' = { l with
        state := l.state.enqueueRandRequest r.dest (r.id sha256) r.request
        accepted := l.accepted ++ [r] } := by
  obtain ⟨_, _, h⟩ := bind_ok.mp h
  cases h
  exact ⟨⟨⟨l.state.height, msg.consumer, sha256 txBytes⟩, msg.blockInterval⟩, rfl, rfl⟩

lemma beginBlock_ok (h : Op.run sha256 l (.beginBlock lastBlockHash timestamp) = .ok l') :
    ∃ s', Handled sha256 { l.state with height := l.state.height + 1 } s' l.state.height
        lastBlockHash timestamp (l.state.iterateRandRequestQueueByHeight l.state.height) ∧
      l' = { l with
        state := s'
        blocks := l.blocks ++ [⟨l.state.height + 1, lastBlockHash, timestamp⟩] } := by
  obtain ⟨s', hs', h⟩ := bind_ok.mp h
  cases h
  have hlast : ((l.state.height + 1 : ℕ) : ℤ) - 1 = l.state.height := by
    push_cast
    ring
  simp only [beginBlocker, hlast] at hs'
  exact ⟨s', handled_of_foldlM hs', rfl⟩

lemma Sound.start (height : ℕ) : Sound sha256 (History.start height) := by
  constructor <;> simp [History.start]

lemma Sound.due (hsound : Sound sha256 l) {request : Request}
    (hmem : request ∈ l.state.iterateRandRequestQueueByHeight l.state.height) :
    ∃ r ∈ l.accepted, r.request = request ∧ r.dest = l.state.height := by
  obtain ⟨reqID, hget⟩ := mem_iterateRandRequestQueueByHeight.mp hmem
  obtain ⟨r, hr, hreq, hkey⟩ := hsound.queue _ _ hget
  exact ⟨r, hr, hreq, (congrArg (fun k => (ofLex k).1) hkey).symm⟩

lemma Sound.run {op : Op} (hsound : Sound sha256 l) (h : op.run sha256 l = .ok l') :
    Sound sha256 l' := by
  cases op with
  | request txBytes msg =>
    obtain ⟨r, hr, rfl⟩ := request_ok h
    refine ⟨?_, ?_, ?_⟩
    · simp only [forall_mem_append, forall_mem_singleton]
      exact ⟨hsound.height, hr.le⟩
    · refine forall_set (fun k request hk => ?_) ⟨r, by simp, rfl, rfl⟩
      obtain ⟨r', hr', hrest⟩ := hsound.queue k request hk
      exact ⟨r', mem_append_left _ hr', hrest⟩
    · intro reqID rand hget
      obtain ⟨r', hr', hrest⟩ := hsound.rands reqID rand hget
      exact ⟨r', mem_append_left _ hr', hrest⟩
  | beginBlock lastBlockHash timestamp =>
    obtain ⟨s', hhandled, rfl⟩ := beginBlock_ok h
    refine ⟨?_, ?_, ?_⟩
    · intro r hr
      rw [hhandled.height]
      exact (hsound.height r hr).trans (Nat.le_succ _)
    · exact fun k request hget => hsound.queue k request (hhandled.dequeued k request hget)
    · intro reqID rand hget
      by_cases hdue : ∀ request ∈ l.state.iterateRandRequestQueueByHeight l.state.height,
          reqID ≠ generateRequestID sha256 request
      · rw [hhandled.other reqID hdue] at hget
        exact hsound.rands reqID rand hget
      · push Not at hdue
        obtain ⟨request, hmem, rfl⟩ := hdue
        obtain ⟨r, hr, rfl, hdest⟩ := hsound.due hmem
        exact ⟨r, hr, rfl, by rw [hdest]; exact_mod_cast hsound.height r hr⟩

lemma Sound.nodup_due (hsound : Sound sha256 l) :
    ((l.state.iterateRandRequestQueueByHeight l.state.height).map
      (generateRequestID sha256)).Nodup := by
  unfold iterateRandRequestQueueByHeight
  rw [map_map]
  refine Nodup.map_on ?_ ((Nodup.of_map _ (nodup_keys _)).filter _)
  intro e he e' he' hid
  simp only [mem_filter, decide_eq_true_eq] at he he'
  have hget := mem_entries.mp he.1
  have hget' := mem_entries.mp he'.1
  obtain ⟨r, _, hreq, hkey⟩ := hsound.queue _ _ hget
  obtain ⟨r', _, hreq', hkey'⟩ := hsound.queue _ _ hget'
  have hdest : r.dest = r'.dest := by
    rw [hkey] at he
    rw [hkey'] at he'
    exact he.2.trans he'.2.symm
  have hids : r.id sha256 = r'.id sha256 := by
    rw [Accepted.id, Accepted.id, hreq, hreq']
    exact hid
  have hsame : e.1 = e'.1 := by rw [hkey, hkey', hdest, hids]
  rw [hsame, hget'] at hget
  exact Prod.ext hsame (Option.some.inj hget).symm

lemma Kept.request (hkept : Kept sha256 l)
    (h : Op.run sha256 l (.request txBytes msg) = .ok l') (hheight : l.state.height < 2 ^ 63)
    (hids : (l'.accepted.map (Accepted.id sha256)).Nodup)
    (hfits : ∀ r ∈ l'.accepted, r.request.height + r.blockInterval.toNat < 2 ^ 63) :
    Kept sha256 l' := by
  obtain ⟨r, hr, rfl⟩ := request_ok h
  rw [forall_mem_append, forall_mem_singleton] at hfits
  have hdest : (l.state.height : ℤ) ≤ r.dest := by
    rw [← hr] at hheight ⊢
    exact (le_destHeight_iff hheight r.blockInterval).mpr hfits.2
  refine ⟨hids, ?_, ?_⟩
  · rw [forall_mem_append, forall_mem_singleton]
    constructor
    · intro r' hr' hpending
      have hne : r'.id sha256 ≠ r.id sha256 := by
        rw [map_append, nodup_append] at hids
        exact hids.2.2 _ (mem_map_of_mem hr') _ (by simp)
      have hkey : toLex (r'.dest, r'.id sha256) ≠ toLex (r.dest, r.id sha256) :=
        fun heq => hne (congrArg (fun k => (ofLex k).2) heq)
      exact (get_set_ne _ _ hkey).trans (hkept.pending r' hr' hpending)
    · exact fun _ => get_set_self _ _ _
  · rw [forall_mem_append, forall_mem_singleton]
    exact ⟨hkept.result, fun hlt => absurd hdest (not_le.mpr hlt)⟩

lemma Kept.beginBlock (hsound : Sound sha256 l)
    (hkept : Kept sha256 l) (h : Op.run sha256 l (.beginBlock lastBlockHash timestamp) = .ok l') :
    Kept sha256 l' := by
  obtain ⟨s', hhandled, rfl⟩ := beginBlock_ok h
  refine ⟨hkept.ids, ?_, ?_⟩
  · intro r hr hpending
    rw [hhandled.height] at hpending
    have hlater : (l.state.height : ℤ) < r.dest := by
      push_cast at hpending
      omega
    rw [hhandled.kept _ (fun request _ heq => hlater.ne' (congrArg (fun k => (ofLex k).1) heq))]
    exact hkept.pending r hr hlater.le
  · intro r hr hpast
    rw [hhandled.height] at hpast
    rcases lt_or_eq_of_le (show r.dest ≤ l.state.height by push_cast at hpast; omega)
      with hbefore | hnow
    · -- no request that is due has this id
      obtain ⟨rand, hrand, block, hblock, hresult⟩ := hkept.result r hr hbefore
      refine ⟨rand, ?_, block, mem_append_left _ hblock, hresult⟩
      rw [State.getRand, hhandled.other, ← State.getRand]
      · exact hrand
      · intro request hmem heq
        obtain ⟨r', hr', rfl, hdest⟩ := hsound.due hmem
        have hsame : r = r' := inj_on_of_nodup_map hkept.ids hr hr' heq
        rw [hsame, hdest] at hbefore
        exact lt_irrefl _ hbefore
    · have hmem : r.request ∈ l.state.iterateRandRequestQueueByHeight l.state.height := by
        refine mem_iterateRandRequestQueueByHeight.mpr ⟨r.id sha256, ?_⟩
        rw [← hnow]
        exact hkept.pending r hr hnow.ge
      obtain ⟨value, hvalue, hget⟩ := hhandled.result hsound.nodup_due _ hmem
      refine ⟨⟨r.request.txHash, l.state.height, value⟩, found_ok.mpr hget,
        ⟨l.state.height + 1, lastBlockHash, timestamp⟩, by simp, ?_, rfl, hnow.symm, hvalue⟩
      rw [hnow]
      push_cast
      rfl

end

section
variable {sha256 : Bytes → Bytes} {l l' : History}

/-- What holds of every history: the tables are sound, and the requests are kept if their ids
differ and no height wraps. -/
structure Course (sha256 : Bytes → Bytes) (l : History) : Prop where
  sound : Sound sha256 l
  kept : l.state.height < 2 ^ 63 → (l.accepted.map (Accepted.id sha256)).Nodup →
    (∀ r ∈ l.accepted, r.request.height + r.blockInterval.toNat < 2 ^ 63) → Kept sha256 l

lemma Course.run {op : Op} (hcourse : Course sha256 l) (h : op.run sha256 l = .ok l') :
    Course sha256 l' := by
  refine ⟨hcourse.sound.run h, fun hheight hids hfits => ?_⟩
  cases op with
  | request txBytes msg =>
    obtain ⟨r, _, hl'⟩ := request_ok h
    have hsame : l'.state.height = l.state.height := by rw [hl']; rfl
    have hlog : l'.accepted = l.accepted ++ [r] := by rw [hl']
    have hids' := hids
    have hfits' := hfits
    rw [hlog, map_append, nodup_append] at hids'
    rw [hlog, forall_mem_append] at hfits'
    rw [hsame] at hheight
    exact (hcourse.kept hheight hids'.1 hfits'.1).request h hheight hids hfits
  | beginBlock lastBlockHash timestamp =>
    obtain ⟨s', hhandled, hl'⟩ := beginBlock_ok h
    have hnext : l'.state.height = l.state.height + 1 := by rw [hl']; exact hhandled.height
    have hlog : l'.accepted = l.accepted := by rw [hl']
    rw [hlog] at hids hfits
    exact Kept.beginBlock hcourse.sound (hcourse.kept (by omega) hids hfits) h

lemma course_of_run {ops : List Op} {height : ℕ}
    (hrun : ops.foldlM (Op.run sha256) (History.start height) = .ok l) : Course sha256 l := by
  refine invariant_of_foldlM (fun l l' op hl h => hl.run h) hrun ⟨Sound.start height, ?_⟩
  intro _ _ _
  constructor <;> simp [History.start]

/-- In a kept history no height wraps: a request at a past height gets no result. -/
lemma Kept.fits (hsound : Sound sha256 l) (hkept : Kept sha256 l)
    (hheight : l.state.height < 2 ^ 63) {r : Accepted} (hr : r ∈ l.accepted) :
    r.request.height + r.blockInterval.toNat < 2 ^ 63 := by
  have hle := hsound.height r hr
  rw [← le_destHeight_iff (hle.trans_lt hheight)]
  by_contra hpast
  obtain ⟨rand, hrand, _⟩ := hkept.result r hr
    (lt_of_lt_of_le (not_le.mp hpast) (by exact_mod_cast hle))
  obtain ⟨r', hr', hid, hdest⟩ := hsound.rands _ _ (found_ok.mp hrand)
  rw [inj_on_of_nodup_map hkept.ids hr' hr hid] at hdest
  exact hpast hdest

/-- After any run of requests and blocks the accepted requests are kept exactly when no consumer
requested twice in one block and no height wrapped. -/
theorem requests_kept_iff {ops : List Op} {height : ℕ} (hsha : Function.Injective sha256)
    (hrun : ops.foldlM (Op.run sha256) (History.start height) = .ok l)
    (hheight : l.state.height < 2 ^ 63) : Kept sha256 l ↔ Separate l := by
  have hcourse := course_of_run hrun
  have hheights : ∀ r ∈ l.accepted, r.request.height < 2 ^ 63 :=
    fun r hr => (hcourse.sound.height r hr).trans_lt hheight
  constructor
  · intro hkept
    exact ⟨(nodup_ids_iff hsha hheights).mp hkept.ids,
      fun r hr => hkept.fits hcourse.sound hheight hr⟩
  · intro hseparate
    exact hcourse.kept hheight ((nodup_ids_iff hsha hheights).mpr hseparate.consumers)
      hseparate.fits

end

section
variable {sha256 : Bytes → Bytes} {l l' : History} {r : Accepted}

/-- After the request, chains that reach a block above its height have taken it from the queue and
stored a result. -/
structure Answered (sha256 : Bytes → Bytes) (l : History) (r : Accepted) : Prop where
  reached : ∃ (ops : List Op) (l' : History), ops.foldlM (Op.run sha256) l = .ok l' ∧
    r.dest < l'.state.height
  answered : ∀ (ops : List Op) (l' : History), ops.foldlM (Op.run sha256) l = .ok l' →
    l'.state.height < 2 ^ 64 → r.dest < l'.state.height →
    l'.state.randRequestQueue.get (toLex (r.dest, r.id sha256)) = none ∧
      ∃ rand, l'.state.getRand (r.id sha256) = .ok rand

lemma destHeight_lt (height : ℕ) (blockInterval : UInt64) :
    destHeight height blockInterval < 2 ^ 63 := by
  unfold destHeight
  have hlt := Int.bmod_lt (x := (height : ℤ) + int64OfUint64 blockInterval.toNat)
    (m := 2 ^ 64) (by norm_num)
  omega

/-- The request stays in the queue, whatever comes after it. -/
def Stranded (sha256 : Bytes → Bytes) (l : History) (r : Accepted) : Prop :=
  ∀ (ops : List Op) (l' : History), ops.foldlM (Op.run sha256) l = .ok l' →
    l'.state.randRequestQueue.has (toLex (r.dest, r.id sha256)) = true

/-- No block reads the queue of a height that is past. -/
lemma stranded_of_past (hpast : r.dest < l.state.height)
    (hhas : l.state.randRequestQueue.has (toLex (r.dest, r.id sha256)) = true) :
    Stranded sha256 l r := by
  intro ops l' hrun
  refine (invariant_of_foldlM (I := fun l => r.dest < l.state.height ∧
    l.state.randRequestQueue.has (toLex (r.dest, r.id sha256)) = true)
    (fun l1 l2 op hl1 hop => ?_) hrun ⟨hpast, hhas⟩).2
  obtain ⟨hlater, hqueued⟩ := hl1
  obtain ⟨request, hget⟩ := Option.isSome_iff_exists.mp hqueued
  cases op with
  | request txBytes msg =>
    obtain ⟨r', _, rfl⟩ := request_ok hop
    exact ⟨hlater, Option.isSome_iff_exists.mpr (exists_get_set ⟨request, hget⟩ _ _)⟩
  | beginBlock lastBlockHash timestamp =>
    obtain ⟨s', hhandled, rfl⟩ := beginBlock_ok hop
    refine ⟨?_, ?_⟩
    · rw [hhandled.height]
      push_cast
      omega
    · rw [Store.has, hhandled.kept _
        (fun _ _ heq => hlater.ne (congrArg (fun k => (ofLex k).1) heq))]
      exact hqueued

/-- Loop of `BeginBlocker` answers what it finds, and forgets no result. -/
lemma answers_of_foldlM {s s' : State} {h : ℤ} {hash : Bytes} {time : ℤ} {requests : List Request}
    (hrun : requests.foldlM (fun s request => s.handleRequest sha256 h hash time request) s =
      .ok s') :
    (∀ reqID, (∃ rand, s.rands.get reqID = some rand) → ∃ rand, s'.rands.get reqID = some rand) ∧
      ∀ request ∈ requests,
        s'.randRequestQueue.get (toLex (h, generateRequestID sha256 request)) = none ∧
          ∃ rand, s'.rands.get (generateRequestID sha256 request) = some rand := by
  induction requests generalizing s with
  | nil =>
    cases hrun
    exact ⟨fun _ hrand => hrand, by simp⟩
  | cons request requests ih =>
    rw [foldlM_cons] at hrun
    obtain ⟨s1, hfirst, hrun⟩ := bind_ok.mp hrun
    obtain ⟨value, _, hs1⟩ := bind_ok.mp hfirst
    cases hs1
    obtain ⟨hkept, hanswered⟩ := ih hrun
    refine ⟨fun reqID hrand => hkept reqID (exists_get_set hrand _ _), ?_⟩
    rw [forall_mem_cons]
    refine ⟨⟨?_, hkept _ ⟨_, get_set_self _ _ _⟩⟩, hanswered⟩
    by_contra hsome
    obtain ⟨request', hget⟩ := Option.ne_none_iff_exists'.mp hsome
    have hget' := (handled_of_foldlM hrun).dequeued _ _ hget
    exact Option.some_ne_none _ (hget'.symm.trans (get_delete_self _ _))

/-- What holds of a request in every later state: it waits until its height, and is answered
afterwards. -/
structure Awaits (sha256 : Bytes → Bytes) (r : Accepted) (l : History) : Prop where
  since : r.request.height ≤ l.state.height
  pending : (l.state.height : ℤ) ≤ r.dest → ∃ request,
    l.state.randRequestQueue.get (toLex (r.dest, r.id sha256)) = some request ∧
      generateRequestID sha256 request = r.id sha256
  answered : r.dest < l.state.height → l.state.height < 2 ^ 64 →
    l.state.randRequestQueue.get (toLex (r.dest, r.id sha256)) = none ∧
      ∃ rand, l.state.rands.get (r.id sha256) = some rand

lemma Awaits.request {txBytes : Bytes} {msg : MsgRequestRand} (hsha : Function.Injective sha256)
    (hdest : (r.request.height : ℤ) ≤ r.dest) (hawaits : Awaits sha256 r l)
    (h : Op.run sha256 l (.request txBytes msg) = .ok l') : Awaits sha256 r l' := by
  obtain ⟨r', hr', rfl⟩ := request_ok h
  refine ⟨hawaits.since, fun hpending => ?_, fun hpast hbound => ?_⟩
  · by_cases hkey : toLex (r.dest, r.id sha256) = toLex (r'.dest, r'.id sha256)
    · refine ⟨r'.request, ?_, (congrArg (fun k => (ofLex k).2) hkey).symm⟩
      rw [hkey]
      exact get_set_self _ _ _
    · obtain ⟨request, hget, hid⟩ := hawaits.pending hpending
      exact ⟨request, (get_set_ne _ _ hkey).trans hget, hid⟩
  · obtain ⟨hnone, hrand⟩ := hawaits.answered hpast hbound
    refine ⟨?_, hrand⟩
    -- a later request has another id, since its height is another one
    have hkey : toLex (r.dest, r.id sha256) ≠ toLex (r'.dest, r'.id sha256) := by
      intro hkey
      have hid : r.id sha256 = r'.id sha256 := congrArg (fun k => (ofLex k).2) hkey
      obtain ⟨hheight, -⟩ := append_inj (hsha hid) (by simp)
      have hsince := hawaits.since
      have hbound' : l.state.height < 2 ^ 64 := hbound
      have hsame : r.request.height = r'.request.height :=
        Bytes.bigEndian_injOn (by omega) (by omega) hheight
      have hpast' : r.dest < l.state.height := hpast
      omega
    exact (get_set_ne _ _ hkey).trans hnone

lemma Awaits.beginBlock {lastBlockHash : Bytes} {timestamp : ℤ} (hawaits : Awaits sha256 r l)
    (h : Op.run sha256 l (.beginBlock lastBlockHash timestamp) = .ok l') : Awaits sha256 r l' := by
  obtain ⟨s', hhandled, hl'⟩ := beginBlock_ok h
  obtain ⟨s'', hs', heq⟩ := bind_ok.mp h
  cases heq
  cases hl'
  have hlast : ((l.state.height + 1 : ℕ) : ℤ) - 1 = l.state.height := by
    push_cast
    ring
  simp only [beginBlocker, hlast] at hs'
  obtain ⟨hkept, hanswered⟩ := answers_of_foldlM hs'
  have hsince := hawaits.since
  refine ⟨?_, fun hpending => ?_, fun hpast hbound => ?_⟩
  · rw [hhandled.height]
    exact hsince.trans (Nat.le_succ _)
  · rw [hhandled.height] at hpending
    have hlater : (l.state.height : ℤ) < r.dest := by
      push_cast at hpending
      omega
    obtain ⟨request, hget, hid⟩ := hawaits.pending hlater.le
    refine ⟨request, ?_, hid⟩
    rw [hhandled.kept _ (fun _ _ heq => hlater.ne' (congrArg (fun k => (ofLex k).1) heq))]
    exact hget
  · rw [hhandled.height] at hpast hbound
    have hle : r.dest ≤ l.state.height := by
      push_cast at hpast
      omega
    rcases lt_or_eq_of_le hle with hbefore | hnow
    · obtain ⟨hnone, hrand⟩ := hawaits.answered hbefore (by simp only at hbound; omega)
      refine ⟨?_, hkept _ hrand⟩
      by_contra hsome
      obtain ⟨request, hget⟩ := Option.ne_none_iff_exists'.mp hsome
      exact Option.some_ne_none _ ((hhandled.dequeued _ _ hget).symm.trans hnone)
    · -- the block finds the request
      obtain ⟨request, hget, hid⟩ := hawaits.pending hnow.ge
      have hmem : request ∈ l.state.iterateRandRequestQueueByHeight l.state.height := by
        refine mem_iterateRandRequestQueueByHeight.mpr ⟨r.id sha256, ?_⟩
        rw [← hnow]
        exact hget
      have hfound := hanswered request hmem
      rw [hid, ← hnow] at hfound
      exact hfound

lemma exists_run_of_height (sha256 : Bytes → Bytes) (n : ℕ) (l : History) :
    ∃ (ops : List Op) (l' : History), ops.foldlM (Op.run sha256) l = .ok l' ∧
      l'.state.height = l.state.height + n := by
  induction n generalizing l with
  | zero => exact ⟨[], l, rfl, rfl⟩
  | succ n ih =>
    have hblock : ∃ s', beginBlocker sha256 { l.state with height := l.state.height + 1 } []
        1 = .ok s' := beginBlocker_returns _ (by decide)
    obtain ⟨s', hs'⟩ := hblock
    have hstep : Op.run sha256 l (.beginBlock [] 1) =
        .ok { l with state := s', blocks := l.blocks ++ [⟨l.state.height + 1, [], 1⟩] } := by
      simp only [Op.run, hs', ok_bind, pure_ok]
    obtain ⟨s'', hhandled, heq⟩ := beginBlock_ok hstep
    cases heq
    obtain ⟨ops, l', hrun, hheight⟩ := ih
      { l with state := s', blocks := l.blocks ++ [⟨l.state.height + 1, [], 1⟩] }
    refine ⟨.beginBlock [] 1 :: ops, l', ?_, ?_⟩
    · rw [foldlM_cons, hstep, ok_bind, hrun]
    · rw [hheight, hhandled.height]
      simp only
      omega

/-- A request is put at the height of the next block or above exactly when its interval is positive
and the height does not wrap; it is answered exactly when the height does not wrap, and stays in the
queue for ever exactly when it does. -/
theorem request_answered_iff (hsha : Function.Injective sha256) {txBytes : Bytes}
    {msg : MsgRequestRand} (h : Op.run sha256 l (.request txBytes msg) = .ok l')
    (hheight : l.state.height < 2 ^ 63) :
    ((l.state.height + 1 : ℤ) ≤ destHeight l.state.height msg.blockInterval ↔
        0 < msg.blockInterval.toNat ∧ l.state.height + msg.blockInterval.toNat < 2 ^ 63) ∧
      (Answered sha256 l' ⟨⟨l.state.height, msg.consumer, sha256 txBytes⟩, msg.blockInterval⟩ ↔
        l.state.height + msg.blockInterval.toNat < 2 ^ 63) ∧
      (Stranded sha256 l' ⟨⟨l.state.height, msg.consumer, sha256 txBytes⟩, msg.blockInterval⟩ ↔
        2 ^ 63 ≤ l.state.height + msg.blockInterval.toNat) := by
  have hfits := le_destHeight_iff hheight msg.blockInterval
  have hrange : (l.state.height + 1 : ℤ) ≤ destHeight l.state.height msg.blockInterval ↔
      0 < msg.blockInterval.toNat ∧ l.state.height + msg.blockInterval.toNat < 2 ^ 63 := by
    have hbound := msg.blockInterval.toNat_lt
    unfold destHeight int64OfUint64
    rw [Int.bmod_def]
    split_ifs <;> omega
  obtain ⟨_, _, hl'⟩ := bind_ok.mp h
  cases hl'
  have hwraps : 2 ^ 63 ≤ l.state.height + msg.blockInterval.toNat ↔
      destHeight l.state.height msg.blockInterval < l.state.height := by
    rw [← not_lt, ← hfits, not_le]
  rw [hwraps, ← hfits]
  have hanswered : (l.state.height : ℤ) ≤ destHeight l.state.height msg.blockInterval →
      Answered sha256 { l with
        state := l.state.handleMsgRequestRand sha256 txBytes msg
        accepted := l.accepted ++
          [⟨⟨l.state.height, msg.consumer, sha256 txBytes⟩, msg.blockInterval⟩] }
        ⟨⟨l.state.height, msg.consumer, sha256 txBytes⟩, msg.blockInterval⟩ := by
    intro hdest
    refine ⟨?_, fun ops l2 hrun hbound hpast => ?_⟩
    · obtain ⟨ops, l2, hrun, hheight2⟩ := exists_run_of_height sha256
        (destHeight l.state.height msg.blockInterval + 1).toNat _
      refine ⟨ops, l2, hrun, ?_⟩
      rw [hheight2, Accepted.dest]
      push_cast
      omega
    · have hawaits : Awaits sha256
          ⟨⟨l.state.height, msg.consumer, sha256 txBytes⟩, msg.blockInterval⟩ l2 := by
        refine invariant_of_foldlM (fun l1 l2 op hl1 hop => ?_) hrun
          ⟨le_rfl, fun _ => ⟨_, get_set_self _ _ _, rfl⟩, fun hlt =>
            absurd hdest (not_le.mpr hlt)⟩
        cases op with
        | request txBytes msg => exact hl1.request hsha hdest hop
        | beginBlock lastBlockHash timestamp => exact hl1.beginBlock hop
      obtain ⟨hnone, rand, hrand⟩ := hawaits.answered hpast hbound
      exact ⟨hnone, rand, found_ok.mpr hrand⟩
  refine ⟨by rwa [hfits], ⟨fun hall => ?_, hanswered⟩, ⟨fun hstranded => ?_, fun hpast => ?_⟩⟩
  · by_contra hpast
    have hnone := (hall.answered [] _ rfl (by
      simp only [handleMsgRequestRand, requestRand, enqueueRandRequest]
      omega) (not_le.mp hpast)).1
    exact Option.some_ne_none _ ((get_set_self _ _ _).symm.trans hnone)
  · -- the block after its height has taken the request from the queue
    by_contra hdest
    rw [not_lt] at hdest
    obtain ⟨ops, l2, hrun, hheight2⟩ := exists_run_of_height sha256
      (destHeight l.state.height msg.blockInterval + 1 - l.state.height).toNat
      { l with
        state := l.state.handleMsgRequestRand sha256 txBytes msg
        accepted := l.accepted ++
          [⟨⟨l.state.height, msg.consumer, sha256 txBytes⟩, msg.blockInterval⟩] }
    have hnext : (l2.state.height : ℤ) = destHeight l.state.height msg.blockInterval + 1 := by
      have hsame : l2.state.height = l.state.height +
        (destHeight l.state.height msg.blockInterval + 1 - l.state.height).toNat := hheight2
      omega
    have hlt := destHeight_lt l.state.height msg.blockInterval
    have hnone := ((hanswered hdest).answered ops l2 hrun (by omega) (by
      rw [hnext]
      exact lt_add_one _)).1
    have hqueued := hstranded ops l2 hrun
    rw [Store.has, hnone] at hqueued
    cases hqueued
  · exact stranded_of_past hpast
      (Option.isSome_iff_exists.mpr ⟨_, get_set_self _ _ _⟩)

/-- An interval of `2 ^ 64 - 2` puts the request of block 5 at height 3, where no block finds it. -/
theorem request_stranded :
    ∃ l', Op.run id (History.start 5) (.request [1] ⟨[7], 18446744073709551614⟩) = .ok l' ∧
      l'.state.randRequestQueue.has (toLex (3, generateRequestID id ⟨5, [7], [1]⟩)) = true ∧
      Stranded id l' ⟨⟨5, [7], [1]⟩, 18446744073709551614⟩ ∧
      ¬Answered id l' ⟨⟨5, [7], [1]⟩, 18446744073709551614⟩ := by
  refine ⟨_, rfl, by decide +kernel, stranded_of_past (by decide +kernel) (by decide +kernel),
    fun hanswered => ?_⟩
  have hnone := (hanswered.answered [] _ rfl (by decide +kernel) (by decide +kernel)).1
  exact absurd hnone (by decide +kernel)

theorem request_answered_iff_ten :
    ∃ l', Op.run id (History.start 5) (.request [1] ⟨[7], 10⟩) = .ok l' ∧
      Answered id l' ⟨⟨5, [7], [1]⟩, 10⟩ := by
  refine ⟨_, rfl, ?_⟩
  exact (@request_answered_iff id (History.start 5) _ (fun _ _ h => h) [1] ⟨[7], 10⟩ rfl
    (by decide)).2.1.mpr (by decide)

end

/-- Two transactions of one consumer in one block: only the second request is in the queue. -/
theorem second_request_overwrites :
    ∃ l, [Op.request [1] ⟨[7], 10⟩, Op.request [2] ⟨[7], 10⟩].foldlM (Op.run id)
        (History.start 1) = .ok l ∧
      l.accepted.length = 2 ∧ l.state.randRequestQueue.values = [⟨1, [7], [2]⟩] ∧ ¬ Kept id l := by
  refine ⟨_, rfl, rfl, by decide +kernel, fun hkept => ?_⟩
  exact absurd hkept.ids (by decide +kernel)

def sampleRun : List Op :=
  [.request (.ofNat 1) ⟨.ofNat 7, 0⟩, .request (.ofNat 2) ⟨.ofNat 8, 1⟩,
    .beginBlock (.ofNat 3) 1000, .request (.ofNat 4) ⟨.ofNat 7, 5⟩, .beginBlock (.ofNat 5) 1005]

/-- Both requests whose height is past have their results. -/
theorem sampleRun_kept :
    ∃ l, sampleRun.foldlM (Op.run id) (History.start 1) = .ok l ∧ l.state.height = 3 ∧
      l.accepted.length = 3 ∧ Kept id l := by
  obtain ⟨l, hl, hsample⟩ := of_returns
    (p := fun l : History => decide (l.state.height = 3 ∧ l.accepted =
      [⟨⟨1, [7], [1]⟩, 0⟩, ⟨⟨1, [8], [2]⟩, 1⟩, ⟨⟨2, [7], [4]⟩, 5⟩]))
    (x := sampleRun.foldlM (Op.run id) (History.start 1)) (by decide +kernel)
  obtain ⟨hheight, haccepted⟩ := of_decide_eq_true hsample
  refine ⟨l, hl, hheight, by rw [haccepted]; rfl, ?_⟩
  refine (requests_kept_iff (fun _ _ h => h) hl (by omega)).mpr ⟨?_, ?_⟩
  · rw [haccepted]
    decide
  · rw [haccepted]
    decide

end Irishub.Rand
