import Irishub.Htlc.Keeper

/-!
# HTLC: the life cycle of a contract

A contract is opened once under its hash lock, and then either claimed with the
secret of that lock, or expired at its height and refunded. `Tables` is the
invariant that ties the two tables of the module together: the expiration queue
holds exactly the open contracts, each under its expire height. With it the loop
of `BeginBlocker` touches open contracts only, so that a claimed or refunded
contract never changes again.

Payments are measured in the bank: `Op.Moves` says which balances an operation
changes, and `paidOut` adds up what the claims and refunds under a hash lock
change over a run. A contract that is settled has been paid out once, its amount
from the locked coins to its receiver or back to its sender; any other has not.

**Results**

* `htlc_life_cycle`: the life cycle of every contract over every run.
-/

namespace Irishub.Htlc
open Lib Store Option State
variable {sha256 : Bytes → Bytes} {s s' : State}

section
variable {hashLock : Bytes}

lemma State.sendCoins_eq_ok {fromAddr toAddr : Address} {amt : Coins} :
    s.sendCoins fromAddr toAddr amt = .ok s' ↔
      ∃ bank, s.bank.sendCoins fromAddr toAddr amt = .ok bank ∧ s' = { s with bank := bank } := by
  simp only [sendCoins, bind_ok, pure_eq_ok]
  exact exists_congr (fun _ => and_congr_right (fun _ => eq_comm))

lemma create_ok {msg : MsgCreateHTLC} (h : (Op.create msg).run sha256 s = .ok s') :
    msg.validateBasic = .ok () ∧ s.htlcs.get msg.hashLock = none ∧
      ∃ bank, s.bank.sendCoins msg.sender htlcLockedCoinsAccAddr msg.amount = .ok bank ∧
        s' = { s with
          bank := bank
          htlcs := s.htlcs.set msg.hashLock (msg.htlc s.height)
          expireQueue := s.expireQueue.set
            (toLex ((msg.htlc s.height).expireHeight, msg.hashLock)) msg.hashLock } := by
  simp only [Op.run, handleMsgCreateHTLC, createHTLC, bind_ok, require_ok,
    sendCoins_eq_ok, pure_eq_ok] at h
  obtain ⟨_, hvalid, _, hfree, _, ⟨bank, hsend, rfl⟩, rfl⟩ := h
  refine ⟨hvalid, ?_, bank, hsend, rfl⟩
  simpa [hasHashLock, has] using hfree

lemma claim_ok {msg : MsgClaimHTLC} (h : (Op.claim msg).run sha256 s = .ok s') :
    ∃ htlc bank, s.htlcs.get msg.hashLock = some htlc ∧ htlc.state = .OPEN ∧
      getHashLock sha256 msg.secret htlc.timestamp = msg.hashLock ∧
      s.bank.sendCoins htlcLockedCoinsAccAddr htlc.toAddr htlc.amount = .ok bank ∧
      s' = { s with
        bank := bank
        htlcs := s.htlcs.set msg.hashLock { htlc with secret := msg.secret, state := .COMPLETED }
        expireQueue := s.expireQueue.delete (toLex (htlc.expireHeight, msg.hashLock)) } := by
  simp only [Op.run, handleMsgClaimHTLC, claimHTLC, getHTLC, bind_ok, found_ok, require_ok,
    decide_eq_true_eq, sendCoins_eq_ok, pure_eq_ok] at h
  obtain ⟨_, _, htlc, hget, _, hopen, _, hhash, _, ⟨bank, hsend, rfl⟩, rfl⟩ := h
  exact ⟨htlc, bank, hget, hopen, hhash, hsend, rfl⟩

lemma refund_eq_ok (h : s.refundHTLC hashLock = .ok s') :
    ∃ htlc bank, s.htlcs.get hashLock = some htlc ∧ htlc.state = .EXPIRED ∧
      s.bank.sendCoins htlcLockedCoinsAccAddr htlc.sender htlc.amount = .ok bank ∧
      s' = { s with
        bank := bank
        htlcs := s.htlcs.set hashLock { htlc with state := .REFUNDED } } := by
  simp only [refundHTLC, getHTLC, bind_ok, found_ok, require_ok,
    decide_eq_true_eq, sendCoins_eq_ok, pure_eq_ok] at h
  obtain ⟨htlc, hget, _, hexpired, _, ⟨bank, hsend, rfl⟩, rfl⟩ := h
  exact ⟨htlc, bank, hget, hexpired, hsend, rfl⟩

lemma run_refund {msg : MsgRefundHTLC} (h : (Op.refund msg).run sha256 s = .ok s') :
    s.refundHTLC msg.hashLock = .ok s' := by
  obtain ⟨_, _, h⟩ := bind_ok.mp h
  exact h

/-- A message of the bank. -/
lemma withBank_ok {c : Outcome Bank} (h : (do return { s with bank := ← c }) = .ok s') :
    ∃ bank, c = .ok bank ∧ s' = { s with bank := bank } := by
  obtain ⟨bank, hbank, h⟩ := bind_ok.mp h
  cases h
  exact ⟨bank, hbank, rfl⟩

end

def State.Queued (s : State) (height : ℕ) (hashLock : Bytes) : Prop :=
  s.expireQueue.has (toLex (height, hashLock)) = true

lemma foldl_expireHTLC_frame (s : State) (locks : List Bytes) :
    (locks.foldl expireHTLC s).bank = s.bank ∧ (locks.foldl expireHTLC s).height = s.height := by
  induction locks generalizing s with
  | nil => exact ⟨rfl, rfl⟩
  | cons l locks ih => exact ih (s.expireHTLC l)

lemma foldl_expireHTLC_htlcs (s : State) (locks : List Bytes) (l : Bytes) :
    (locks.foldl expireHTLC s).htlcs.get l =
      if l ∈ locks then some { (s.htlcs.get l).getD .zero with state := .EXPIRED }
      else s.htlcs.get l := by
  induction locks generalizing s with
  | nil => simp
  | cons l' locks ih =>
    have hget : (s.expireHTLC l').htlcs.get l = if l = l' then
        some { (s.htlcs.get l').getD .zero with state := .EXPIRED } else s.htlcs.get l := by
      show (s.htlcs.set l' _).get l = _
      rw [get_set]
      split_ifs <;> rfl
    rw [List.foldl_cons, ih, hget]
    by_cases hl : l = l'
    · subst hl
      simp
    · simp [hl]

lemma foldl_expireHTLC_expireQueue (s : State) (locks : List Bytes) (k : ℕ ×ₗ Bytes) :
    (locks.foldl expireHTLC s).expireQueue.get k =
      if (ofLex k).1 = s.height ∧ (ofLex k).2 ∈ locks then none else s.expireQueue.get k := by
  induction locks generalizing s with
  | nil => simp
  | cons l locks ih =>
    have hget : (s.expireHTLC l).expireQueue.get k =
        if k = toLex (s.height, l) then none else s.expireQueue.get k := by
      show (s.expireQueue.delete (toLex (s.height, l))).get k = _
      rw [get_delete]
      split_ifs <;> rfl
    have hkey : k = toLex (s.height, l) ↔ (ofLex k).1 = s.height ∧ (ofLex k).2 = l := by
      constructor
      · rintro rfl
        exact ⟨rfl, rfl⟩
      · rintro ⟨hheight, hlock⟩
        rw [← hheight, ← hlock]
        rfl
    have hheight : (s.expireHTLC l).height = s.height := rfl
    rw [List.foldl_cons, ih, hheight, hget]
    simp only [hkey, List.mem_cons]
    by_cases hh : (ofLex k).1 = s.height <;> by_cases hl : (ofLex k).2 = l <;> simp [hh, hl]

section
variable {height : ℕ} {l hashLock : Bytes}

/-- Every queue entry holds the hash lock of its key, and the queue holds the open contracts. -/
structure Tables (sha256 : Bytes → Bytes) (s : State) : Prop where
  entry : ∀ k l, s.expireQueue.get k = some l → l = (ofLex k).2
  queued : ∀ height l, s.Queued height l ↔
    ∃ htlc, s.htlcs.get l = some htlc ∧ htlc.state = .OPEN ∧ htlc.expireHeight = height
  secret : ∀ l htlc, s.htlcs.get l = some htlc → htlc.state = .COMPLETED →
    getHashLock sha256 htlc.secret htlc.timestamp = l

/-- Chain has no contract yet. -/
structure State.Genesis (s : State) : Prop where
  htlcs : s.htlcs = Store.empty
  expireQueue : s.expireQueue = Store.empty

lemma State.Genesis.tables (h : s.Genesis) : Tables sha256 s where
  entry k l hk := by simp [h.expireQueue] at hk
  queued height l := by simp [Queued, has, h.expireQueue, h.htlcs]
  secret l htlc hget := by simp [h.htlcs] at hget

lemma Tables.of_eq (h : Tables sha256 s) (hhtlcs : s'.htlcs = s.htlcs)
    (hqueue : s'.expireQueue = s.expireQueue) : Tables sha256 s' where
  entry := by rw [hqueue]; exact h.entry
  queued height l := by
    rw [Queued, hqueue, hhtlcs]
    exact h.queued height l
  secret := by rw [hhtlcs]; exact h.secret

lemma Tables.mem_iterate (h : Tables sha256 s) :
    l ∈ s.iterateHTLCExpireQueueByHeight height ↔ s.Queued height l := by
  simp only [iterateHTLCExpireQueueByHeight, List.mem_map, List.mem_filter,
    decide_eq_true_eq, Prod.exists, exists_eq_right, mem_entries]
  constructor
  · rintro ⟨k, hk, hheight⟩
    have hkey : k = toLex (height, l) := by
      rw [h.entry k l hk, ← hheight]
      rfl
    rw [hkey] at hk
    simp [Queued, has, hk]
  · intro hqueued
    obtain ⟨l', hl'⟩ := isSome_iff_exists.mp hqueued
    have hl : l' = l := h.entry _ _ hl'
    exact ⟨_, hl ▸ hl', rfl⟩

lemma toLex_eq_iff {height' : ℕ} {l' : Bytes} :
    toLex (height, l) = toLex (height', l') ↔ height = height' ∧ l = l' := by
  rw [toLex.injective.eq_iff, Prod.mk.injEq]

lemma Tables.create {msg : MsgCreateHTLC} (h : Tables sha256 s)
    (hrun : (Op.create msg).run sha256 s = .ok s') : Tables sha256 s' := by
  obtain ⟨_, hfree, bank, _, rfl⟩ := create_ok hrun
  refine ⟨forall_set h.entry rfl, fun height l => ?_, forall_set h.secret ?_⟩
  · simp only [Queued, has, get_set, toLex_eq_iff]
    by_cases hl : l = msg.hashLock
    · -- the hash lock was free, hence it was not queued at any height
      have hnone : s.expireQueue.get (toLex (height, msg.hashLock)) = none := by
        by_contra hsome
        have hqueued : s.Queued height msg.hashLock := isSome_iff_ne_none.mpr hsome
        obtain ⟨htlc, hget, _⟩ := (h.queued _ _).mp hqueued
        rw [hfree] at hget
        cases hget
      subst hl
      by_cases hheight : height = (msg.htlc s.height).expireHeight
      · subst hheight
        simp [MsgCreateHTLC.htlc]
      · have hne : ¬(msg.htlc s.height).expireHeight = height := fun heq => hheight heq.symm
        simp [hheight, hne, hnone]
    · simp only [hl, and_false, if_false]
      exact h.queued height l
  · intro hcompleted
    cases hcompleted

lemma Tables.not_queued (h : Tables sha256 s) {htlc : HTLC}
    (hget : s.htlcs.get l = some htlc) (hstate : htlc.state ≠ .OPEN) : ¬s.Queued height l := by
  intro hqueued
  obtain ⟨htlc', hget', hopen, _⟩ := (h.queued height l).mp hqueued
  cases hget.symm.trans hget'
  exact hstate hopen

lemma Tables.claim {msg : MsgClaimHTLC} (h : Tables sha256 s)
    (hrun : (Op.claim msg).run sha256 s = .ok s') : Tables sha256 s' := by
  obtain ⟨htlc, bank, hget, hopen, hhash, _, rfl⟩ := claim_ok hrun
  refine ⟨forall_delete h.entry _, fun height l => ?_, forall_set h.secret (fun _ => hhash)⟩
  simp only [Queued, has, get_delete, get_set, toLex_eq_iff]
  by_cases hl : l = msg.hashLock
  · subst hl
    by_cases hheight : height = htlc.expireHeight
    · simp [hheight]
    · have hnone : ¬s.Queued height msg.hashLock := by
        intro hqueued
        obtain ⟨htlc', hget', _, heq⟩ := (h.queued height _).mp hqueued
        cases hget.symm.trans hget'
        exact hheight heq.symm
      simpa [hheight, Queued, has] using hnone
  · simp only [hl, and_false, if_false]
    exact h.queued height l

lemma Tables.refund (h : Tables sha256 s)
    (hrun : s.refundHTLC hashLock = .ok s') : Tables sha256 s' := by
  obtain ⟨htlc, bank, hget, hexpired, _, rfl⟩ := refund_eq_ok hrun
  refine ⟨h.entry, fun height l => ?_, forall_set h.secret (fun hcompleted => by cases hcompleted)⟩
  simp only [get_set]
  by_cases hl : l = hashLock
  · subst hl
    have hnone : ¬s.Queued height l := h.not_queued hget (by rw [hexpired]; simp)
    simpa [Queued] using hnone
  · simp only [hl, if_false]
    exact h.queued height l

lemma beginBlocker_htlcs (h : Tables sha256 s) (l : Bytes) :
    s.beginBlocker.htlcs.get l = (s.htlcs.get l).map (fun htlc =>
      if htlc.state = .OPEN ∧ htlc.expireHeight = s.height then { htlc with state := .EXPIRED }
      else htlc) := by
  rw [beginBlocker, foldl_expireHTLC_htlcs]
  split_ifs with hmem
  · obtain ⟨htlc, hget, hopen, hheight⟩ := (h.queued _ _).mp (h.mem_iterate.mp hmem)
    simp [hget, hopen, hheight]
  · cases hget : s.htlcs.get l with
    | none => rfl
    | some htlc =>
      have hnot : ¬(htlc.state = .OPEN ∧ htlc.expireHeight = s.height) := fun hcond =>
        hmem (h.mem_iterate.mpr ((h.queued _ _).mpr ⟨htlc, hget, hcond⟩))
      simp [hnot]

lemma Tables.beginBlocker (h : Tables sha256 s) : Tables sha256 s.beginBlocker := by
  refine ⟨fun k l hk => ?_, fun height l => ?_, fun l htlc hget hcompleted => ?_⟩
  · rw [State.beginBlocker, foldl_expireHTLC_expireQueue] at hk
    split_ifs at hk
    exact h.entry k l hk
  · have hqueue : s.beginBlocker.Queued height l ↔ s.Queued height l ∧ height ≠ s.height := by
      rw [State.Queued, Store.has, State.beginBlocker, foldl_expireHTLC_expireQueue]
      by_cases hheight : height = s.height
      · subst hheight
        by_cases hq : s.Queued s.height l
        · rw [if_pos ⟨rfl, h.mem_iterate.mpr hq⟩]
          simp
        · rw [if_neg (fun hmem => hq (h.mem_iterate.mp hmem.2))]
          simpa [Queued, has] using hq
      · rw [if_neg (fun hmem => hheight hmem.1)]
        simp [hheight, Queued, has]
    rw [hqueue, h.queued, beginBlocker_htlcs h]
    cases hget : s.htlcs.get l with
    | none => simp
    | some htlc =>
      by_cases hcond : htlc.state = .OPEN ∧ htlc.expireHeight = s.height
      · obtain ⟨hopen, hexpire⟩ := hcond
        simp only [some.injEq, exists_eq_left', map_some, hopen, hexpire, and_self, if_true]
        constructor
        · rintro ⟨⟨_, hheight⟩, hne⟩
          exact absurd hheight.symm hne
        · rintro ⟨hfalse, _⟩
          cases hfalse
      · simp only [some.injEq, exists_eq_left', map_some, hcond, if_false]
        constructor
        · exact fun hleft => hleft.1
        · intro hright
          refine ⟨hright, fun heq => hcond ⟨hright.1, by rw [hright.2, heq]⟩⟩
  · rw [beginBlocker_htlcs h] at hget
    obtain ⟨old, hold, rfl⟩ := map_eq_some_iff.mp hget
    split_ifs at hcompleted ⊢ with hcond
    exact h.secret l old hold hcompleted

lemma Tables.run {op : Op} (h : Tables sha256 s) (hrun : op.run sha256 s = .ok s') :
    Tables sha256 s' := by
  cases op with
  | create msg => exact h.create hrun
  | claim msg => exact h.claim hrun
  | refund msg => exact h.refund (run_refund hrun)
  | send msg | burn msg =>
    obtain ⟨bank, _, rfl⟩ := withBank_ok hrun
    exact h.of_eq rfl rfl
  | beginBlock =>
    cases hrun
    have htables : Tables sha256 { s with height := s.height + 1 } := h.of_eq rfl rfl
    exact htables.beginBlocker

end

def State.Ahead (s : State) : Prop :=
  ∀ l htlc, s.htlcs.get l = some htlc → htlc.state = .OPEN →
    s.height < htlc.expireHeight ∧ htlc.expireHeight ≤ s.height + maxTimeLock

lemma MsgCreateHTLC.expireHeight_bounds {msg : MsgCreateHTLC}
    (hvalid : msg.validateBasic = .ok ()) {blockHeight : ℕ} (hheight : blockHeight < 2 ^ 63) :
    blockHeight < (msg.htlc blockHeight).expireHeight ∧
      (msg.htlc blockHeight).expireHeight ≤ blockHeight + maxTimeLock := by
  simp only [MsgCreateHTLC.validateBasic, bind_ok, require_ok, decide_eq_true_eq] at hvalid
  obtain ⟨_, _, _, _, _, _, hmin, hmax⟩ := hvalid
  unfold minTimeLock at hmin
  unfold maxTimeLock at hmax ⊢
  simp only [MsgCreateHTLC.htlc]
  constructor <;> omega

lemma State.Ahead.run {op : Op} (h : s.Ahead) (htables : Tables sha256 s)
    (hheight : s'.height < 2 ^ 63) (hrun : op.run sha256 s = .ok s') : s'.Ahead := by
  cases op with
  | create msg =>
    obtain ⟨hvalid, _, bank, _, rfl⟩ := create_ok hrun
    exact forall_set h (fun _ => msg.expireHeight_bounds hvalid hheight)
  | claim msg =>
    obtain ⟨htlc, bank, _, _, _, _, rfl⟩ := claim_ok hrun
    exact forall_set h (fun hopen => by cases hopen)
  | refund msg =>
    obtain ⟨htlc, bank, _, _, _, rfl⟩ := refund_eq_ok (run_refund hrun)
    exact forall_set h (fun hopen => by cases hopen)
  | send msg | burn msg =>
    obtain ⟨bank, _, rfl⟩ := withBank_ok hrun
    exact h
  | beginBlock =>
    cases hrun
    intro l htlc hget hopen
    have htables' : Tables sha256 { s with height := s.height + 1 } := htables.of_eq rfl rfl
    rw [beginBlocker_htlcs htables'] at hget
    obtain ⟨old, hold, rfl⟩ := map_eq_some_iff.mp hget
    rw [beginBlocker, (foldl_expireHTLC_frame _ _).2]
    -- a contract that is still open does not expire at this height, and it was ahead before
    split_ifs at hopen ⊢ with hcond
    obtain ⟨hbefore, hmax⟩ := h l old hold hopen
    have hne : old.expireHeight ≠ s.height + 1 := fun heq => hcond ⟨hopen, heq⟩
    simp only
    constructor <;> omega

section
variable {op : Op} {l : Bytes}

def HTLC.Settled (htlc : HTLC) : Prop := htlc.state = .COMPLETED ∨ htlc.state = .REFUNDED

lemma settled_unchanged (h : Tables sha256 s) (hrun : op.run sha256 s = .ok s')
    {htlc : HTLC} (hget : s.htlcs.get l = some htlc) (hsettled : htlc.Settled) :
    s'.htlcs.get l = some htlc := by
  have hopen : htlc.state ≠ .OPEN := by rcases hsettled with hs | hs <;> simp [hs]
  have hexpired : htlc.state ≠ .EXPIRED := by rcases hsettled with hs | hs <;> simp [hs]
  cases op with
  | create msg =>
    obtain ⟨_, hfree, bank, _, rfl⟩ := create_ok hrun
    rw [get_set_ne _ _ (fun heq => by rw [heq, hfree] at hget; cases hget), hget]
  | claim msg =>
    obtain ⟨htlc', bank, hget', hopen', _, _, rfl⟩ := claim_ok hrun
    rw [get_set_ne _ _ (fun heq => ?_), hget]
    rw [heq, hget', some.injEq] at hget
    exact hopen (hget ▸ hopen')
  | refund msg =>
    obtain ⟨htlc', bank, hget', hexpired', _, rfl⟩ := refund_eq_ok (run_refund hrun)
    rw [get_set_ne _ _ (fun heq => ?_), hget]
    rw [heq, hget', some.injEq] at hget
    exact hexpired (hget ▸ hexpired')
  | send msg | burn msg =>
    obtain ⟨bank, _, rfl⟩ := withBank_ok hrun
    exact hget
  | beginBlock =>
    cases hrun
    have htables : Tables sha256 { s with height := s.height + 1 } := h.of_eq rfl rfl
    rw [beginBlocker_htlcs htables]
    simp [hget, hopen]

def Op.paysOut (l : Bytes) : Op → Bool
  | .claim msg => msg.hashLock = l
  | .refund msg => msg.hashLock = l
  | _ => false

end

section
variable {ops : List Op} {l : Bytes} {htlc : HTLC}

lemma Tables.runs (h : Tables sha256 s) (hrun : ops.foldlM (Op.run sha256) s = .ok s') :
    Tables sha256 s' :=
  invariant_of_foldlM (I := Tables sha256) (fun _ _ _ ht h' => ht.run h') hrun h

lemma height_le_of_run {op : Op} (hrun : op.run sha256 s = .ok s') : s.height ≤ s'.height := by
  cases op with
  | create msg =>
    obtain ⟨_, _, bank, _, rfl⟩ := create_ok hrun
    exact le_rfl
  | claim msg =>
    obtain ⟨htlc, bank, _, _, _, _, rfl⟩ := claim_ok hrun
    exact le_rfl
  | refund msg =>
    obtain ⟨htlc, bank, _, _, _, rfl⟩ := refund_eq_ok (run_refund hrun)
    exact le_rfl
  | send msg | burn msg =>
    obtain ⟨bank, _, rfl⟩ := withBank_ok hrun
    exact le_rfl
  | beginBlock =>
    cases hrun
    rw [beginBlocker, (foldl_expireHTLC_frame _ _).2]
    exact Nat.le_succ _

lemma State.Ahead.runs (h : s.Ahead) (htables : Tables sha256 s) (hheight : s'.height < 2 ^ 63)
    (hrun : ops.foldlM (Op.run sha256) s = .ok s') : s'.Ahead := by
  have hall : Tables sha256 s' ∧ (s'.height < 2 ^ 63 → s'.Ahead) := by
    refine invariant_of_foldlM (I := fun t => Tables sha256 t ∧ (t.height < 2 ^ 63 → t.Ahead))
      (fun t t' op ht h' => ⟨ht.1.run h', fun hlt => ?_⟩) hrun ⟨htables, fun _ => h⟩
    exact (ht.2 ((height_le_of_run h').trans_lt hlt)).run ht.1 hlt h'
  exact hall.2 hheight

lemma settled_unchanged_runs (h : Tables sha256 s) (hrun : ops.foldlM (Op.run sha256) s = .ok s')
    (hget : s.htlcs.get l = some htlc) (hsettled : htlc.Settled) : s'.htlcs.get l = some htlc := by
  have hall : Tables sha256 s' ∧ s'.htlcs.get l = some htlc :=
    invariant_of_foldlM (I := fun t => Tables sha256 t ∧ t.htlcs.get l = some htlc)
      (fun t t' op ht h' => ⟨ht.1.run h', settled_unchanged ht.1 h' ht.2 hsettled⟩) hrun ⟨h, hget⟩
  exact hall.2

/-- Change of the balances by a transfer of `amt`. -/
def transferred (fromAddr toAddr : Address) (amt : Coins) (addr : Address) (d : String) : ℤ :=
  (if addr = toAddr then Coins.denomSum d amt else 0) -
    if addr = fromAddr then Coins.denomSum d amt else 0

lemma balance_of_sendCoins {b b' : Bank} {fromAddr toAddr : Address} {amt : Coins}
    (h : b.sendCoins fromAddr toAddr amt = .ok b') (addr : Address) (d : String) :
    b'.balance addr d = b.balance addr d + transferred fromAddr toAddr amt addr d := by
  rw [Bank.balance_sendCoins h, transferred]
  ring

/-- Balances after an operation: a new contract locks its amount, a claim pays the amount of an
open contract to its receiver, a refund that of an expired one to its sender, and the beginning
of a block moves nothing. -/
def Op.Moves (s s' : State) : Op → Prop
  | .create msg => ∀ addr d, s'.bank.balance addr d = s.bank.balance addr d +
      transferred msg.sender htlcLockedCoinsAccAddr msg.amount addr d
  | .claim msg => ∃ htlc, s.htlcs.get msg.hashLock = some htlc ∧ htlc.state = .OPEN ∧
      ∀ addr d, s'.bank.balance addr d = s.bank.balance addr d +
        transferred htlcLockedCoinsAccAddr htlc.toAddr htlc.amount addr d
  | .refund msg => ∃ htlc, s.htlcs.get msg.hashLock = some htlc ∧ htlc.state = .EXPIRED ∧
      ∀ addr d, s'.bank.balance addr d = s.bank.balance addr d +
        transferred htlcLockedCoinsAccAddr htlc.sender htlc.amount addr d
  | .send msg => s.bank.deliverSend msg = .ok s'.bank
  | .burn msg => s.bank.deliverBurn msg = .ok s'.bank
  | .beginBlock => s'.bank = s.bank

lemma Op.moves_of_run {op : Op} (hrun : op.run sha256 s = .ok s') : op.Moves s s' := by
  cases op with
  | create msg =>
    obtain ⟨_, _, bank, hsend, rfl⟩ := create_ok hrun
    exact balance_of_sendCoins hsend
  | claim msg =>
    obtain ⟨htlc, bank, hget, hopen, _, hsend, rfl⟩ := claim_ok hrun
    exact ⟨htlc, hget, hopen, balance_of_sendCoins hsend⟩
  | refund msg =>
    obtain ⟨htlc, bank, hget, hexpired, hsend, rfl⟩ := refund_eq_ok (run_refund hrun)
    exact ⟨htlc, hget, hexpired, balance_of_sendCoins hsend⟩
  | send msg | burn msg =>
    obtain ⟨bank, hbank, rfl⟩ := withBank_ok hrun
    exact hbank
  | beginBlock =>
    cases hrun
    exact (foldl_expireHTLC_frame _ _).1

/-- Who is paid by a settled contract. -/
def HTLC.payee (htlc : HTLC) : Address :=
  if htlc.state = .COMPLETED then htlc.toAddr else htlc.sender

/-- Number of claims and refunds under `l`. -/
def payouts (l : Bytes) (ops : List Op) : ℕ := ops.countP (Op.paysOut l)

/-- What the claims and refunds under `l` in a run add to the balance of `addr`: the balance after
each of them minus the balance before it. -/
def paidOut (sha256 : Bytes → Bytes) (l : Bytes) (addr : Address) (d : String) :
    List Op → State → ℤ
  | [], _ => 0
  | op :: ops, s =>
    match op.run sha256 s with
    | .error _ => 0
    | .ok s' =>
      (if op.paysOut l then s'.bank.balance addr d - s.bank.balance addr d else 0) +
        paidOut sha256 l addr d ops s'

lemma paidOut_eq_zero (hnone : payouts l ops = 0) (addr : Address) (d : String) :
    paidOut sha256 l addr d ops s = 0 := by
  induction ops generalizing s with
  | nil => rfl
  | cons op ops ih =>
    rw [payouts, List.countP_cons, Nat.add_eq_zero_iff] at hnone
    obtain ⟨hrest, hop⟩ := hnone
    have hop : op.paysOut l = false := by simpa using hop
    simp only [paidOut, hop]
    split
    · rfl
    · simp [ih hrest]

/-- A claim or refund settles a contract that was not settled, and pays it. -/
lemma paid_of_paysOut {op : Op} (hpays : op.paysOut l = true) (hrun : op.run sha256 s = .ok s') :
    (∀ htlc, s.htlcs.get l = some htlc → ¬htlc.Settled) ∧
      ∃ htlc, s'.htlcs.get l = some htlc ∧ htlc.Settled ∧
        ∀ addr d, s'.bank.balance addr d - s.bank.balance addr d =
          transferred htlcLockedCoinsAccAddr htlc.payee htlc.amount addr d := by
  cases op with
  | claim msg =>
    obtain ⟨htlc, bank, hget, hopen, _, hsend, rfl⟩ := claim_ok hrun
    obtain rfl : msg.hashLock = l := by simpa [Op.paysOut] using hpays
    refine ⟨fun htlc' hget' => ?_, _, get_set_self _ _ _, Or.inl rfl, fun addr d => ?_⟩
    · cases hget.symm.trans hget'
      simp [HTLC.Settled, hopen]
    · rw [balance_of_sendCoins hsend, add_sub_cancel_left]
      rfl
  | refund msg =>
    obtain ⟨htlc, bank, hget, hexpired, hsend, rfl⟩ := refund_eq_ok (run_refund hrun)
    obtain rfl : msg.hashLock = l := by simpa [Op.paysOut] using hpays
    refine ⟨fun htlc' hget' => ?_, _, get_set_self _ _ _, Or.inr rfl, fun addr d => ?_⟩
    · cases hget.symm.trans hget'
      simp [HTLC.Settled, hexpired]
    · rw [balance_of_sendCoins hsend, add_sub_cancel_left]
      rfl
  | create msg | send msg | burn msg | beginBlock => simp [Op.paysOut] at hpays

lemma not_settled_of_run {op : Op} (h : Tables sha256 s) (hpays : op.paysOut l = false)
    (hrun : op.run sha256 s = .ok s')
    (hnot : ∀ htlc, s.htlcs.get l = some htlc → ¬htlc.Settled) :
    ∀ htlc, s'.htlcs.get l = some htlc → ¬htlc.Settled := by
  intro htlc hget
  cases op with
  | create msg =>
    obtain ⟨_, _, bank, _, rfl⟩ := create_ok hrun
    rw [get_set] at hget
    split_ifs at hget with heq
    · obtain rfl := some.inj hget
      simp [HTLC.Settled, MsgCreateHTLC.htlc]
    · exact hnot htlc hget
  | claim msg =>
    obtain ⟨_, bank, _, _, _, _, rfl⟩ := claim_ok hrun
    have hne : l ≠ msg.hashLock := fun heq => by simp [Op.paysOut, heq] at hpays
    exact hnot htlc (by rwa [get_set_ne _ _ hne] at hget)
  | refund msg =>
    obtain ⟨_, bank, _, _, _, rfl⟩ := refund_eq_ok (run_refund hrun)
    have hne : l ≠ msg.hashLock := fun heq => by simp [Op.paysOut, heq] at hpays
    exact hnot htlc (by rwa [get_set_ne _ _ hne] at hget)
  | send msg | burn msg =>
    obtain ⟨bank, _, rfl⟩ := withBank_ok hrun
    exact hnot htlc hget
  | beginBlock =>
    cases hrun
    have htables : Tables sha256 { s with height := s.height + 1 } := h.of_eq rfl rfl
    rw [beginBlocker_htlcs htables] at hget
    obtain ⟨old, hold, rfl⟩ := map_eq_some_iff.mp hget
    split_ifs with hcond
    · simp [HTLC.Settled]
    · exact hnot old hold

lemma payouts_eq_zero (h : Tables sha256 s) (hrun : ops.foldlM (Op.run sha256) s = .ok s')
    (hget : s.htlcs.get l = some htlc) (hsettled : htlc.Settled) : payouts l ops = 0 := by
  induction ops generalizing s with
  | nil => rfl
  | cons op ops ih =>
    rw [List.foldlM_cons] at hrun
    obtain ⟨s1, h1, hrun⟩ := bind_ok.mp hrun
    have hpays : op.paysOut l = false := by
      by_contra hpays
      rw [Bool.not_eq_false] at hpays
      exact (paid_of_paysOut hpays h1).1 htlc hget hsettled
    have hrest := ih (h.run h1) hrun (settled_unchanged h h1 hget hsettled)
    simpa [payouts, hpays] using hrest

/-- Payments under `l` in a run: a settled contract has been paid out once, and any other not at
all. -/
structure PaidOnce (sha256 : Bytes → Bytes) (s s' : State) (ops : List Op) (l : Bytes) : Prop where
  settled : ∀ htlc, s'.htlcs.get l = some htlc → htlc.Settled →
    payouts l ops = 1 ∧ ∀ addr d, paidOut sha256 l addr d ops s =
      transferred htlcLockedCoinsAccAddr htlc.payee htlc.amount addr d
  unsettled : (∀ htlc, s'.htlcs.get l = some htlc → ¬htlc.Settled) →
    payouts l ops = 0 ∧ ∀ addr d, paidOut sha256 l addr d ops s = 0

lemma PaidOnce.of_run (h : Tables sha256 s) (hrun : ops.foldlM (Op.run sha256) s = .ok s')
    (hnot : ∀ htlc, s.htlcs.get l = some htlc → ¬htlc.Settled) :
    PaidOnce sha256 s s' ops l := by
  induction ops generalizing s with
  | nil =>
    cases hrun
    exact ⟨fun htlc hget hsettled => absurd hsettled (hnot htlc hget),
      fun _ => ⟨rfl, fun _ _ => rfl⟩⟩
  | cons op ops ih =>
    rw [List.foldlM_cons] at hrun
    obtain ⟨s1, h1, hrun⟩ := bind_ok.mp hrun
    cases hpays : op.paysOut l with
    | false =>
      have hrest := ih (h.run h1) hrun (not_settled_of_run h hpays h1 hnot)
      have hcount : payouts l (op :: ops) = payouts l ops := by
        simp [payouts, hpays]
      have hpaid : ∀ addr d, paidOut sha256 l addr d (op :: ops) s =
          paidOut sha256 l addr d ops s1 := by simp [paidOut, h1, hpays]
      refine ⟨?_, ?_⟩
      · simpa only [hcount, hpaid] using hrest.settled
      · simpa only [hcount, hpaid] using hrest.unsettled
    | true =>
      -- the first payment settles the contract, and a settled contract is not paid again
      obtain ⟨htlc, hget, hsettled, hmoved⟩ := (paid_of_paysOut hpays h1).2
      have hzero := payouts_eq_zero (h.run h1) hrun hget hsettled
      have hlast := settled_unchanged_runs (h.run h1) hrun hget hsettled
      refine ⟨fun htlc' hget' _ => ⟨?_, fun addr d => ?_⟩, fun hno => ?_⟩
      · simpa [payouts, List.countP_cons, hpays] using hzero
      · obtain rfl := some.inj (hlast.symm.trans hget')
        simp only [paidOut, h1, hpays, if_true, paidOut_eq_zero hzero, hmoved, add_zero]
      · exact absurd hsettled (hno htlc hlast)

/-- Life cycle of the contracts over a run. -/
structure LifeCycle (sha256 : Bytes → Bytes) (s s' : State) (ops : List Op) : Prop where
  queued : ∀ height l, s'.Queued height l ↔
    ∃ htlc, s'.htlcs.get l = some htlc ∧ htlc.state = .OPEN ∧ htlc.expireHeight = height
  ahead : ∀ l htlc, s'.htlcs.get l = some htlc → htlc.state = .OPEN →
    s'.height < htlc.expireHeight
  final : ∀ l htlc, s'.htlcs.get l = some htlc → htlc.Settled →
    ∀ (later : List Op) (s'' : State), later.foldlM (Op.run sha256) s' = .ok s'' →
      s''.htlcs.get l = some htlc
  moves : ∀ (op : Op) (s'' : State), op.run sha256 s' = .ok s'' → op.Moves s' s''
  paid : ∀ l, PaidOnce sha256 s s' ops l
  secret : ∀ l htlc, s'.htlcs.get l = some htlc → htlc.state = .COMPLETED →
    getHashLock sha256 htlc.secret htlc.timestamp = l

/-- Life cycle of every contract, over every run from a chain without contracts; block
heights are `int64` numbers. -/
theorem htlc_life_cycle (hs : s.Genesis) (hrun : ops.foldlM (Op.run sha256) s = .ok s')
    (hheight : s'.height < 2 ^ 63) : LifeCycle sha256 s s' ops := by
  have htables : Tables sha256 s := hs.tables
  have htables' := htables.runs hrun
  have hahead : s.Ahead := fun l htlc hget => by simp [hs.htlcs] at hget
  have hahead' := hahead.runs htables hheight hrun
  refine ⟨htables'.queued, fun l htlc hget hopen => (hahead' l htlc hget hopen).1, ?_,
    fun _ _ => Op.moves_of_run, fun l => .of_run htables hrun (fun htlc hget => ?_),
    htables'.secret⟩
  · intro l htlc hget hsettled later s'' hlater
    exact settled_unchanged_runs htables' hlater hget hsettled
  · simp [hs.htlcs] at hget

end

def sampleHash (bz : Bytes) : Bytes := bz.take 32

def sampleLock : Bytes := List.replicate 32 ⟨7, by decide⟩

def sampleState : State where
  bank :=
    { accounts := Store.empty.set 1 ⟨[⟨"iris-atto", 1000⟩], by decide, by decide⟩
      totalLoosenToken := ⟨[⟨"iris-atto", 1000⟩], by decide, by decide⟩
      totalSupply := Store.empty }
  htlcs := Store.empty
  expireQueue := Store.empty
  height := 1

lemma sampleState_genesis : sampleState.Genesis := ⟨rfl, rfl⟩

def sampleCreate (hashLock : Bytes) : Op :=
  .create
    { sender := 1, toAddr := 2, receiverOnOtherChain := "", amount := [⟨"iris-atto", 10⟩]
      hashLock := hashLock, timestamp := 0, timeLock := 50 }

def sampleOps : List Op :=
  [sampleCreate sampleLock, .beginBlock,
    .claim { sender := 2, hashLock := sampleLock, secret := sampleLock }]

/-- In a run with a claim the contract is paid out once: its ten iris-atto go from the locked
coins to the receiver. -/
theorem htlc_life_cycle_sample :
    ∃ s', sampleOps.foldlM (Op.run sampleHash) sampleState = .ok s' ∧
      LifeCycle sampleHash sampleState s' sampleOps ∧
      (s'.htlcs.get sampleLock).map HTLC.state = some .COMPLETED ∧
      payouts sampleLock sampleOps = 1 ∧
      paidOut sampleHash sampleLock 2 "iris-atto" sampleOps sampleState = 10 ∧
      paidOut sampleHash sampleLock htlcLockedCoinsAccAddr "iris-atto" sampleOps sampleState =
        -10 := by
  obtain ⟨s', hs', htest⟩ := of_returns
    (p := fun s' : State => decide (s'.height = 2 ∧
      (s'.htlcs.get sampleLock).map HTLC.state = some .COMPLETED))
    (x := sampleOps.foldlM (Op.run sampleHash) sampleState) (by decide +kernel)
  rw [decide_eq_true_eq] at htest
  have hcycle := htlc_life_cycle sampleState_genesis hs' (by rw [htest.1]; decide)
  exact ⟨s', hs', hcycle, htest.2, by decide, by decide +kernel, by decide +kernel⟩

end Irishub.Htlc
