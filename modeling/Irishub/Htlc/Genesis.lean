import Irishub.Htlc.Escrow

/-!
# HTLC: export and import of the genesis state

`ExportGenesis` walks over all contracts, writes the open ones and refunds the
expired ones. The hash lock it works with is read from the store key, up to the
next `:` in it. What is written depends on the entries alone (`pendingOf`); the
refunds are paid from the escrow.

A hash lock that holds the byte of `:` is cut there: an open contract is written under
the wrong hash lock, and the refund of an expired one finds no contract and stops the
export. Without such a lock the import restores every open contract.
-/

namespace Irishub.Htlc
open Lib Store Bank List State
variable {sha256 : Bytes → Bytes} {s s' : State}

lemma hashLockOfKey_keyHTLC (hashLock : Bytes) :
    hashLockOfKey (keyHTLC hashLock) = .ok (Bytes.before keyDelimiter hashLock) := by
  have hparts : Bytes.splitOn keyDelimiter (keyHTLC hashLock) =
      htlcsWord :: Bytes.splitOn keyDelimiter hashLock := by
    rw [keyHTLC, prefixHTLC, append_assoc]
    exact Bytes.splitOn_append (by decide) hashLock
  rw [hashLockOfKey, hparts, getElem?_cons_succ, ← head?_eq_getElem?, Bytes.splitOn_head?]
  rfl

section
variable {blockHeight : ℕ} {pending : Store String HTLC} {entries : List (Bytes × HTLC)}

def pendingKey (hashLock : Bytes) : String :=
  Bytes.hexEncode (Bytes.before keyDelimiter hashLock)

/-- What the export of `entries` at a height adds to `pending`. -/
def pendingOf (blockHeight : ℕ) : Store String HTLC → List (Bytes × HTLC) → Store String HTLC
  | pending, [] => pending
  | pending, e :: entries =>
    pendingOf blockHeight
      (if e.2.state = .OPEN then pending.set (pendingKey e.1) (e.2.exported blockHeight)
      else pending) entries

lemma pendingKey_of_not_mem {hashLock : Bytes} (h : keyDelimiter ∉ hashLock) :
    pendingKey hashLock = Bytes.hexEncode hashLock := by
  rw [pendingKey, Bytes.before_eq_self_iff.mpr h]

lemma get_pendingOf {k : String} {htlc : HTLC}
    (h : (pendingOf blockHeight pending entries).get k = some htlc) :
    pending.get k = some htlc ∨ ∃ e ∈ entries, k = pendingKey e.1 := by
  induction entries generalizing pending with
  | nil => exact Or.inl h
  | cons e entries ih =>
    rw [pendingOf] at h
    rcases ih h with hget | ⟨e', he', hk⟩
    · split_ifs at hget
      · rw [get_set] at hget
        split_ifs at hget with hk
        · exact Or.inr ⟨e, by simp, hk⟩
        · exact Or.inl hget
      · exact Or.inl hget
    · exact Or.inr ⟨e', mem_cons_of_mem _ he', hk⟩

/-- Contracts whose hash locks are not cut are written under their own texts. -/
lemma get_pendingOf_iff (hnodup : (entries.map Prod.fst).Nodup)
    (hwhole : ∀ e ∈ entries, e.2.state = .OPEN → keyDelimiter ∉ e.1) (k : String) (htlc : HTLC) :
    (pendingOf blockHeight pending entries).get k = some htlc ↔
      (∃ e ∈ entries, e.2.state = .OPEN ∧ k = Bytes.hexEncode e.1 ∧
        htlc = e.2.exported blockHeight) ∨
      (∀ e ∈ entries, e.2.state = .OPEN → k ≠ Bytes.hexEncode e.1) ∧ pending.get k = some htlc := by
  induction entries generalizing pending with
  | nil => simp [pendingOf]
  | cons e entries ih =>
    rw [map_cons, nodup_cons] at hnodup
    rw [forall_mem_cons] at hwhole
    rw [pendingOf, ih hnodup.2 hwhole.2]
    simp only [exists_mem_cons_iff, forall_mem_cons]
    by_cases hopen : e.2.state = .OPEN
    · rw [if_pos hopen, pendingKey_of_not_mem (hwhole.1 hopen), get_set]
      by_cases hk : k = Bytes.hexEncode e.1
      · -- the hash locks of the other entries differ, hence so do their texts
        have hother : ∀ e' ∈ entries, k ≠ Bytes.hexEncode e'.1 := by
          intro e' he' hk'
          refine hnodup.1 (mem_map.mpr ⟨e', he', ?_⟩)
          exact Bytes.hexEncode_injective (hk'.symm.trans hk)
        have hnone : ¬∃ e' ∈ entries, e'.2.state = .OPEN ∧ k = Bytes.hexEncode e'.1 ∧
            htlc = e'.2.exported blockHeight := by
          rintro ⟨e', he', _, hk', _⟩
          exact hother e' he' hk'
        simp only [hopen, hk, if_true, true_and, ne_eq, not_true_eq_false, false_and,
          forall_const, or_false, Option.some.injEq]
        rw [← hk]
        constructor
        · rintro (h | ⟨_, rfl⟩)
          · exact absurd h hnone
          · exact Or.inl rfl
        · rintro (rfl | h)
          · exact Or.inr ⟨fun e' he' _ => hother e' he', rfl⟩
          · exact absurd h hnone
      · simp [hopen, hk]
    · simp [hopen]

end

section
variable {hashLock : Bytes} {pending pending' : Store String HTLC} {e : Bytes × HTLC}
  {entries : List (Bytes × HTLC)}

lemma refundHTLC_height (h : s.refundHTLC hashLock = .ok s') : s'.height = s.height := by
  obtain ⟨htlc, bank, _, _, _, rfl⟩ := refund_eq_ok h
  rfl

lemma refundExpired_ok : s.refundExpired hashLock = .ok s' ↔ s.refundHTLC hashLock = .ok s' := by
  unfold refundExpired
  split
  · rename_i e he
    simp [he]
  · exact Iff.rfl

lemma exportHTLC_ok {hlock : Bytes} {htlc : HTLC} :
    s.exportHTLC pending hlock htlc = .ok (s', pending') ↔
      (if htlc.state = .EXPIRED then s.refundHTLC hlock = .ok s' else s' = s) ∧
        pending' = (if htlc.state = .OPEN then
          pending.set (Bytes.hexEncode hlock) (htlc.exported s.height) else pending) := by
  unfold exportHTLC
  cases hstate : htlc.state with
  | OPEN | COMPLETED | REFUNDED => simp [eq_comm]
  | EXPIRED =>
    simp only [bind_ok, refundExpired_ok, pure_eq_ok, Prod.mk.injEq,
      if_true, reduceCtorEq, if_false]
    constructor
    · rintro ⟨t, ht, rfl, rfl⟩
      exact ⟨ht, rfl⟩
    · rintro ⟨ht, rfl⟩
      exact ⟨s', ht, rfl, rfl⟩

lemma exportHTLCs_cons :
    s.exportHTLCs pending (e :: entries) = .ok (s', pending') ↔
      ∃ t, (if e.2.state = .EXPIRED then
          s.refundHTLC (Bytes.before keyDelimiter e.1) = .ok t else t = s) ∧
        t.exportHTLCs (if e.2.state = .OPEN then
          pending.set (pendingKey e.1) (e.2.exported s.height) else pending) entries =
            .ok (s', pending') := by
  simp only [exportHTLCs, hashLockOfKey_keyHTLC, bind_ok, Except.ok.injEq,
    exists_eq_left', Prod.exists, exportHTLC_ok]
  constructor
  · rintro ⟨t, _, ⟨ht, rfl⟩, hrest⟩
    exact ⟨t, ht, hrest⟩
  · rintro ⟨t, ht, hrest⟩
    exact ⟨t, _, ⟨ht, rfl⟩, hrest⟩

lemma exportHTLCs_pending (h : s.exportHTLCs pending entries = .ok (s', pending')) :
    pending' = pendingOf s.height pending entries := by
  induction entries generalizing s pending with
  | nil =>
    cases h
    rfl
  | cons e entries ih =>
    obtain ⟨t, ht, hrest⟩ := exportHTLCs_cons.mp h
    have hheight : t.height = s.height := by
      split_ifs at ht
      · exact refundHTLC_height ht
      · rw [ht]
    rw [ih hrest, hheight, pendingOf]

def State.FullLocks (s : State) : Prop :=
  ∀ l htlc, s.htlcs.get l = some htlc → l.length = hashLockLength

lemma not_mem_of_exportHTLCs (hlocks : s.FullLocks)
    (hentries : ∀ e ∈ entries, e.1.length = hashLockLength)
    (h : s.exportHTLCs pending entries = .ok (s', pending')) :
    ∀ e ∈ entries, e.2.state = .EXPIRED → keyDelimiter ∉ e.1 := by
  induction entries generalizing s pending with
  | nil => simp
  | cons e entries ih =>
    rw [forall_mem_cons] at hentries
    obtain ⟨t, ht, hrest⟩ := exportHTLCs_cons.mp h
    rw [forall_mem_cons]
    refine ⟨fun hexpired hmem => ?_, ih ?_ hentries.2 hrest⟩
    · rw [if_pos hexpired] at ht
      obtain ⟨htlc, _, hget, _⟩ := refund_eq_ok ht
      have hlt := Bytes.length_before_lt hmem
      rw [hlocks _ _ hget, hentries.1] at hlt
      exact lt_irrefl _ hlt
    · split_ifs at ht
      · obtain ⟨htlc, bank, hget, _, _, rfl⟩ := refund_eq_ok ht
        exact forall_set hlocks (hlocks _ _ hget)
      · rw [ht]
        exact hlocks

/-- What the refunds of the remaining entries need. -/
structure Refundable (s : State) (entries : List (Bytes × HTLC)) : Prop where
  nodup : (entries.map Prod.fst).Nodup
  stored : ∀ e ∈ entries, s.htlcs.get e.1 = some e.2
  whole : ∀ e ∈ entries, e.2.state = .EXPIRED → keyDelimiter ∉ e.1
  sender : ∀ e ∈ entries, e.2.sender ≠ burnedCoinsAccAddr
  records : s.Records
  excess : ∀ d, 0 ≤ s.excess d
  range : ∀ d, s.bank.sumOf d < 2 ^ 255

lemma Refundable.step (h : Refundable s (e :: entries)) :
    ∃ t, (if e.2.state = .EXPIRED then
        s.refundHTLC (Bytes.before keyDelimiter e.1) = .ok t else t = s) ∧
      Refundable t entries := by
  obtain ⟨l, htlc⟩ := e
  have hnodup := h.nodup
  rw [map_cons, nodup_cons] at hnodup
  obtain ⟨hget, hstored⟩ := forall_mem_cons.mp h.stored
  obtain ⟨hwhole, hwholes⟩ := forall_mem_cons.mp h.whole
  obtain ⟨hsender, hsenders⟩ := forall_mem_cons.mp h.sender
  dsimp only at hget hwhole hsender ⊢
  by_cases hexpired : htlc.state = .EXPIRED
  · have hle : ∀ d, Coins.denomSum d htlc.amount ≤ s.bank.balance htlcLockedCoinsAccAddr d := by
      intro d
      have howed := h.records.denomSum_le_owed hget (Or.inr hexpired) d
      have hexcess := h.excess d
      rw [State.excess, State.held] at hexcess
      omega
    obtain ⟨bank, hsend⟩ := sendCoins_ok_of_le (h.records l htlc hget).valid hle hsender h.range
    obtain ⟨t, hrun, hhtlcs, hbank⟩ : ∃ t, s.refundHTLC l = .ok t ∧
        t.htlcs = s.htlcs.set l { htlc with state := .REFUNDED } ∧ t.bank = bank := by
      have hsend' : s.sendCoins htlcLockedCoinsAccAddr htlc.sender htlc.amount =
          .ok { s with bank := bank } := sendCoins_eq_ok.mpr ⟨bank, hsend, rfl⟩
      have hfound : s.getHTLC l = .ok htlc := by simp [getHTLC, hget]
      simp only [refundHTLC, hfound, ok_bind, hexpired, require, decide_true, if_true, hsend']
      exact ⟨_, rfl, rfl, rfl⟩
    refine ⟨t, ?_, hnodup.2, fun e he => ?_, hwholes, hsenders, ?_, fun d => ?_, fun d => ?_⟩
    · rw [if_pos hexpired, Bytes.before_eq_self_iff.mpr (hwhole hexpired)]
      exact hrun
    · have hne : e.1 ≠ l := fun heq => hnodup.1 (mem_map.mpr ⟨e, he, heq⟩)
      rw [hhtlcs, get_set_ne _ _ hne]
      exact hstored e he
    · obtain ⟨hlength, hvalid, hpositive⟩ := h.records l htlc hget
      rw [Records, hhtlcs]
      exact forall_set h.records ⟨hlength, hvalid, hpositive⟩
    · have hpay := excess_pay hhtlcs hbank hget (Or.inr hexpired) (Or.inr rfl) hsend d
      have hnn := (h.records l htlc hget).denomSum_nonneg d
      have hexcess := h.excess d
      split_ifs at hpay <;> omega
    · rw [hbank, sumOf_sendCoins hsend d]
      exact h.range d
  · exact ⟨s, by rw [if_neg hexpired], hnodup.2, hstored, hwholes, hsenders, h.records, h.excess,
      h.range⟩

lemma exportHTLCs_ok (h : Refundable s entries)
    (pending : Store String HTLC) : ∃ r, s.exportHTLCs pending entries = .ok r := by
  induction entries generalizing s pending with
  | nil => exact ⟨_, rfl⟩
  | cons e entries ih =>
    obtain ⟨t, ht, hrest⟩ := h.step
    obtain ⟨⟨s', pending'⟩, hr⟩ := ih hrest (if e.2.state = .OPEN then
      pending.set (pendingKey e.1) (e.2.exported s.height) else pending)
    exact ⟨(s', pending'), exportHTLCs_cons.mpr ⟨t, ht, hr⟩⟩

lemma exportGenesis_eq_ok {g : GenesisState} (h : s.exportGenesis = .ok (s', g)) :
    s.exportHTLCs .empty s.htlcs.entries = .ok (s', g.pendingHTLCs) ∧
      g.pendingHTLCs = pendingOf s.height .empty s.htlcs.entries := by
  simp only [exportGenesis, bind_ok, pure_eq_ok, Prod.mk.injEq, Prod.exists] at h
  obtain ⟨t, pending, hexport, rfl, rfl⟩ := h
  exact ⟨hexport, exportHTLCs_pending hexport⟩

end

lemma initHTLC_hexEncode (l : Bytes) (htlc : HTLC) : s.initHTLC (Bytes.hexEncode l) htlc =
      .ok ((s.setHTLC htlc l).addHTLCToExpireQueue htlc.expireHeight l) := by
  simp only [initHTLC, Bytes.hexDecode_hexEncode, deref, ok_bind]
  rfl

/-- Import of entries under texts of hash locks writes exactly these contracts. -/
lemma initGenesis_entries {entries : List (String × HTLC)}
    (hnodup : (entries.map Prod.fst).Nodup) (hhex : ∀ e ∈ entries, ∃ l, e.1 = Bytes.hexEncode l) :
    ∃ s', entries.foldlM (fun s e => s.initHTLC e.1 e.2) s = .ok s' ∧
      (∀ l htlc, s'.htlcs.get l = some htlc ↔ (Bytes.hexEncode l, htlc) ∈ entries ∨
        (∀ htlc', (Bytes.hexEncode l, htlc') ∉ entries) ∧ s.htlcs.get l = some htlc) ∧
      (∀ height l, s'.Queued height l ↔ s.Queued height l ∨
        ∃ htlc, (Bytes.hexEncode l, htlc) ∈ entries ∧ htlc.expireHeight = height) := by
  induction entries generalizing s with
  | nil => exact ⟨s, rfl, by simp, by simp⟩
  | cons e entries ih =>
    rw [map_cons, nodup_cons] at hnodup
    obtain ⟨⟨l0, hl0⟩, hrest⟩ := forall_mem_cons.mp hhex
    obtain ⟨text, htlc0⟩ := e
    obtain rfl : text = Bytes.hexEncode l0 := hl0
    obtain ⟨s', hrun, hhtlcs, hqueue⟩ :=
      ih (s := (s.setHTLC htlc0 l0).addHTLCToExpireQueue htlc0.expireHeight l0) hnodup.2 hrest
    refine ⟨s', ?_, fun l htlc => ?_, fun height l => ?_⟩
    · rw [foldlM_cons, initHTLC_hexEncode]
      exact hrun
    · have hget : ((s.setHTLC htlc0 l0).addHTLCToExpireQueue htlc0.expireHeight l0).htlcs.get l =
          if l = l0 then some htlc0 else s.htlcs.get l := by
        show (s.htlcs.set l0 htlc0).get l = _
        rw [get_set]
        split_ifs <;> rfl
      rw [hhtlcs, hget]
      simp only [mem_cons, Prod.mk.injEq, Bytes.hexEncode_injective.eq_iff]
      by_cases hl : l = l0
      · subst hl
        have hnone : ∀ htlc', (Bytes.hexEncode l, htlc') ∉ entries := fun htlc' hmem =>
          hnodup.1 (mem_map.mpr ⟨_, hmem, rfl⟩)
        simp [hnone, eq_comm]
      · simp [hl]
    · have hset :
          ((s.setHTLC htlc0 l0).addHTLCToExpireQueue htlc0.expireHeight l0).Queued height l ↔
          s.Queued height l ∨ height = htlc0.expireHeight ∧ l = l0 := by
        simp only [Queued, has, addHTLCToExpireQueue, setHTLC, get_set, toLex_eq_iff]
        by_cases hkey : height = htlc0.expireHeight ∧ l = l0 <;> simp [hkey]
      rw [hqueue, hset]
      simp only [mem_cons, Prod.mk.injEq, Bytes.hexEncode_injective.eq_iff, or_and_right,
        exists_or, or_assoc]
      refine or_congr_right (or_congr_left ?_)
      constructor
      · rintro ⟨rfl, rfl⟩
        exact ⟨htlc0, ⟨rfl, rfl⟩, rfl⟩
      · rintro ⟨htlc, ⟨rfl, rfl⟩, rfl⟩
        exact ⟨rfl, rfl⟩

section
variable {op : Op}

/-- Export writes each open contract once, under its own hash lock and with the number of blocks
to its expiry, and on a new chain the import restores these contracts and their queue entries.
The number counts the current block. -/
def State.RoundTrip (s : State) : Prop :=
  ∃ after g, s.exportGenesis = .ok (after, g) ∧
    (∀ k htlc', g.pendingHTLCs.get k = some htlc' ↔
      ∃ l htlc, s.htlcs.get l = some htlc ∧ htlc.state = .OPEN ∧ k = Bytes.hexEncode l ∧
        htlc' = { htlc with expireHeight := htlc.expireHeight - s.height + 1 }) ∧
    ∀ new : State, new.Genesis → ∃ s', new.initGenesis g = .ok s' ∧
      (∀ l htlc', s'.htlcs.get l = some htlc' ↔
        ∃ htlc, s.htlcs.get l = some htlc ∧ htlc.state = .OPEN ∧
          htlc' = { htlc with expireHeight := htlc.expireHeight - s.height + 1 }) ∧
      (∀ height l, s'.Queued height l ↔
        ∃ htlc, s.htlcs.get l = some htlc ∧ htlc.state = .OPEN ∧
          height = htlc.expireHeight - s.height + 1)

def State.WholeLocks (s : State) : Prop :=
  ∀ l htlc, s.htlcs.get l = some htlc → htlc.state = .OPEN ∨ htlc.state = .EXPIRED →
    keyDelimiter ∉ l

/-- What is carried along a run of users' operations. -/
structure Sane (sha256 : Bytes → Bytes) (s : State) : Prop where
  covered : Covered sha256 s
  senders : s.Parties (fun sender _ => sender ≠ burnedCoinsAccAddr)
  range : ∀ d, s.bank.sumOf d < 2 ^ 255

def Op.SignedByUsers (op : Op) : Prop :=
  htlcLockedCoinsAccAddr ∉ op.signers ∧ burnedCoinsAccAddr ∉ op.signers

instance (op : Op) : Decidable op.SignedByUsers := inferInstanceAs (Decidable (_ ∧ _))

lemma sumOf_run (hrun : op.run sha256 s = .ok s') (d : String) :
    s'.bank.sumOf d = s.bank.sumOf d := by
  cases op with
  | create msg =>
    obtain ⟨_, _, bank, hsend, rfl⟩ := create_ok hrun
    exact sumOf_sendCoins hsend d
  | claim msg =>
    obtain ⟨htlc, bank, _, _, _, hsend, rfl⟩ := claim_ok hrun
    exact sumOf_sendCoins hsend d
  | refund msg =>
    obtain ⟨htlc, bank, _, _, hsend, rfl⟩ := refund_eq_ok (run_refund hrun)
    exact sumOf_sendCoins hsend d
  | send msg =>
    obtain ⟨bank, hbank, rfl⟩ := withBank_ok hrun
    exact sumOf_deliverSend hbank d
  | burn msg =>
    obtain ⟨bank, hbank, rfl⟩ := withBank_ok hrun
    obtain ⟨_, _, hsend⟩ := bind_ok.mp hbank
    exact sumOf_sendCoins hsend d
  | beginBlock =>
    cases hrun
    rw [beginBlocker, (foldl_expireHTLC_frame _ _).1]

/-- Contracts move coins and never make or lose any, whatever is created, claimed, refunded, sent,
burned or expires. -/
theorem coins_conserved {ops : List Op} (hrun : ops.foldlM (Op.run sha256) s = .ok s')
    (d : String) : s'.bank.sumOf d = s.bank.sumOf d :=
  invariant_of_foldlM (I := fun t => t.bank.sumOf d = s.bank.sumOf d)
    (fun _ _ _ ht h => (sumOf_run h d).trans ht) hrun rfl

theorem coins_conserved_sample : ∃ s', sampleOps.foldlM (Op.run sampleHash) sampleState = .ok s' ∧
    ∀ d, s'.bank.sumOf d = sampleState.bank.sumOf d := by
  obtain ⟨s', hs', -⟩ := of_returns (p := fun _ => true)
    (x := sampleOps.foldlM (Op.run sampleHash) sampleState) (by decide +kernel)
  exact ⟨s', hs', coins_conserved hs'⟩

lemma Sane.run (h : Sane sha256 s) (hsigned : op.SignedByUsers)
    (hrun : op.run sha256 s = .ok s') : Sane sha256 s' where
  covered := h.covered.run hsigned.1 hrun
  senders := by
    refine h.senders.run h.covered.tables hrun (fun msg hop heq => hsigned.2 ?_)
    rw [hop, Op.signers, heq]
    simp
  range d := by
    rw [sumOf_run hrun d]
    exact h.range d

lemma State.Genesis.sane (h : s.Genesis) (hrange : ∀ d, s.bank.sumOf d < 2 ^ 255) :
    Sane sha256 s where
  covered := h.covered
  senders l htlc hget := by simp [h.htlcs] at hget
  range := hrange

lemma Sane.runs {ops : List Op} (h : Sane sha256 s) (hsigned : ∀ op ∈ ops, op.SignedByUsers)
    (hrun : ops.foldlM (Op.run sha256) s = .ok s') : Sane sha256 s' := by
  have hloop : Sat AnyFault (Sane sha256) (ops.foldlM (Op.run sha256) s) :=
    Sat.foldlM ops s h
      (fun op hop t ht => Sat.of_forall (fun t' ht' => ht.run (hsigned op hop) ht'))
  exact hloop.of_ok hrun

lemma Sane.exportGenesis_ok (h : Sane sha256 s)
    (hwhole : ∀ l htlc, s.htlcs.get l = some htlc → htlc.state = .EXPIRED → keyDelimiter ∉ l) :
    ∃ r, s.exportGenesis = .ok r := by
  have hrefundable : Refundable s s.htlcs.entries :=
    { nodup := s.htlcs.nodup_keys
      stored := fun e he => mem_entries.mp he
      whole := fun e he => hwhole e.1 e.2 (mem_entries.mp he)
      sender := fun e he => h.senders e.1 e.2 (mem_entries.mp he)
      records := h.covered.records
      excess := h.covered.excess
      range := h.range }
  obtain ⟨⟨after, pending⟩, hr⟩ := exportHTLCs_ok hrefundable .empty
  exact ⟨(after, ⟨pending⟩), by simp only [exportGenesis, hr, ok_bind]; rfl⟩

lemma State.Ahead.exported_eq (h : s.Ahead) (hheight : s.height < 2 ^ 63) {l : Bytes}
    {htlc : HTLC} (hget : s.htlcs.get l = some htlc) (hopen : htlc.state = .OPEN) :
    htlc.exported s.height = { htlc with expireHeight := htlc.expireHeight - s.height + 1 } := by
  obtain ⟨hlt, hle⟩ := h l htlc hget hopen
  unfold maxTimeLock at hle
  have heq : (htlc.expireHeight + (2 ^ 64 - s.height) + 1) % 2 ^ 64 =
      htlc.expireHeight - s.height + 1 := by omega
  rw [HTLC.exported, heq]

/-- Contracts that are written when no open one has the delimiter in its hash lock. -/
lemma get_pendingOf_entries (hahead : s.Ahead) (hheight : s.height < 2 ^ 63)
    (hwhole : ∀ l htlc, s.htlcs.get l = some htlc → htlc.state = .OPEN → keyDelimiter ∉ l)
    (k : String) (htlc' : HTLC) : (pendingOf s.height .empty s.htlcs.entries).get k = some htlc' ↔
      ∃ l htlc, s.htlcs.get l = some htlc ∧ htlc.state = .OPEN ∧ k = Bytes.hexEncode l ∧
        htlc' = { htlc with expireHeight := htlc.expireHeight - s.height + 1 } := by
  rw [get_pendingOf_iff s.htlcs.nodup_keys (fun e he => hwhole e.1 e.2 (mem_entries.mp he))]
  simp only [Prod.exists, mem_entries, get_empty, reduceCtorEq, and_false, or_false]
  refine exists_congr (fun l => exists_congr (fun htlc => and_congr_right (fun hget =>
    and_congr_right (fun hopen => ?_))))
  rw [hahead.exported_eq hheight hget hopen]

lemma initGenesis_restores {g : GenesisState} {P : Bytes → HTLC → Prop}
    (hg : ∀ k htlc', g.pendingHTLCs.get k = some htlc' ↔
      ∃ l, k = Bytes.hexEncode l ∧ P l htlc') {new : State} (hnew : new.Genesis) :
    ∃ s', new.initGenesis g = .ok s' ∧ (∀ l htlc', s'.htlcs.get l = some htlc' ↔ P l htlc') ∧
      (∀ height l, s'.Queued height l ↔ ∃ htlc', P l htlc' ∧ htlc'.expireHeight = height) := by
  have hmem : ∀ l htlc', (Bytes.hexEncode l, htlc') ∈ g.pendingHTLCs.entries ↔ P l htlc' := by
    intro l htlc'
    rw [mem_entries, hg]
    constructor
    · rintro ⟨l', heq, hP⟩
      rw [Bytes.hexEncode_injective heq]
      exact hP
    · exact fun hP => ⟨l, rfl, hP⟩
  obtain ⟨s', hrun, hhtlcs, hqueue⟩ := initGenesis_entries (s := new)
    g.pendingHTLCs.nodup_keys (fun e he => by
      obtain ⟨l, hl, _⟩ := (hg e.1 e.2).mp (mem_entries.mp he)
      exact ⟨l, hl⟩)
  refine ⟨s', hrun, fun l htlc' => ?_, fun height l => ?_⟩
  · rw [hhtlcs, hmem, hnew.htlcs, get_empty]
    simp
  · have hnot : ¬new.Queued height l := by simp [Queued, has, hnew.expireQueue]
    rw [hqueue]
    simp only [hnot, false_or, hmem]

/-- Over every run of users' operations from a chain without contracts, whose totals are in range,
export and import preserve the open contracts exactly when no pending hash lock holds the
delimiter. -/
theorem roundTrip_iff {ops : List Op} (hs : s.Genesis) (hrange : ∀ d, s.bank.sumOf d < 2 ^ 255)
    (hsigned : ∀ op ∈ ops, op.SignedByUsers) (hrun : ops.foldlM (Op.run sha256) s = .ok s')
    (hheight : s'.height < 2 ^ 63) : s'.RoundTrip ↔ s'.WholeLocks := by
  have hsane : Sane sha256 s' := (hs.sane hrange).runs hsigned hrun
  have hnone : s.Ahead := fun l htlc hget => by simp [hs.htlcs] at hget
  have hahead : s'.Ahead := hnone.runs hs.tables hheight hrun
  have hlength : ∀ l htlc, s'.htlcs.get l = some htlc → l.length = hashLockLength :=
    fun l htlc hget => (hsane.covered.records l htlc hget).hashLock
  constructor
  · rintro ⟨after, g, hexport, hpending, _⟩ l htlc hget hstate
    obtain ⟨hloop, hg⟩ := exportGenesis_eq_ok hexport
    rcases hstate with hopen | hexpired
    · -- the text of a full hash lock is written only for an entry that was not cut
      have hwritten := (hpending _ _).mpr ⟨l, htlc, hget, hopen, rfl, rfl⟩
      rw [hg] at hwritten
      rcases get_pendingOf hwritten with hempty | ⟨e, he, hk⟩
      · simp at hempty
      · have hl : l = Bytes.before keyDelimiter e.1 := Bytes.hexEncode_injective hk
        intro hmem
        have hcut : keyDelimiter ∉ e.1 := by
          intro hmem'
          have hlt := Bytes.length_before_lt hmem'
          rw [← hl, hlength l htlc hget, hlength e.1 e.2 (mem_entries.mp he)] at hlt
          exact lt_irrefl _ hlt
        rw [hl, Bytes.before_eq_self_iff.mpr hcut] at hmem
        exact hcut hmem
    · exact not_mem_of_exportHTLCs hlength
        (fun e he => hlength e.1 e.2 (mem_entries.mp he)) hloop (l, htlc)
        (mem_entries.mpr hget) hexpired
  · intro hwhole
    obtain ⟨⟨after, g⟩, hexport⟩ := hsane.exportGenesis_ok
      (fun l htlc hget hexpired => hwhole l htlc hget (Or.inr hexpired))
    have hpending := get_pendingOf_entries hahead hheight
      (fun l htlc hget hopen => hwhole l htlc hget (Or.inl hopen))
    rw [← (exportGenesis_eq_ok hexport).2] at hpending
    refine ⟨after, g, hexport, hpending, fun new hnew => ?_⟩
    obtain ⟨s1, hinit, hhtlcs, hqueue⟩ := initGenesis_restores (g := g)
      (P := fun l htlc' => ∃ htlc, s'.htlcs.get l = some htlc ∧ htlc.state = .OPEN ∧
        htlc' = { htlc with expireHeight := htlc.expireHeight - s'.height + 1 })
      (fun k htlc' => by
        rw [hpending]
        constructor
        · rintro ⟨l, htlc, hget, hopen, hk, heq⟩
          exact ⟨l, hk, htlc, hget, hopen, heq⟩
        · rintro ⟨l, hk, htlc, hget, hopen, heq⟩
          exact ⟨l, htlc, hget, hopen, hk, heq⟩) hnew
    refine ⟨s1, hinit, hhtlcs, fun height l => ?_⟩
    rw [hqueue]
    constructor
    · rintro ⟨_, ⟨htlc, hget, hopen, rfl⟩, rfl⟩
      exact ⟨htlc, hget, hopen, rfl⟩
    · rintro ⟨htlc, hget, hopen, rfl⟩
      exact ⟨_, ⟨htlc, hget, hopen, rfl⟩, rfl⟩

/-- A hash lock with the byte of `:` in it. -/
def sampleCutLock : Bytes := keyDelimiter :: sampleLock.tail

lemma sampleState_range (d : String) : sampleState.bank.sumOf d < 2 ^ 255 := by
  have hsum : sampleState.bank.sumOf d = if "iris-atto" = d then 1000 else 0 := by
    simp [sampleState, Bank.sumOf, Store.total, Store.set, Store.empty, insertEntry,
      StoredCoins.amountOf_eq, Coin.amountIn]
  rw [hsum]
  split_ifs <;> norm_num

/-- An open contract under a hash lock that begins with `:` is exported under the empty one. -/
theorem cut_lock_is_lost :
    ∃ s', [sampleCreate sampleCutLock].foldlM (Op.run sampleHash) sampleState = .ok s' ∧
      (s'.htlcs.get sampleCutLock).map HTLC.state = some .OPEN ∧
      ∃ after g, s'.exportGenesis = .ok (after, g) ∧
        g.pendingHTLCs.get (Bytes.hexEncode sampleCutLock) = none ∧
        g.pendingHTLCs.has "" = true := by
  obtain ⟨s', hs', htest⟩ := of_returns
    (p := fun s' : State => decide ((s'.htlcs.get sampleCutLock).map HTLC.state = some .OPEN) &&
      returns (fun r : State × GenesisState =>
        decide (r.2.pendingHTLCs.get (Bytes.hexEncode sampleCutLock) = none) &&
          r.2.pendingHTLCs.has "") s'.exportGenesis)
    (x := [sampleCreate sampleCutLock].foldlM (Op.run sampleHash) sampleState) (by decide +kernel)
  rw [Bool.and_eq_true, decide_eq_true_eq] at htest
  obtain ⟨⟨after, g⟩, hexport, hg⟩ := of_returns htest.2
  rw [Bool.and_eq_true, decide_eq_true_eq] at hg
  exact ⟨s', hs', htest.1, after, g, hexport, hg.1, hg.2⟩

/-- An open contract whose hash lock has no `:` survives export and import. -/
theorem roundTrip_sample :
    ∃ s', [sampleCreate sampleLock].foldlM (Op.run sampleHash) sampleState = .ok s' ∧
      s'.WholeLocks ∧ s'.RoundTrip := by
  obtain ⟨s', hs', htest⟩ := of_returns
    (p := fun s' : State => decide (s'.height = 1) &&
      s'.htlcs.entries.all (fun e => decide (keyDelimiter ∉ e.1)))
    (x := [sampleCreate sampleLock].foldlM (Op.run sampleHash) sampleState) (by decide +kernel)
  simp only [Bool.and_eq_true, decide_eq_true_eq, all_eq_true] at htest
  have hwhole : s'.WholeLocks := fun l htlc hget _ => htest.2 (l, htlc) (mem_entries.mpr hget)
  have hiff := roundTrip_iff sampleState_genesis sampleState_range (by decide +kernel) hs'
    (by rw [htest.1]; decide)
  exact ⟨s', hs', hwhole, hiff.mpr hwhole⟩

end
end Irishub.Htlc
