import Irishub.Htlc.LifeCycle

/-!
# HTLC: the escrow account

The coins of open and expired contracts are held by the locked-coins account.
`owed` is what these contracts are owed in a denomination, and `excess` what the
account holds beyond it. No operation lowers the excess, as long as the account
itself signs nothing; an operation that sends no coins to the account besides
those of a new contract keeps the excess as it is.
-/

namespace Irishub.Htlc
open Lib Store Bank State
variable {sha256 : Bytes → Bytes} {s s' : State} {l : Bytes} {htlc htlc' : HTLC} {op : Op}

def HTLC.outstanding (htlc : HTLC) (d : String) : ℤ :=
  if htlc.state = .OPEN ∨ htlc.state = .EXPIRED then Coins.denomSum d htlc.amount else 0

def State.owed (s : State) (d : String) : ℤ :=
  Store.total (fun _ htlc => htlc.outstanding d) s.htlcs

def State.held (s : State) (d : String) : ℤ := s.bank.balance htlcLockedCoinsAccAddr d

def State.excess (s : State) (d : String) : ℤ := s.held d - s.owed d

/-- `GetSigners`. -/
def Op.signers : Op → List Address
  | .create msg => [msg.sender]
  | .claim msg => [msg.sender]
  | .refund msg => [msg.sender]
  | .send msg => msg.inputs.map Bank.InOut.address
  | .burn msg => [msg.owner]
  | .beginBlock => []

def Op.LocksOnly : Op → Prop
  | .create msg => msg.toAddr ≠ htlcLockedCoinsAccAddr
  | .send msg => ∀ x ∈ msg.outputs, x.address ≠ htlcLockedCoinsAccAddr
  | _ => True

section
variable {op : Op} {l : Bytes} {htlc : HTLC}

/-- What the checks on a create message establish for the contract under `hashLock`. -/
structure HTLC.WellFormed (hashLock : Bytes) (htlc : HTLC) : Prop where
  hashLock : hashLock.length = hashLockLength
  valid : htlc.amount.isValid = true
  positive : htlc.amount.isAllPositive = true

def State.Records (s : State) : Prop := ∀ l htlc, s.htlcs.get l = some htlc → htlc.WellFormed l

lemma MsgCreateHTLC.wellFormed {msg : MsgCreateHTLC} (hvalid : msg.validateBasic = .ok ())
    (blockHeight : ℕ) : (msg.htlc blockHeight).WellFormed msg.hashLock := by
  simp only [MsgCreateHTLC.validateBasic, bind_ok, require_ok, Bool.and_eq_true,
    decide_eq_true_eq] at hvalid
  obtain ⟨_, _, _, ⟨hamount, hpositive⟩, _, hlength, _⟩ := hvalid
  exact ⟨hlength, hamount, hpositive⟩

/-- What holds of the terms of all created contracts holds of all contracts. -/
lemma forall_terms_run {P : Bytes → Coins → Address → Address → Prop}
    (htables : Tables sha256 s) (hrun : op.run sha256 s = .ok s')
    (hcreate : ∀ msg, op = .create msg → msg.validateBasic = .ok () →
      P msg.hashLock msg.amount msg.sender msg.toAddr)
    (h : ∀ l htlc, s.htlcs.get l = some htlc → P l htlc.amount htlc.sender htlc.toAddr) :
    ∀ l htlc, s'.htlcs.get l = some htlc → P l htlc.amount htlc.sender htlc.toAddr := by
  cases op with
  | create msg =>
    obtain ⟨hvalid, _, bank, _, rfl⟩ := create_ok hrun
    exact forall_set h (hcreate msg rfl hvalid)
  | claim msg =>
    obtain ⟨htlc, bank, hget, _, _, _, rfl⟩ := claim_ok hrun
    exact forall_set h (h _ htlc hget)
  | refund msg =>
    obtain ⟨htlc, bank, hget, _, _, rfl⟩ := refund_eq_ok (run_refund hrun)
    exact forall_set h (h _ htlc hget)
  | send msg | burn msg =>
    obtain ⟨bank, _, rfl⟩ := withBank_ok hrun
    exact h
  | beginBlock =>
    cases hrun
    intro l htlc hget
    have htables' : Tables sha256 { s with height := s.height + 1 } := htables.of_eq rfl rfl
    rw [beginBlocker_htlcs htables'] at hget
    obtain ⟨old, hold, rfl⟩ := Option.map_eq_some_iff.mp hget
    split_ifs <;> exact h l old hold

lemma State.Records.run (h : s.Records) (htables : Tables sha256 s)
    (hrun : op.run sha256 s = .ok s') : s'.Records := by
  have hall := forall_terms_run
    (P := fun l amount _ _ => l.length = hashLockLength ∧ amount.isValid = true ∧
      amount.isAllPositive = true) htables hrun
    (fun msg _ hvalid => by
      obtain ⟨hlength, hamount, hpositive⟩ := msg.wellFormed hvalid s.height
      exact ⟨hlength, hamount, hpositive⟩)
    (fun l htlc hget => ⟨(h l htlc hget).hashLock, (h l htlc hget).valid, (h l htlc hget).positive⟩)
  intro l htlc hget
  obtain ⟨hlength, hamount, hpositive⟩ := hall l htlc hget
  exact ⟨hlength, hamount, hpositive⟩

/-- Parties of all contracts satisfy `P`. -/
def State.Parties (P : Address → Address → Prop) (s : State) : Prop :=
  ∀ l htlc, s.htlcs.get l = some htlc → P htlc.sender htlc.toAddr

lemma State.Parties.run {P : Address → Address → Prop} (h : s.Parties P)
    (htables : Tables sha256 s) (hrun : op.run sha256 s = .ok s')
    (hcreate : ∀ msg, op = .create msg → P msg.sender msg.toAddr) : s'.Parties P :=
  forall_terms_run (P := fun _ _ sender toAddr => P sender toAddr) htables hrun
    (fun msg hop _ => hcreate msg hop) h

lemma HTLC.WellFormed.denomSum_nonneg (h : htlc.WellFormed l)
    (d : String) : 0 ≤ Coins.denomSum d htlc.amount :=
  Coins.denomSum_nonneg (fun _ hc => (denomSum_of_isValid h.valid hc).2)

lemma HTLC.WellFormed.outstanding_nonneg (h : htlc.WellFormed l)
    (d : String) : 0 ≤ htlc.outstanding d := by
  rw [HTLC.outstanding]
  split_ifs
  · exact h.denomSum_nonneg d
  · exact le_rfl

lemma State.Records.denomSum_le_owed (h : s.Records)
    (hget : s.htlcs.get l = some htlc) (hstate : htlc.state = .OPEN ∨ htlc.state = .EXPIRED)
    (d : String) : Coins.denomSum d htlc.amount ≤ s.owed d := by
  have hle := le_total (f := fun _ htlc => HTLC.outstanding htlc d)
    (fun k v hk => (h k v hk).outstanding_nonneg d) hget
  rw [HTLC.outstanding, if_pos hstate] at hle
  exact hle

end

lemma owed_set (hget : s.htlcs.get l = some htlc)
    (hs' : s'.htlcs = s.htlcs.set l htlc') (d : String) :
    s'.owed d = s.owed d + htlc'.outstanding d - htlc.outstanding d := by
  rw [owed, hs', total_set, contribution, hget]
  rfl

lemma owed_foldl_expireHTLC {locks : List Bytes}
    (h : ∀ l ∈ locks, ∃ htlc, s.htlcs.get l = some htlc ∧
      (htlc.state = .OPEN ∨ htlc.state = .EXPIRED)) (d : String) :
    (locks.foldl expireHTLC s).owed d = s.owed d := by
  induction locks generalizing s with
  | nil => rfl
  | cons l locks ih =>
    obtain ⟨htlc, hget, hstate⟩ := h l (by simp)
    have hset : (s.expireHTLC l).htlcs = s.htlcs.set l { htlc with state := .EXPIRED } := by
      simp only [expireHTLC, hget, Option.getD_some]
      rfl
    have hstep : (s.expireHTLC l).owed d = s.owed d := by
      rw [owed_set hget hset, HTLC.outstanding, HTLC.outstanding, if_pos hstate,
        if_pos (Or.inr rfl)]
      ring
    rw [List.foldl_cons, ih, hstep]
    intro l' hl'
    rw [hset, get_set]
    split_ifs with heq
    · exact ⟨_, rfl, Or.inr rfl⟩
    · exact h l' (List.mem_cons_of_mem _ hl')

lemma owed_beginBlocker (h : Tables sha256 s) (d : String) : s.beginBlocker.owed d = s.owed d := by
  refine owed_foldl_expireHTLC (fun l hl => ?_) d
  obtain ⟨htlc, hget, hopen, _⟩ := (h.queued _ _).mp (h.mem_iterate.mp hl)
  exact ⟨htlc, hget, Or.inl hopen⟩

/-- A payment out of the account, to `addr`, of a contract that is then settled. -/
lemma excess_pay {addr : Address} {bank : Bank}
    (hs' : s'.htlcs = s.htlcs.set l htlc') (hbank : s'.bank = bank)
    (hget : s.htlcs.get l = some htlc) (hstate : htlc.state = .OPEN ∨ htlc.state = .EXPIRED)
    (hsettled : htlc'.Settled)
    (hsend : s.bank.sendCoins htlcLockedCoinsAccAddr addr htlc.amount = .ok bank) (d : String) :
    s'.excess d = s.excess d +
      if htlcLockedCoinsAccAddr = addr then Coins.denomSum d htlc.amount else 0 := by
  have howed := owed_set hget hs' d
  have hbal := balance_sendCoins hsend htlcLockedCoinsAccAddr d
  have hnew : htlc'.outstanding d = 0 := by
    rcases hsettled with hs | hs <;> simp [HTLC.outstanding, hs]
  have hold : htlc.outstanding d = Coins.denomSum d htlc.amount := if_pos hstate
  rw [hold, hnew] at howed
  rw [if_pos rfl] at hbal
  simp only [excess, held, hbank, howed, hbal]
  ring

def Outside (sender toAddr : Address) : Prop :=
  sender ≠ htlcLockedCoinsAccAddr ∧ toAddr ≠ htlcLockedCoinsAccAddr

/-- No operation lowers the excess; one that only locks coins keeps it. -/
lemma excess_run (hrecords : s.Records) (htables : Tables sha256 s)
    (hsigned : htlcLockedCoinsAccAddr ∉ op.signers) (hrun : op.run sha256 s = .ok s') (d : String) :
    s.excess d ≤ s'.excess d ∧ (s.Parties Outside → op.LocksOnly → s'.excess d = s.excess d) := by
  cases op with
  | create msg =>
    obtain ⟨_, hfree, bank, hsend, rfl⟩ := create_ok hrun
    have hsender : htlcLockedCoinsAccAddr ≠ msg.sender := fun heq =>
      hsigned (by simp [Op.signers, heq])
    have hbal := balance_sendCoins hsend htlcLockedCoinsAccAddr d
    rw [if_neg hsender, if_pos rfl] at hbal
    have howed : total (fun _ htlc => HTLC.outstanding htlc d)
        (s.htlcs.set msg.hashLock (msg.htlc s.height)) =
          s.owed d + Coins.denomSum d msg.amount := by
      rw [total_set, contribution, hfree]
      simp [owed, HTLC.outstanding, MsgCreateHTLC.htlc]
    have heq : ({ s with
        bank := bank
        htlcs := s.htlcs.set msg.hashLock (msg.htlc s.height)
        expireQueue := s.expireQueue.set
          (toLex ((msg.htlc s.height).expireHeight, msg.hashLock)) msg.hashLock } :
          State).excess d = s.excess d := by
      simp only [excess, held, owed] at howed ⊢
      rw [howed, hbal]
      ring
    exact ⟨heq.ge, fun _ _ => heq⟩
  | claim msg =>
    obtain ⟨htlc, bank, hget, hopen, _, hsend, hs'⟩ := claim_ok hrun
    have hpay := excess_pay (congrArg State.htlcs hs') (congrArg State.bank hs') hget
      (Or.inl hopen) (Or.inl rfl) hsend d
    have hnn := (hrecords _ _ hget).denomSum_nonneg d
    constructor
    · split_ifs at hpay <;> omega
    · intro hparties _
      rw [if_neg (fun heq => (hparties _ _ hget).2 heq.symm)] at hpay
      omega
  | refund msg =>
    obtain ⟨htlc, bank, hget, hexpired, hsend, hs'⟩ := refund_eq_ok (run_refund hrun)
    have hpay := excess_pay (congrArg State.htlcs hs') (congrArg State.bank hs') hget
      (Or.inr hexpired) (Or.inr rfl) hsend d
    have hnn := (hrecords _ _ hget).denomSum_nonneg d
    constructor
    · split_ifs at hpay <;> omega
    · intro hparties _
      rw [if_neg (fun heq => (hparties _ _ hget).1 heq.symm)] at hpay
      omega
  | send msg =>
    obtain ⟨bank, hbank, rfl⟩ := withBank_ok hrun
    obtain ⟨hmoved, _⟩ := deliverSend_ok hbank
    have hbal := balance_inputOutputCoins hmoved htlcLockedCoinsAccAddr d
    have hin : amountAt htlcLockedCoinsAccAddr d msg.inputs = 0 := by
      refine amountAt_eq_zero (fun x hx heq => hsigned ?_) d
      exact List.mem_map.mpr ⟨x, hx, heq⟩
    have hout : 0 ≤ amountAt htlcLockedCoinsAccAddr d msg.outputs := by
      obtain ⟨_, _, hadd⟩ := bind_ok.mp hmoved
      exact amountAt_nonneg (isValid_of_foldlM (f := addCoins)
        (fun _ _ _ _ h => isValid_of_addCoins h) hadd) d
    simp only [excess, held, owed]
    refine ⟨by omega, fun _ hlocks => ?_⟩
    have hzero := amountAt_eq_zero hlocks d
    omega
  | burn msg =>
    obtain ⟨bank, hbank, rfl⟩ := withBank_ok hrun
    obtain ⟨_, _, hsend⟩ := bind_ok.mp hbank
    have hbal := balance_sendCoins hsend htlcLockedCoinsAccAddr d
    have howner : htlcLockedCoinsAccAddr ≠ msg.owner := fun heq =>
      hsigned (by simp [Op.signers, heq])
    rw [if_neg howner, if_neg (by decide)] at hbal
    simp only [excess, held, owed]
    exact ⟨by omega, fun _ _ => by omega⟩
  | beginBlock =>
    cases hrun
    have htables' : Tables sha256 { s with height := s.height + 1 } := htables.of_eq rfl rfl
    have howed := owed_beginBlocker htables' d
    have hheld : ({ s with height := s.height + 1 } : State).beginBlocker.held d = s.held d := by
      rw [held, beginBlocker, (foldl_expireHTLC_frame _ _).1]
      rfl
    have heq : ({ s with height := s.height + 1 } : State).beginBlocker.excess d = s.excess d := by
      rw [excess, hheld, howed]
      rfl
    exact ⟨heq.ge, fun _ _ => heq⟩

/-- What is carried along a run that the locked-coins account signs nothing of. -/
structure Covered (sha256 : Bytes → Bytes) (s : State) : Prop where
  tables : Tables sha256 s
  records : s.Records
  excess : ∀ d, 0 ≤ s.excess d

lemma State.Genesis.covered (h : s.Genesis) : Covered sha256 s where
  tables := h.tables
  records l htlc hget := by simp [h.htlcs] at hget
  excess d := by
    rw [excess, owed, h.htlcs, total_empty, sub_zero]
    exact s.bank.balance_nonneg _ _

lemma Covered.run (h : Covered sha256 s)
    (hsigned : htlcLockedCoinsAccAddr ∉ op.signers) (hrun : op.run sha256 s = .ok s') :
    Covered sha256 s' where
  tables := h.tables.run hrun
  records := h.records.run h.tables hrun
  excess d := (h.excess d).trans (excess_run h.records h.tables hsigned hrun d).1

lemma Covered.runs {ops : List Op} (h : Covered sha256 s)
    (hsigned : ∀ op ∈ ops, htlcLockedCoinsAccAddr ∉ op.signers)
    (hrun : ops.foldlM (Op.run sha256) s = .ok s') : Covered sha256 s' := by
  have hloop : Sat AnyFault (Covered sha256) (ops.foldlM (Op.run sha256) s) :=
    Sat.foldlM ops s h
      (fun op hop t ht => Sat.of_forall (fun t' ht' => ht.run (hsigned op hop) ht'))
  exact hloop.of_ok hrun

lemma Covered.denomSum_le (h : Covered sha256 s)
    (hget : s.htlcs.get l = some htlc) (hstate : htlc.state = .OPEN ∨ htlc.state = .EXPIRED)
    (d : String) : Coins.denomSum d htlc.amount ≤ s.bank.balance htlcLockedCoinsAccAddr d := by
  have howed := h.records.denomSum_le_owed hget hstate d
  have hexcess := h.excess d
  rw [State.excess, State.held] at hexcess
  omega

/-- Escrow is solvent in every state of every run that the locked-coins account signs nothing
of, and no claim with the right secret and no refund fails for lack of coins. -/
theorem escrow_solvent {ops : List Op} (hs : s.Genesis)
    (hsigned : ∀ op ∈ ops, htlcLockedCoinsAccAddr ∉ op.signers)
    (hrun : ops.foldlM (Op.run sha256) s = .ok s') :
    (∀ d, s'.owed d ≤ s'.bank.balance htlcLockedCoinsAccAddr d) ∧
      (∀ l htlc secret, s'.htlcs.get l = some htlc → htlc.state = .OPEN →
        getHashLock sha256 secret htlc.timestamp = l →
        ∀ e, s'.claimHTLC sha256 l secret = .error e → e.IsPanic) ∧
      (∀ l htlc, s'.htlcs.get l = some htlc → htlc.state = .EXPIRED →
        ∀ e, s'.refundHTLC l = .error e → e.IsPanic) := by
  have hcovered : Covered sha256 s' := hs.covered.runs hsigned hrun
  have hsend : ∀ {l : Bytes} {htlc : HTLC} (addr : Address), s'.htlcs.get l = some htlc →
      htlc.state = .OPEN ∨ htlc.state = .EXPIRED →
      Sat Fault.IsPanic (fun _ => True) (s'.sendCoins htlcLockedCoinsAccAddr addr htlc.amount) := by
    intro l htlc addr hget hstate
    exact (sendCoins_isPanic (hcovered.denomSum_le hget hstate)).bind (fun _ _ => trivial)
  refine ⟨fun d => ?_, fun l htlc secret hget hopen hhash e he => ?_,
    fun l htlc hget hexp e he => ?_⟩
  · have hexcess := hcovered.excess d
    rw [excess, held] at hexcess
    omega
  · have hclaim : Sat Fault.IsPanic (fun _ => True) (s'.claimHTLC sha256 l secret) := by
      simp only [claimHTLC, getHTLC, hget, found, ok_bind, hopen, hhash, require,
        decide_true, if_true]
      exact (hsend htlc.toAddr hget (Or.inl hopen)).bind (fun _ _ => trivial)
    exact hclaim.of_error he
  · have hrefund : Sat Fault.IsPanic (fun _ => True) (s'.refundHTLC l) := by
      simp only [refundHTLC, getHTLC, hget, found, ok_bind, hexp, require, decide_true, if_true]
      exact (hsend htlc.sender hget (Or.inr hexp)).bind (fun _ _ => trivial)
    exact hrefund.of_error he

/-- Fifty blocks, in which the contract of `sampleCreate` expires. -/
def sampleBlocks : List Op := List.replicate 50 .beginBlock

/-- An expired contract is owed its amount, and the account holds it. -/
theorem escrow_solvent_sample :
    ∃ s', (sampleCreate sampleLock :: sampleBlocks).foldlM (Op.run sampleHash) sampleState =
        .ok s' ∧
      s'.owed "iris-atto" = 10 ∧
      s'.owed "iris-atto" ≤ s'.bank.balance htlcLockedCoinsAccAddr "iris-atto" := by
  obtain ⟨s', hs', htest⟩ := of_returns
    (p := fun s' : State => decide (s'.owed "iris-atto" = 10))
    (x := (sampleCreate sampleLock :: sampleBlocks).foldlM (Op.run sampleHash) sampleState)
    (by decide +kernel)
  have hsigned : ∀ op ∈ sampleCreate sampleLock :: sampleBlocks,
      htlcLockedCoinsAccAddr ∉ op.signers := by decide +kernel
  have hsolvent := escrow_solvent sampleState_genesis hsigned hs'
  exact ⟨s', hs', by simpa using htest, hsolvent.1 "iris-atto"⟩

end Irishub.Htlc
