import Irishub.Bank.Genesis
import Irishub.Htlc.Genesis
import Mathlib.Data.List.Pairwise

/-!
# HTLC: the exported balances

`ExportAppStateAndValidators` reads the accounts before it calls `ExportGenesis`,
whose refunds of expired contracts are therefore in no exported balance
(`app/v2/export.go`). The exported contracts are the open ones, and the balance
of the locked-coins account is that of all contracts which are not paid.
-/

namespace Irishub.Htlc
open Lib Store
variable {sha256 : Bytes → Bytes} {s s' : State}

/-- Parts of an exported application state that hold coins of contracts. -/
structure AppGenesis where
  accounts : List Bank.GenesisAccount
  htlcData : GenesisState

/-- `ExportAppStateAndValidators`, with the state after the refunds. -/
def State.exportAppState (s : State) : Outcome (State × AppGenesis) := do
  let accounts := s.bank.fileAccounts
  let (s, htlcGenesis) ← s.exportGenesis
  return (s, ⟨accounts, htlcGenesis⟩)

def amounts (d : String) (pending : Store String HTLC) : ℤ :=
  Store.total (fun _ htlc => Coins.denomSum d htlc.amount) pending

/-- Refunds that are due to `a`. -/
def State.refundsTo (s : State) (a : Address) (d : String) : ℤ :=
  Store.total (fun _ htlc => if htlc.state = .EXPIRED ∧ htlc.sender = a then
    Coins.denomSum d htlc.amount else 0) s.htlcs

/-- Exported balances contain the refunds of all expired contracts, and the exported balance
of the locked-coins account is that of the exported contracts. -/
def State.ExportConserves (s : State) : Prop :=
  ∃ after g, s.exportAppState = .ok (after, g) ∧
    (∀ a d, a ≠ htlcLockedCoinsAccAddr →
      Bank.genesisBalance g.accounts a d = s.bank.balance a d + s.refundsTo a d) ∧
    (∀ d, Bank.genesisBalance g.accounts htlcLockedCoinsAccAddr d =
      amounts d g.htlcData.pendingHTLCs)

def State.NoExpired (s : State) : Prop :=
  ∀ l htlc, s.htlcs.get l = some htlc → htlc.state ≠ .EXPIRED

def State.ApartLocks (s : State) : Prop :=
  ∀ l l' htlc htlc', s.htlcs.get l = some htlc → s.htlcs.get l' = some htlc' →
    htlc.state = .OPEN → htlc'.state = .OPEN →
    Bytes.before keyDelimiter l = Bytes.before keyDelimiter l' → l = l'

section
variable {pending : Store String HTLC}

def Funded (amount : Coins) : Prop :=
  (∀ d, 0 ≤ Coins.denomSum d amount) ∧ ∃ d, 0 < Coins.denomSum d amount

lemma HTLC.WellFormed.funded {l : Bytes} {htlc : HTLC} (h : htlc.WellFormed l) :
    Funded htlc.amount := by
  refine ⟨h.denomSum_nonneg, ?_⟩
  have hpositive := h.positive
  have hvalid := h.valid
  cases hamount : htlc.amount with
  | nil =>
    rw [hamount] at hpositive
    simp [Coins.isAllPositive] at hpositive
  | cons c cs =>
    rw [hamount] at hpositive hvalid
    simp only [Coins.isAllPositive, Bool.and_eq_true, List.all_eq_true] at hpositive
    have hc : 0 < c.amount := by simpa [Coin.isPositive] using hpositive.2 c (by simp)
    refine ⟨c.denom, ?_⟩
    rw [(Bank.denomSum_of_isValid hvalid (List.mem_cons_self)).1]
    exact hc

def openAmounts (d : String) (entries : List (Bytes × HTLC)) : ℤ :=
  (entries.map (fun e => if e.2.state = .OPEN then Coins.denomSum d e.2.amount else 0)).sum

def Fresh (pending : Store String HTLC) (entries : List (Bytes × HTLC)) : Prop :=
  (∀ e ∈ entries, e.2.state = .OPEN → pending.get (pendingKey e.1) = none) ∧
    entries.Pairwise (fun e e' => e.2.state = .OPEN → e'.2.state = .OPEN →
      pendingKey e.1 ≠ pendingKey e'.1)

lemma forall_eq_iff_of_le {f g h : String → ℤ} (hfg : ∀ d, f d ≤ g d) (hgh : ∀ d, g d ≤ h d) :
    (∀ d, f d = h d) ↔ (∀ d, f d = g d) ∧ ∀ d, g d = h d := by
  constructor
  · intro heq
    exact ⟨fun d => by have := heq d; have := hfg d; have := hgh d; omega,
      fun d => by have := heq d; have := hfg d; have := hgh d; omega⟩
  · rintro ⟨h1, h2⟩ d
    rw [h1, h2]

lemma amounts_set (h : ∀ k v, pending.get k = some v → Funded v.amount) (k : String) (htlc : HTLC) :
    (∀ d, amounts d (pending.set k htlc) ≤ amounts d pending + Coins.denomSum d htlc.amount) ∧
      ((∀ d, amounts d (pending.set k htlc) = amounts d pending + Coins.denomSum d htlc.amount) ↔
        pending.get k = none) := by
  simp only [amounts, total_set, Store.contribution]
  cases hget : pending.get k with
  | none => simp
  | some old =>
    obtain ⟨hnonneg, d0, hpos⟩ := h k old hget
    simp only [Option.elim_some, reduceCtorEq, iff_false]
    refine ⟨fun d => ?_, fun heq => ?_⟩
    · have := hnonneg d
      omega
    · have := heq d0
      omega

/-- Written contracts hold as much as the open ones only if none replaces another. -/
lemma amounts_pendingOf (blockHeight : ℕ)
    {entries : List (Bytes × HTLC)} (hpending : ∀ k v, pending.get k = some v → Funded v.amount)
    (hentries : ∀ e ∈ entries, Funded e.2.amount) :
    (∀ d, amounts d (pendingOf blockHeight pending entries) ≤
        amounts d pending + openAmounts d entries) ∧
      ((∀ d, amounts d (pendingOf blockHeight pending entries) =
        amounts d pending + openAmounts d entries) ↔ Fresh pending entries) := by
  induction entries generalizing pending with
  | nil => simp [pendingOf, openAmounts, Fresh]
  | cons e entries ih =>
    obtain ⟨hfunded, hrest⟩ := List.forall_mem_cons.mp hentries
    by_cases hopen : e.2.state = .OPEN
    · -- one more contract is written: the step, and then the rest over the larger table
      have hsum : ∀ d, openAmounts d (e :: entries) =
          Coins.denomSum d e.2.amount + openAmounts d entries := by
        intro d
        simp [openAmounts, hopen]
      obtain ⟨hstep, hstep_iff⟩ := amounts_set hpending (pendingKey e.1) (e.2.exported blockHeight)
      have hpending' : ∀ k v,
          (pending.set (pendingKey e.1) (e.2.exported blockHeight)).get k = some v →
            Funded v.amount := forall_set hpending hfunded
      obtain ⟨hle, hiff⟩ := ih hpending' hrest
      have hle' : ∀ d, amounts d (pending.set (pendingKey e.1) (e.2.exported blockHeight)) +
          openAmounts d entries ≤ amounts d pending + openAmounts d (e :: entries) := by
        intro d
        have hd : _ ≤ amounts d pending + Coins.denomSum d e.2.amount := hstep d
        rw [hsum]
        omega
      rw [pendingOf, if_pos hopen]
      refine ⟨fun d => (hle d).trans (hle' d), ?_⟩
      rw [forall_eq_iff_of_le hle hle', hiff]
      have hlast : (∀ d, amounts d (pending.set (pendingKey e.1) (e.2.exported blockHeight)) +
          openAmounts d entries = amounts d pending + openAmounts d (e :: entries)) ↔
            pending.get (pendingKey e.1) = none := by
        rw [← hstep_iff]
        refine forall_congr' (fun d => ?_)
        have hamount : (e.2.exported blockHeight).amount = e.2.amount := rfl
        rw [hsum, hamount]
        constructor <;> intro heq <;> omega
      rw [hlast, Fresh, Fresh, List.forall_mem_cons, List.pairwise_cons]
      constructor
      · rintro ⟨⟨hnew, hapart⟩, hfree⟩
        have hsplit : ∀ e' ∈ entries, e'.2.state = .OPEN →
            pendingKey e.1 ≠ pendingKey e'.1 ∧ pending.get (pendingKey e'.1) = none := by
          intro e' he' hopen'
          have hget := hnew e' he' hopen'
          rw [get_set] at hget
          split_ifs at hget with hkey
          exact ⟨fun heq => hkey heq.symm, hget⟩
        exact ⟨⟨fun _ => hfree, fun e' he' hopen' => (hsplit e' he' hopen').2⟩,
          fun e' he' _ hopen' => (hsplit e' he' hopen').1, hapart⟩
      · rintro ⟨⟨hfree, hnew⟩, hfirst, hapart⟩
        refine ⟨⟨fun e' he' hopen' => ?_, hapart⟩, hfree hopen⟩
        rw [get_set_ne _ _ (hfirst e' he' hopen hopen').symm]
        exact hnew e' he' hopen'
    · have hsum : ∀ d, openAmounts d (e :: entries) = openAmounts d entries := by
        intro d
        simp [openAmounts, hopen]
      simp only [pendingOf, if_neg hopen, hsum]
      obtain ⟨hle, hiff⟩ := ih hpending hrest
      refine ⟨hle, hiff.trans ?_⟩
      simp [Fresh, hopen]

end

lemma openAmounts_owed (h : s.Records) : (∀ d, openAmounts d s.htlcs.entries ≤ s.owed d) ∧
      ((∀ d, openAmounts d s.htlcs.entries = s.owed d) ↔ s.NoExpired) := by
  have hsplit : ∀ d, s.owed d = openAmounts d s.htlcs.entries +
      Store.total (fun _ htlc => if htlc.state = .EXPIRED then
        Coins.denomSum d htlc.amount else 0) s.htlcs := by
    intro d
    refine Eq.trans ?_ (total_add (fun _ htlc => if htlc.state = .OPEN then
      Coins.denomSum d htlc.amount else 0) _ s.htlcs)
    refine total_congr (fun l htlc _ => ?_)
    cases hstate : htlc.state <;> simp [HTLC.outstanding, hstate]
  have hexpired : ∀ d l htlc, s.htlcs.get l = some htlc →
      0 ≤ if htlc.state = .EXPIRED then Coins.denomSum d htlc.amount else 0 := by
    intro d l htlc hget
    split_ifs
    · exact (h l htlc hget).denomSum_nonneg d
    · exact le_rfl
  refine ⟨fun d => ?_, fun heq l htlc hget hstate => ?_, fun hnone d => ?_⟩
  · have hnn := total_nonneg (hexpired d)
    have hd := hsplit d
    omega
  · obtain ⟨_, d, hpos⟩ := (h l htlc hget).funded
    have hle := le_total (hexpired d) hget
    rw [if_pos hstate] at hle
    have hd := hsplit d
    have := heq d
    omega
  · rw [hsplit d, total_congr (g := fun _ _ => 0) (fun l htlc hget => if_neg (hnone l htlc hget))]
    simp [Store.total]

lemma fresh_entries_iff : Fresh .empty s.htlcs.entries ↔ s.ApartLocks := by
  constructor
  · rintro ⟨_, hapart⟩ l l' htlc htlc' hget hget' hopen hopen' hcut
    by_contra hne
    have hsymm : Std.Symm (fun e e' : Bytes × HTLC => e.2.state = .OPEN → e'.2.state = .OPEN →
        pendingKey e.1 ≠ pendingKey e'.1) :=
      ⟨fun e e' hR hopen' hopen heq => hR hopen hopen' heq.symm⟩
    have hR := hapart.forall (mem_entries.mpr hget) (mem_entries.mpr hget')
      (fun heq => hne (congrArg Prod.fst heq))
    exact hR hopen hopen' (congrArg Bytes.hexEncode hcut)
  · intro hapart
    refine ⟨by simp, ?_⟩
    have hnodup : s.htlcs.entries.Nodup := s.htlcs.nodup_keys.of_map
    refine hnodup.pairwise_of_forall_ne (fun e he e' he' hne hopen hopen' hkey => hne ?_)
    have hcut := Bytes.hexEncode_injective hkey
    obtain ⟨l, htlc⟩ := e
    obtain ⟨l', htlc'⟩ := e'
    have hget := mem_entries.mp he
    have hget' := mem_entries.mp he'
    obtain rfl : l = l' := hapart l l' htlc htlc' hget hget' hopen hopen' hcut
    rw [hget, Option.some.injEq] at hget'
    rw [hget']

lemma exportHTLCs_of_noExpired {entries : List (Bytes × HTLC)}
    (h : ∀ e ∈ entries, e.2.state ≠ .EXPIRED) (pending : Store String HTLC) :
    ∃ pending', s.exportHTLCs pending entries = .ok (s, pending') := by
  induction entries generalizing pending with
  | nil => exact ⟨pending, rfl⟩
  | cons e entries ih =>
    obtain ⟨hfirst, hrest⟩ := List.forall_mem_cons.mp h
    obtain ⟨pending', hr⟩ := ih hrest (if e.2.state = .OPEN then
      pending.set (pendingKey e.1) (e.2.exported s.height) else pending)
    exact ⟨pending', exportHTLCs_cons.mpr ⟨s, by rw [if_neg hfirst], hr⟩⟩

lemma exportAppState_ok {g : AppGenesis} (h : s.exportAppState = .ok (s', g)) :
    g.accounts = s.bank.fileAccounts ∧
      g.htlcData.pendingHTLCs = pendingOf s.height .empty s.htlcs.entries := by
  simp only [State.exportAppState, bind_ok, pure_eq_ok, Prod.mk.injEq, Prod.exists] at h
  obtain ⟨t, data, hexport, rfl, rfl⟩ := h
  exact ⟨rfl, (exportGenesis_eq_ok hexport).2⟩

/-- When the exported balance is that of the written contracts, in a solvent state. -/
lemma Covered.held_eq_iff (h : Covered sha256 s) :
    (∀ d, amounts d (pendingOf s.height .empty s.htlcs.entries) = s.held d) ↔
      s.ApartLocks ∧ s.NoExpired ∧ ∀ d, s.excess d = 0 := by
  have hfunded : ∀ e ∈ s.htlcs.entries, Funded e.2.amount := fun e he =>
    (h.records e.1 e.2 (mem_entries.mp he)).funded
  have hnone : ∀ k v, (Store.empty : Store String HTLC).get k = some v → Funded v.amount := by simp
  obtain ⟨hwritten, hwritten_iff⟩ := amounts_pendingOf s.height hnone hfunded
  obtain ⟨howed, howed_iff⟩ := openAmounts_owed h.records
  have hempty : ∀ d, amounts d .empty = 0 := fun _ => rfl
  simp only [hempty, zero_add] at hwritten hwritten_iff
  have hheld : ∀ d, s.owed d ≤ s.held d := fun d => sub_nonneg.mp (h.excess d)
  have hexcess : (∀ d, s.owed d = s.held d) ↔ ∀ d, s.excess d = 0 :=
    forall_congr' (fun d => by rw [State.excess, sub_eq_zero, eq_comm])
  rw [forall_eq_iff_of_le hwritten (fun d => (howed d).trans (hheld d)),
    forall_eq_iff_of_le howed hheld, hwritten_iff, howed_iff, hexcess, fresh_entries_iff]

lemma State.NoExpired.refundsTo_eq_zero (h : s.NoExpired) (a : Address) (d : String) :
    s.refundsTo a d = 0 := by
  rw [State.refundsTo, total_congr (g := fun _ _ => 0)
    (fun l htlc hget => if_neg (fun hstate => h l htlc hget hstate.1))]
  simp [Store.total]

/-- Over every run that the locked-coins account signs nothing of, from a chain without contracts,
the export conserves the coins of contracts exactly when no contract is expired, no two open ones
have hash locks that are cut to the same, and the locked-coins account holds nothing else. -/
theorem exportConserves_iff {ops : List Op} (hs : s.Genesis)
    (hsigned : ∀ op ∈ ops, htlcLockedCoinsAccAddr ∉ op.signers)
    (hrun : ops.foldlM (Op.run sha256) s = .ok s') :
    s'.ExportConserves ↔ s'.ApartLocks ∧ s'.NoExpired ∧ ∀ d, s'.excess d = 0 := by
  have hcovered : Covered sha256 s' := hs.covered.runs hsigned hrun
  constructor
  · rintro ⟨after, g, hexport, _, hlocked⟩
    obtain ⟨haccounts, hpending⟩ := exportAppState_ok hexport
    refine hcovered.held_eq_iff.mp (fun d => ?_)
    rw [← hpending, ← hlocked d, haccounts, Bank.genesisBalance_fileAccounts]
    rfl
  · intro hcond
    have hentries : ∀ e ∈ s'.htlcs.entries, e.2.state ≠ .EXPIRED := fun e he =>
      hcond.2.1 e.1 e.2 (mem_entries.mp he)
    obtain ⟨pending, hloop⟩ := exportHTLCs_of_noExpired (s := s') hentries .empty
    have hexport : s'.exportAppState = .ok (s', ⟨s'.bank.fileAccounts, ⟨pending⟩⟩) := by
      simp only [State.exportAppState, State.exportGenesis, hloop, bind_pure_comp, Except.map_ok]
    refine ⟨_, _, hexport, fun a d _ => ?_, fun d => ?_⟩
    · rw [Bank.genesisBalance_fileAccounts, hcond.2.1.refundsTo_eq_zero, add_zero]
    · rw [Bank.genesisBalance_fileAccounts, (exportAppState_ok hexport).2]
      exact (hcovered.held_eq_iff.mpr hcond d).symm

lemma excess_eq_zero_of_locksOnly {ops : List Op} (hs : s.Genesis) (hheld : ∀ d, s.held d = 0)
    (hops : ∀ op ∈ ops, htlcLockedCoinsAccAddr ∉ op.signers ∧ op.LocksOnly)
    (hrun : ops.foldlM (Op.run sha256) s = .ok s') (d : String) : s'.excess d = 0 := by
  have hloop : Sat AnyFault (fun t => Covered sha256 t ∧ t.Parties Outside ∧ ∀ d, t.excess d = 0)
      (ops.foldlM (Op.run sha256) s) := by
    refine Sat.foldlM ops s ⟨hs.covered, ?_, fun d => ?_⟩ (fun op hop t ht => ?_)
    · intro l htlc hget
      simp [hs.htlcs] at hget
    · rw [State.excess, hheld, State.owed, hs.htlcs, total_empty, sub_zero]
    · obtain ⟨hsigned, hlocks⟩ := hops op hop
      obtain ⟨hcovered, hparties, hexcess⟩ := ht
      refine Sat.of_forall (fun t' ht' => ⟨hcovered.run hsigned ht', ?_, fun d => ?_⟩)
      · refine hparties.run hcovered.tables ht' (fun msg hmsg => ?_)
        subst hmsg
        exact ⟨fun heq => hsigned (by simp [Op.signers, heq]), hlocks⟩
      · rw [(excess_run hcovered.records hcovered.tables hsigned ht' d).2 hparties hlocks]
        exact hexcess d
  exact (hloop.of_ok hrun).2.2 d

/-- Contract of account 1 has expired at the export: its ten units are in the exported balance
of the locked-coins account, but neither in that of account 1 nor in an exported contract. -/
theorem expired_refund_is_lost :
    ∃ s', (sampleCreate sampleLock :: sampleBlocks).foldlM (Op.run sampleHash) sampleState =
        .ok s' ∧
      s'.refundsTo 1 "iris-atto" = 10 ∧ ∃ after g, s'.exportAppState = .ok (after, g) ∧
        Bank.genesisBalance g.accounts 1 "iris-atto" = 990 ∧ s'.bank.balance 1 "iris-atto" = 990 ∧
        Bank.genesisBalance g.accounts htlcLockedCoinsAccAddr "iris-atto" = 10 ∧
        amounts "iris-atto" g.htlcData.pendingHTLCs = 0 := by
  obtain ⟨s', hs', htest⟩ := of_returns
    (p := fun s' : State => decide (s'.refundsTo 1 "iris-atto" = 10) &&
      returns (fun r : State × AppGenesis =>
        decide (Bank.genesisBalance r.2.accounts 1 "iris-atto" = 990 ∧
          s'.bank.balance 1 "iris-atto" = 990 ∧
          Bank.genesisBalance r.2.accounts htlcLockedCoinsAccAddr "iris-atto" = 10 ∧
          amounts "iris-atto" r.2.htlcData.pendingHTLCs = 0)) s'.exportAppState)
    (x := (sampleCreate sampleLock :: sampleBlocks).foldlM (Op.run sampleHash) sampleState)
    (by decide +kernel)
  rw [Bool.and_eq_true, decide_eq_true_eq] at htest
  obtain ⟨⟨after, g⟩, hexport, hg⟩ := of_returns htest.2
  rw [decide_eq_true_eq] at hg
  exact ⟨s', hs', htest.1, after, g, hexport, hg⟩

/-- With one open contract and nothing expired the export conserves the coins. -/
theorem exportConserves_sample :
    ∃ s', [sampleCreate sampleLock].foldlM (Op.run sampleHash) sampleState = .ok s' ∧
      s'.ExportConserves := by
  obtain ⟨s', hs', htest⟩ := of_returns
    (p := fun s' : State => s'.htlcs.entries.all
      (fun e => decide (e.1 = sampleLock ∧ e.2.state ≠ .EXPIRED)))
    (x := [sampleCreate sampleLock].foldlM (Op.run sampleHash) sampleState) (by decide +kernel)
  rw [List.all_eq_true] at htest
  have hentry : ∀ l htlc, s'.htlcs.get l = some htlc → l = sampleLock ∧ htlc.state ≠ .EXPIRED :=
    fun l htlc hget => of_decide_eq_true (htest (l, htlc) (mem_entries.mpr hget))
  have hheld : ∀ d, sampleState.held d = 0 := fun _ => rfl
  have hops : ∀ op ∈ [sampleCreate sampleLock],
      htlcLockedCoinsAccAddr ∉ op.signers ∧ op.LocksOnly := by
    rw [List.forall_mem_singleton]
    exact ⟨by decide, show (2 : Address) ≠ htlcLockedCoinsAccAddr by decide⟩
  have hexcess := excess_eq_zero_of_locksOnly sampleState_genesis hheld hops hs'
  refine ⟨s', hs', (exportConserves_iff sampleState_genesis (by decide +kernel) hs').mpr
    ⟨fun l l' htlc htlc' hget hget' _ _ _ => ?_, fun l htlc hget => (hentry l htlc hget).2,
      hexcess⟩⟩
  rw [(hentry l htlc hget).1, (hentry l' htlc' hget').1]

end Irishub.Htlc
