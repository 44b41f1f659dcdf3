import Irishub.Slashing.Signatures
import Irishub.Stake.Writes
import Mathlib.Data.List.Perm.Subperm

/-!
# Slashing: the counting of missed blocks

The counter of a signing info is kept beside the bit array it summarises. A
signature changes one bit and moves the counter along; a punished downtime clears
both; other operations touch neither, apart from opening a new signing info. A
proposal that changes the window changes which bits count, but no counter, so the
two stay equal exactly when no missed bit lies between the old and the new window.

To say what was really missed, a run keeps a log of the signatures since the last
punishment of each validator. The bit at an index is the newest signature logged
there.
-/

namespace Irishub.Slashing
open Lib Relation Store List State
open Stake (Env Signing ValidatorSigningInfo appHooks)

section
namespace State
variable (s : State) (addr : Address)

def missedIndexes : List ℤ :=
  (s.missedBlocks.entries.filter (fun e =>
    decide ((ofLex e.1).1 = addr ∧ (ofLex e.1).2 < s.params.signedBlocksWindow) && e.2)).map
    (fun e => (ofLex e.1).2)

def CountsMissed : Prop :=
  ∀ addr info, s.chain.slashing.signingInfos.get addr = some info →
    info.missedBlocksCounter = (s.missedIndexes addr).length

end State

variable {s s' : State} {addr : Address} {i : ℤ}

lemma mem_missedIndexes : i ∈ s.missedIndexes addr ↔
    i < s.params.signedBlocksWindow ∧ s.getValidatorMissedBlockBitArray addr i = true := by
  unfold missedIndexes getValidatorMissedBlockBitArray
  simp only [mem_map, mem_filter, Bool.and_eq_true, decide_eq_true_eq]
  constructor
  · rintro ⟨⟨k, missed⟩, ⟨hmem, ⟨haddr, hlt⟩, hmissed⟩, hi⟩
    have hk : k = toLex (addr, i) := by
      rw [← haddr, ← hi]
      rfl
    rw [mem_entries, hk] at hmem
    simp only at hmissed
    exact ⟨hi ▸ hlt, by rw [hmem, hmissed]; rfl⟩
  · rintro ⟨hlt, hbit⟩
    cases hget : s.missedBlocks.get (toLex (addr, i)) with
    | none => simp [hget] at hbit
    | some missed =>
      rw [hget, Option.getD_some] at hbit
      exact ⟨(toLex (addr, i), missed), ⟨mem_entries.mpr hget, ⟨rfl, hlt⟩, hbit⟩, rfl⟩

lemma nodup_missedIndexes (s : State) (addr : Address) : (s.missedIndexes addr).Nodup := by
  refine Nodup.map_on ?_ ((Nodup.of_map _ s.missedBlocks.nodup_keys).filter _)
  intro e he e' he' h
  simp only [mem_filter, Bool.and_eq_true, decide_eq_true_eq] at he he'
  have hkey : e.1 = e'.1 := by
    have hpair : ofLex e.1 = ofLex e'.1 := Prod.ext (he.2.1.1.trans he'.2.1.1.symm) h
    exact ofLex.injective hpair
  exact Prod.ext hkey (he.2.2.trans he'.2.2.symm)

lemma bit_set (s : State) (addr a : Address) (index i : ℤ) (missed : Bool) :
    (s.setValidatorMissedBlockBitArray addr index missed).getValidatorMissedBlockBitArray a i =
      if a = addr ∧ i = index then missed else s.getValidatorMissedBlockBitArray a i := by
  unfold getValidatorMissedBlockBitArray setValidatorMissedBlockBitArray
  simp only [get_set, toLex_inj, Prod.mk.injEq]
  split_ifs <;> rfl

lemma bit_clear (s : State) (addr a : Address) (i : ℤ) :
    (s.clearValidatorMissedBlockBitArray addr).getValidatorMissedBlockBitArray a i =
      if a = addr then false else s.getValidatorMissedBlockBitArray a i := by
  have hclear : (s.clearValidatorMissedBlockBitArray addr).missedBlocks =
      s.missedBlocks.filter (fun k => !decide ((ofLex k).1 = addr)) :=
    s.missedBlocks.foldl_delete_filter (fun k : Address ×ₗ ℤ => decide ((ofLex k).1 = addr))
  unfold getValidatorMissedBlockBitArray
  rw [hclear, get_filter]
  by_cases ha : a = addr
  · simp [ha]
  · simp [ha]

lemma length_missedIndexes_congr (hwindow : s'.params.signedBlocksWindow =
      s.params.signedBlocksWindow) (h : ∀ i, s'.getValidatorMissedBlockBitArray addr i =
      s.getValidatorMissedBlockBitArray addr i) :
    (s'.missedIndexes addr).length = (s.missedIndexes addr).length := by
  refine Perm.length_eq ((perm_ext_iff_of_nodup (nodup_missedIndexes s' addr)
    (nodup_missedIndexes s addr)).mpr (fun i => ?_))
  rw [mem_missedIndexes, mem_missedIndexes, hwindow, h]

/-- One more block is missed when its bit in the window is set. -/
lemma length_missedIndexes_succ (h : ∀ j, s'.getValidatorMissedBlockBitArray addr j =
      if j = i then true else s.getValidatorMissedBlockBitArray addr j)
    (hbit : s.getValidatorMissedBlockBitArray addr i = false)
    (hwindow : s'.params.signedBlocksWindow = s.params.signedBlocksWindow)
    (hi : i < s.params.signedBlocksWindow) :
    (s'.missedIndexes addr).length = (s.missedIndexes addr).length + 1 := by
  have hnew : i ∉ s.missedIndexes addr := by simp [mem_missedIndexes, hbit]
  have hperm : (s'.missedIndexes addr).Perm (i :: s.missedIndexes addr) := by
    refine (perm_ext_iff_of_nodup (nodup_missedIndexes s' addr)
      (nodup_cons.mpr ⟨hnew, nodup_missedIndexes s addr⟩)).mpr (fun j => ?_)
    rw [mem_cons, mem_missedIndexes, mem_missedIndexes, hwindow, h]
    by_cases hj : j = i
    · simp [hj, hi]
    · simp [hj]
  exact hperm.length_eq

lemma length_missedIndexes_eq_zero (h : ∀ i, s.getValidatorMissedBlockBitArray addr i = false) :
    (s.missedIndexes addr).length = 0 := by
  refine length_eq_zero_iff.mpr (eq_nil_iff_forall_not_mem.mpr (fun i hi => ?_))
  have hbit := (mem_missedIndexes.mp hi).2
  rw [h] at hbit
  cases hbit

end

section

/-- A block that a validator should have signed, and where this is noted. -/
structure Signature where
  consAddr : Address
  height : ℤ
  index : ℤ
  missed : Bool
  deriving DecidableEq

def newestAt (log : List Signature) (addr : Address) (index : ℤ) : Option Signature :=
  log.find? (fun e => e.consAddr == addr && e.index == index)

/-- A state with the signatures since the last punishment of each validator, newest first. -/
structure Observed where
  state : State
  log : List Signature

/-- What reaches the slashing keeper: the votes and the evidence of a begin blocker, a censoring
proposer in an end blocker, parameter proposals, and the operations of the other keepers. -/
inductive Op
  | signature (vote : State.VoteInfo)
  | doubleSign (evidence : State.Evidence)
  | censorship (address : Address) (infractionHeight : ℤ)
  | changeParam (change : ParamChange)
  | chain (op : {op : Stake.Op // ∀ addr info, op ≠ .setSigningInfo addr info})

variable (env : Env) (mainnet : Bool)

/-- State after an operation. -/
def Op.run (s : State) : Op → Outcome State
  | signature vote => s.handleValidatorSignature env vote.address vote.power vote.signedLastBlock
  | doubleSign evidence => s.handleDoubleSign env evidence.address evidence.height evidence.power
  | censorship address infractionHeight => s.handleProposerCensorship env address infractionHeight
  | changeParam change => s.changeParam mainnet change
  | chain op => do
    let chain ← op.1.run env (appHooks env) s.chain
    return { s with chain := chain }

def Observed.entry (o : Observed) (vote : State.VoteInfo) (info : ValidatorSigningInfo) :
    Signature where
  consAddr := vote.address
  height := o.state.chain.height
  index := o.state.signatureIndex info
  missed := !vote.signedLastBlock

def Observed.punishes (o : Observed) (vote : State.VoteInfo) (info : ValidatorSigningInfo) : Bool :=
  let (s, info) := o.state.recordSignature vote.address info vote.signedLastBlock
  match s.downtimeConfirmed vote.address info with
  | .ok confirmed => confirmed
  | .error _ => false

/-- Log after an operation. -/
def Observed.logAfter (o : Observed) : Op → List Signature
  | .signature vote =>
    match o.state.chain.slashing.signingInfos.get vote.address with
    | none => o.log
    | some info =>
      if o.punishes vote info then o.log.filter (fun e => e.consAddr ≠ vote.address)
      else o.entry vote info :: o.log
  | _ => o.log

def Observed.step (o : Observed) (op : Op) : Outcome Observed := do
  let s ← op.run env mainnet o.state
  return ⟨s, o.logAfter op⟩

def run (o : Observed) (ops : List Op) : Outcome Observed :=
  ops.foldlM (fun o op => o.step env mainnet op) o

/-- Start of a chain. -/
structure Observed.Genesis (o : Observed) : Prop where
  chain : o.state.chain.Genesis
  signingInfos : o.state.chain.slashing.signingInfos = Store.empty
  missedBlocks : o.state.missedBlocks = Store.empty
  params : validateParams mainnet o.state.params = .ok ()
  log : o.log = []

lemma beginBlocker_eq_run (s : State) (votes : List VoteInfo)
    (byzantineValidators : List Evidence) : s.beginBlocker env votes byzantineValidators =
      (votes.map Op.signature ++ byzantineValidators.map Op.doubleSign).foldlM
        (fun s op => op.run env mainnet s) s := by
  simp only [beginBlocker, foldlM_append, foldlM_map]
  rfl

def KeepsMissed (s : State) : Op → Prop
  | .changeParam (.signedBlocksWindow p) => ∀ addr i,
      min s.params.signedBlocksWindow p ≤ i → i < max s.params.signedBlocksWindow p →
      s.getValidatorMissedBlockBitArray addr i = false
  | _ => True

/-- The log, the bits and the signing infos fit together. -/
structure Observed.Sound (o : Observed) : Prop where
  proper : o.state.chain.Proper
  window : 0 < o.state.params.signedBlocksWindow
  unopened : ∀ addr, o.state.chain.slashing.signingInfos.get addr = none →
    ∀ i, o.state.getValidatorMissedBlockBitArray addr i = false
  logged : ∀ addr i, o.state.getValidatorMissedBlockBitArray addr i =
    (newestAt o.log addr i).any Signature.missed

end

section
variable {env : Env} {s s' : State} {addr : Address} {chain chain' : Stake.State}
  {infractionHeight power : ℤ} {fraction : Dec}

/-- The bits, the window and the counters are the same, apart from counters of new infos. -/
structure Quiet (s s' : State) : Prop where
  missedBlocks : s'.missedBlocks = s.missedBlocks
  window : s'.params.signedBlocksWindow = s.params.signedBlocksWindow
  proper : s'.chain.Proper
  counter : ∀ addr info', s'.chain.slashing.signingInfos.get addr = some info' →
    (∃ info, s.chain.slashing.signingInfos.get addr = some info ∧
      info'.missedBlocksCounter = info.missedBlocksCounter) ∨
    s.chain.slashing.signingInfos.get addr = none ∧ info'.missedBlocksCounter = 0
  unopened : ∀ addr, s'.chain.slashing.signingInfos.get addr = none →
    s.chain.slashing.signingInfos.get addr = none

lemma Quiet.refl (h : s.chain.Proper) : Quiet s s :=
  ⟨rfl, rfl, h, fun _ info' hinfo => .inl ⟨info', hinfo, rfl⟩, fun _ h => h⟩

lemma Quiet.of_signing (h : Signing s.chain chain) (hproper : chain.Proper) :
    Quiet s { s with chain := chain } := by
  refine ⟨rfl, rfl, hproper, fun addr info' hinfo => ?_, fun addr hnone => ?_⟩
  · rcases h addr with heq | ⟨hnone, height, hnew⟩
    · exact .inl ⟨info', heq ▸ hinfo, rfl⟩
    · rw [hnew, Option.some.injEq] at hinfo
      exact .inr ⟨hnone, hinfo ▸ rfl⟩
  · rcases h addr with heq | ⟨h, _⟩
    · exact heq ▸ hnone
    · exact h

lemma Quiet.setInfo (h : Quiet s s') {info info' : ValidatorSigningInfo}
    (hinfo : s'.chain.slashing.signingInfos.get addr = some info)
    (hcounter : info'.missedBlocksCounter = info.missedBlocksCounter) :
    Quiet s (s'.setValidatorSigningInfo addr info') := by
  refine ⟨h.missedBlocks, h.window, h.proper, fun a i hi => ?_, fun a hnone => ?_⟩
  · simp only [setValidatorSigningInfo, Stake.State.setValidatorSigningInfo, get_set] at hi
    split_ifs at hi with ha
    · rw [Option.some.injEq] at hi
      rw [← hi, hcounter, ha]
      exact h.counter addr info hinfo
    · exact h.counter a i hi
  · simp only [setValidatorSigningInfo, Stake.State.setValidatorSigningInfo, get_set] at hnone
    split_ifs at hnone with ha
    exact h.unopened a hnone

lemma Quiet.bits (h : Quiet s s') (addr : Address) (i : ℤ) :
    s'.getValidatorMissedBlockBitArray addr i = s.getValidatorMissedBlockBitArray addr i := by
  unfold getValidatorMissedBlockBitArray
  rw [h.missedBlocks]

lemma Quiet.countsMissed (h : Quiet s s') (hs : s.CountsMissed)
    (hunopened : ∀ addr, s.chain.slashing.signingInfos.get addr = none →
      ∀ i, s.getValidatorMissedBlockBitArray addr i = false) : s'.CountsMissed := by
  intro addr info' hinfo'
  rw [length_missedIndexes_congr h.window (h.bits addr)]
  rcases h.counter addr info' hinfo' with ⟨info, hinfo, hcounter⟩ | ⟨hnone, hcounter⟩
  · rw [hcounter]
    exact hs addr info hinfo
  · rw [hcounter, length_missedIndexes_eq_zero (hunopened addr hnone)]
    rfl

lemma Quiet.sound {log : List Signature} (h : Quiet s s') (hs : Observed.Sound ⟨s, log⟩) :
    Observed.Sound ⟨s', log⟩ := by
  refine ⟨h.proper, ?_, fun addr hnone i => ?_, fun addr i => ?_⟩
  · simp only [h.window]
    exact hs.window
  · rw [h.bits]
    exact hs.unopened addr (h.unopened addr hnone) i
  · rw [h.bits]
    exact hs.logged addr i

lemma signing_of_run (env : Env) (op : Stake.Op)
    (hop : ∀ addr info, op ≠ .setSigningInfo addr info) (hproper : chain.Proper)
    (h : op.run env (appHooks env) chain = .ok chain') : Signing chain chain' ∧ chain'.Proper :=
  ⟨Stake.signing_of_op hproper hop h, Stake.proper_of_op hproper h⟩

lemma quiet_of_punish (hproper : s.chain.Proper) {validator : Stake.Validator}
    {distributionHeight duration : ℤ}
    (h : s.punish env validator addr distributionHeight power fraction duration = .ok s') :
    Quiet s s' := by
  simp only [punish, bind_ok, deref_ok, pure_eq_ok] at h
  obtain ⟨chain1, hslash, chain2, hjail, info, hinfo, rfl⟩ := h
  obtain ⟨hsigning1, hproper1⟩ := signing_of_run env (.slash _ _ _ _) (by simp) hproper hslash
  have hjailed : Signing chain1 chain2 ∧ chain2.Proper := by
    split_ifs at hjail
    · cases hjail
      exact ⟨.of_eq rfl, hproper1⟩
    · exact signing_of_run env (.jail _) (by simp) hproper1 hjail
  have hquiet : Quiet s { s with chain := chain2 } :=
    .of_signing (hsigning1.trans hjailed.1) hjailed.2
  exact hquiet.setInfo hinfo rfl

lemma quiet_of_handleDoubleSign (hproper : s.chain.Proper)
    (h : s.handleDoubleSign env addr infractionHeight power = .ok s') : Quiet s s' := by
  unfold handleDoubleSign at h
  split at h
  · cases h
    exact .refl hproper
  · split_ifs at h with hstatus hage
    · cases h
      exact .refl hproper
    · obtain ⟨_, _, h⟩ := bind_ok.mp h
      cases h
      exact .refl hproper
    · obtain ⟨_, _, h⟩ := bind_ok.mp h
      simp only [capBySlashingPeriod, bind_ok, pure_eq_ok, Prod.mk.injEq, Prod.exists] at h
      obtain ⟨s₁, _, ⟨key, period, _, _, _, _, _, rfl, rfl⟩, h⟩ := h
      -- the slashing period is no part of what is counted
      have hpunish := quiet_of_punish (by exact hproper) h
      exact ⟨hpunish.missedBlocks, hpunish.window, hpunish.proper, hpunish.counter,
        hpunish.unopened⟩

lemma quiet_of_handleProposerCensorship (hproper : s.chain.Proper)
    (h : s.handleProposerCensorship env addr infractionHeight = .ok s') : Quiet s s' := by
  unfold handleProposerCensorship at h
  obtain ⟨_, _, h⟩ := bind_ok.mp h
  split at h
  · cases h
    exact .refl hproper
  · split_ifs at h
    · cases h
      exact .refl hproper
    · obtain ⟨power, _, h⟩ := bind_ok.mp h
      exact quiet_of_punish hproper h

end

section
variable {s s' : State} {addr : Address}

/-- Two windows have equally many missed blocks exactly when none lies between them. -/
lemma length_missedIndexes_eq_iff (hbits : ∀ i, s'.getValidatorMissedBlockBitArray addr i =
      s.getValidatorMissedBlockBitArray addr i)
    (hle : s.params.signedBlocksWindow ≤ s'.params.signedBlocksWindow) :
    (s.missedIndexes addr).length = (s'.missedIndexes addr).length ↔
      ∀ i, s.params.signedBlocksWindow ≤ i → i < s'.params.signedBlocksWindow →
        s.getValidatorMissedBlockBitArray addr i = false := by
  have hsubset : s.missedIndexes addr ⊆ s'.missedIndexes addr := by
    intro i hi
    obtain ⟨hlt, hbit⟩ := mem_missedIndexes.mp hi
    exact mem_missedIndexes.mpr ⟨hlt.trans_le hle, hbits i ▸ hbit⟩
  have hsub := Nodup.subperm (nodup_missedIndexes s addr) hsubset
  constructor
  · intro hlength i hlow hhigh
    by_contra hbit
    rw [Bool.not_eq_false] at hbit
    have hmem : i ∈ s'.missedIndexes addr := mem_missedIndexes.mpr ⟨hhigh, hbits i ▸ hbit⟩
    rw [← (hsub.perm_of_length_le hlength.ge).mem_iff] at hmem
    exact absurd (mem_missedIndexes.mp hmem).1 (not_lt.mpr hlow)
  · intro hnone
    refine Perm.length_eq ((perm_ext_iff_of_nodup (nodup_missedIndexes s addr)
      (nodup_missedIndexes s' addr)).mpr (fun i => ⟨fun hi => hsubset hi, fun hi => ?_⟩))
    obtain ⟨hlt, hbit⟩ := mem_missedIndexes.mp hi
    rw [hbits] at hbit
    refine mem_missedIndexes.mpr ⟨?_, hbit⟩
    by_contra hge
    rw [hnone i (not_lt.mp hge) hlt] at hbit
    cases hbit

/-- A new window keeps the counts exactly when no missed block lies between the windows. -/
lemma countsMissed_window_iff (hs : s.CountsMissed)
    (hunopened : ∀ addr, s.chain.slashing.signingInfos.get addr = none →
      ∀ i, s.getValidatorMissedBlockBitArray addr i = false) (p : ℤ) :
    CountsMissed { s with params := { s.params with signedBlocksWindow := p } } ↔
      KeepsMissed s (.changeParam (.signedBlocksWindow p)) := by
  have hequal : ∀ addr, (s.missedIndexes addr).length = (missedIndexes
      { s with params := { s.params with signedBlocksWindow := p } } addr).length ↔
      ∀ i, min s.params.signedBlocksWindow p ≤ i → i < max s.params.signedBlocksWindow p →
        s.getValidatorMissedBlockBitArray addr i = false := by
    intro addr
    rcases le_total s.params.signedBlocksWindow p with hle | hle
    · rw [min_eq_left hle, max_eq_right hle]
      exact length_missedIndexes_eq_iff (fun _ => rfl) hle
    · rw [min_eq_right hle, max_eq_left hle, eq_comm]
      exact length_missedIndexes_eq_iff (fun _ => rfl) hle
  constructor
  · intro hs' addr
    cases hinfo : s.chain.slashing.signingInfos.get addr with
    | none => exact fun i _ _ => hunopened addr hinfo i
    | some info =>
      refine (hequal addr).mp ?_
      have hbefore := hs addr info hinfo
      have hafter := hs' addr info hinfo
      omega
  · intro hkeeps addr info hinfo
    rw [← (hequal addr).mpr (hkeeps addr)]
    exact hs addr info hinfo

end

section
variable {env : Env} {s s' : State} {addr : Address} {info info₁ : ValidatorSigningInfo}
  {signed : Bool} {s₁ : State} {power : ℤ}

/-- What recording a signature does. -/
structure Recorded (s : State) (addr : Address) (info : ValidatorSigningInfo) (signed : Bool)
    (s₁ : State) (info₁ : ValidatorSigningInfo) : Prop where
  chain : s₁.chain = s.chain
  params : s₁.params = s.params
  bits : ∀ a i, s₁.getValidatorMissedBlockBitArray a i =
    if a = addr ∧ i = s.signatureIndex info then !signed
    else s.getValidatorMissedBlockBitArray a i
  counter : info₁.missedBlocksCounter - (s₁.missedIndexes addr).length =
    info.missedBlocksCounter - (s.missedIndexes addr).length

lemma recorded_set (hwindow : 0 < s.params.signedBlocksWindow)
    (hbit : s.getValidatorMissedBlockBitArray addr (s.signatureIndex info) = signed)
    (hcounter : info₁.missedBlocksCounter =
      info.missedBlocksCounter + if signed then -1 else 1) :
    Recorded s addr info signed
      (s.setValidatorMissedBlockBitArray addr (s.signatureIndex info) !signed) info₁ := by
  have hindex : s.signatureIndex info < s.params.signedBlocksWindow := Int.tmod_lt_of_pos _ hwindow
  refine ⟨rfl, rfl, fun a i => bit_set s addr a _ i _, ?_⟩
  have hset : ∀ missed j, (s.setValidatorMissedBlockBitArray addr (s.signatureIndex info)
      missed).getValidatorMissedBlockBitArray addr j =
      if j = s.signatureIndex info then missed else s.getValidatorMissedBlockBitArray addr j :=
    fun missed j => by simp only [bit_set, true_and]
  cases signed with
  | false =>
    have hlength := length_missedIndexes_succ (hset true) hbit rfl hindex
    simp only [Bool.not_false, Bool.false_eq_true, if_false] at hcounter ⊢
    omega
  | true =>
    -- the old state has one more missed block than the new one
    have hset' : ∀ j, s.getValidatorMissedBlockBitArray addr j = if j = s.signatureIndex info then
        true else (s.setValidatorMissedBlockBitArray addr (s.signatureIndex info)
          false).getValidatorMissedBlockBitArray addr j := by
      intro j
      rw [hset]
      split_ifs with hj
      · rw [hj, hbit]
      · rfl
    have hlength := length_missedIndexes_succ hset' ((hset false _).trans (if_pos rfl)) rfl hindex
    simp only [Bool.not_true, if_true] at hcounter ⊢
    omega

lemma recorded_recordSignature (hwindow : 0 < s.params.signedBlocksWindow)
    (info : ValidatorSigningInfo) (signed : Bool) :
    Recorded s addr info signed (s.recordSignature addr info signed).1
      (s.recordSignature addr info signed).2 := by
  -- a bit that has the right value already
  have hsame : s.getValidatorMissedBlockBitArray addr (s.signatureIndex info) = !signed →
      Recorded s addr info signed s
        { info with indexOffset := wrapInt64 (info.indexOffset + 1) } := by
    intro hbit
    refine ⟨rfl, rfl, fun a i => ?_, rfl⟩
    split_ifs with h
    · rw [h.1, h.2, hbit]
    · rfl
  cases hbit : s.getValidatorMissedBlockBitArray addr (s.signatureIndex info) <;> cases signed <;>
    simp only [recordSignature, hbit]
  · exact recorded_set hwindow hbit rfl
  · exact hsame hbit
  · exact hsame hbit
  · exact recorded_set hwindow hbit rfl

lemma Recorded.missedIndexes
    (h : Recorded s addr info signed s₁ info₁) {a : Address} (ha : a ≠ addr) :
    (s₁.missedIndexes a).length = (s.missedIndexes a).length := by
  refine length_missedIndexes_congr (by rw [h.params]) (fun i => ?_)
  rw [h.bits, if_neg (fun h => ha h.1)]

lemma handleValidatorSignature_cases
    (h : s.handleValidatorSignature env addr power signed = .ok s') :
    ∃ info confirmed, s.chain.slashing.signingInfos.get addr = some info ∧
      (s.recordSignature addr info signed).1.downtimeConfirmed addr
        (s.recordSignature addr info signed).2 = .ok confirmed ∧
      (if confirmed then (s.recordSignature addr info signed).1.punishDowntime env addr power
          (s.recordSignature addr info signed).2
        else .ok ((s.recordSignature addr info signed).1.setValidatorSigningInfo addr
          (s.recordSignature addr info signed).2)) = .ok s' := by
  simp only [handleValidatorSignature, bind_ok, deref_ok] at h
  obtain ⟨_, _, info, hinfo, _, _, confirmed, hconfirmed, h⟩ := h
  refine ⟨info, confirmed, hinfo, hconfirmed, ?_⟩
  cases confirmed
  · exact h
  · exact h

lemma get_setInfo (s : State) (addr a : Address) (info : ValidatorSigningInfo) :
    (s.setValidatorSigningInfo addr info).chain.slashing.signingInfos.get a =
      if a = addr then some info else s.chain.slashing.signingInfos.get a :=
  get_set _ _ _ _

lemma Recorded.countsMissed (h : Recorded s addr info signed s₁ info₁)
    (hinfo : s.chain.slashing.signingInfos.get addr = some info) (hs : s.CountsMissed) :
    (s₁.setValidatorSigningInfo addr info₁).CountsMissed := by
  intro a info' hinfo'
  change info'.missedBlocksCounter = (s₁.missedIndexes a).length
  rw [get_setInfo, h.chain] at hinfo'
  split_ifs at hinfo' with ha
  · rw [Option.some.injEq] at hinfo'
    have hcounter := h.counter
    have hbefore := hs addr info hinfo
    rw [← hinfo', ha]
    omega
  · rw [h.missedIndexes ha]
    exact hs a info' hinfo'

/-- What the punishment of a downtime leaves. -/
structure Cleared (s : State) (addr : Address) (s' : State) : Prop where
  proper : s'.chain.Proper
  params : s'.params = s.params
  bits : ∀ a i, s'.getValidatorMissedBlockBitArray a i =
    if a = addr then false else s.getValidatorMissedBlockBitArray a i
  reset : ∃ info', s'.chain.slashing.signingInfos.get addr = some info' ∧
    info'.missedBlocksCounter = 0
  others : ∀ a, a ≠ addr →
    s'.chain.slashing.signingInfos.get a = s.chain.slashing.signingInfos.get a ∨
      s.chain.slashing.signingInfos.get a = none ∧
        ∃ height, s'.chain.slashing.signingInfos.get a = some ⟨height, 0, 0, 0⟩

lemma cleared_of_punishDowntime (hproper : s.chain.Proper)
    (h : s.punishDowntime env addr power info = .ok s') : Cleared s addr s' := by
  simp only [punishDowntime, bind_ok, pure_eq_ok] at h
  obtain ⟨chain1, hslash, chain2, hjail, rfl⟩ := h
  obtain ⟨hsigning1, hproper1⟩ := signing_of_run env (.slash _ _ _ _) (by simp) hproper hslash
  obtain ⟨hsigning2, hproper2⟩ := signing_of_run env (.jail _) (by simp) hproper1 hjail
  refine ⟨hproper2, rfl, fun a i => bit_clear { s with chain := chain2 } addr a i, ?_, ?_⟩
  · exact ⟨_, (get_setInfo _ _ _ _).trans (if_pos rfl), rfl⟩
  · intro a ha
    rw [get_setInfo, if_neg ha]
    exact hsigning1.trans hsigning2 a

lemma Cleared.countsMissed (h : Cleared s addr s')
    (hs : ∀ a info, a ≠ addr → s.chain.slashing.signingInfos.get a = some info →
      info.missedBlocksCounter = (s.missedIndexes a).length)
    (hunopened : ∀ a, a ≠ addr → s.chain.slashing.signingInfos.get a = none →
      ∀ i, s.getValidatorMissedBlockBitArray a i = false) : s'.CountsMissed := by
  intro a info' hinfo'
  by_cases ha : a = addr
  · obtain ⟨info₁, hinfo1, hcounter⟩ := h.reset
    rw [ha, hinfo1, Option.some.injEq] at hinfo'
    rw [← hinfo', hcounter, length_missedIndexes_eq_zero (fun i => by rw [h.bits, if_pos ha])]
    rfl
  · have hlength : (s'.missedIndexes a).length = (s.missedIndexes a).length :=
      length_missedIndexes_congr (by rw [h.params]) (fun i => by rw [h.bits, if_neg ha])
    rw [hlength]
    rcases h.others a ha with heq | ⟨hnone, height, hnew⟩
    · exact hs a info' ha (heq ▸ hinfo')
    · rw [hnew, Option.some.injEq] at hinfo'
      rw [← hinfo', length_missedIndexes_eq_zero (hunopened a ha hnone)]
      rfl

end

section
variable {env : Env} {mainnet : Bool} {o o' : Observed} {op : Op} {addr : Address}
  {vote : State.VoteInfo}

lemma newestAt_cons (e : Signature) (log : List Signature) (addr : Address) (i : ℤ) :
    newestAt (e :: log) addr i =
      if addr = e.consAddr ∧ i = e.index then some e else newestAt log addr i := by
  unfold newestAt
  rw [find?_cons]
  by_cases h : addr = e.consAddr ∧ i = e.index
  · simp [h]
  · rw [if_neg h]
    have hfalse : (e.consAddr == addr && e.index == i) = false := by
      rw [Bool.eq_false_iff]
      intro hplace
      simp only [Bool.and_eq_true, beq_iff_eq] at hplace
      exact h ⟨hplace.1.symm, hplace.2.symm⟩
    rw [hfalse]

lemma newestAt_filter (log : List Signature) (addr a : Address) (i : ℤ) :
    newestAt (log.filter (fun e => e.consAddr ≠ addr)) a i =
      if a = addr then none else newestAt log a i := by
  unfold newestAt
  rw [find?_filter]
  split_ifs with ha
  · refine find?_eq_none.mpr (fun e _ => ?_)
    rw [decide_eq_true_eq]
    rintro ⟨hne, hplace⟩
    simp only [ne_eq, decide_eq_true_eq, Bool.and_eq_true, beq_iff_eq] at hne hplace
    exact hne (hplace.1.trans ha)
  · refine congrArg (fun p => find? p log) (funext (fun e => ?_))
    rw [Bool.eq_iff_iff]
    simp only [Bool.and_eq_true, decide_eq_true_eq, beq_iff_eq]
    exact ⟨fun h => h.2, fun h => ⟨by rw [h.1]; exact ha, h⟩⟩

lemma punishes_eq {info : ValidatorSigningInfo} {confirmed : Bool}
    (h : (o.state.recordSignature vote.address info vote.signedLastBlock).1.downtimeConfirmed
      vote.address (o.state.recordSignature vote.address info vote.signedLastBlock).2 =
        .ok confirmed) : o.punishes vote info = confirmed := by
  unfold Observed.punishes
  simp only [h]

lemma Observed.Sound.signature (ho : o.Sound) (h : o.step env mainnet (.signature vote) = .ok o') :
    o'.Sound ∧ (o.state.CountsMissed → o'.state.CountsMissed) := by
  simp only [Observed.step, Op.run, bind_ok, pure_eq_ok] at h
  obtain ⟨s', hs', rfl⟩ := h
  obtain ⟨info, confirmed, hinfo, hconfirmed, hend⟩ := handleValidatorSignature_cases hs'
  have hrec : Recorded o.state vote.address info vote.signedLastBlock _ _ :=
    recorded_recordSignature ho.window info vote.signedLastBlock
  have hlog : o.logAfter (.signature vote) =
      if confirmed then o.log.filter (fun e => e.consAddr ≠ vote.address)
      else o.entry vote info :: o.log := by
    simp only [Observed.logAfter, hinfo, punishes_eq hconfirmed]
  rw [hlog]
  cases confirmed with
  | false =>
    simp only [Bool.false_eq_true, if_false, Except.ok.injEq] at hend
    subst hend
    refine ⟨⟨?_, ?_, fun a hnone i => ?_, fun a i => ?_⟩, hrec.countsMissed hinfo⟩
    · have hproper := ho.proper
      rw [← hrec.chain] at hproper
      exact hproper
    · have hwindow := ho.window
      rw [← hrec.params] at hwindow
      exact hwindow
    · simp only [get_setInfo, hrec.chain] at hnone
      split_ifs at hnone with ha
      exact (hrec.bits a i).trans ((if_neg (fun h => ha h.1)).trans (ho.unopened a hnone i))
    · rw [if_neg Bool.false_ne_true, newestAt_cons]
      refine (hrec.bits a i).trans ?_
      by_cases hplace : a = vote.address ∧ i = o.state.signatureIndex info
      · rw [if_pos hplace, if_pos (by exact hplace)]
        rfl
      · rw [if_neg hplace, if_neg (by exact hplace)]
        exact ho.logged a i
  | true =>
    simp only [if_true] at hend
    have hproper := ho.proper
    rw [← hrec.chain] at hproper
    have hclear := cleared_of_punishDowntime hproper hend
    have hothers : ∀ a, a ≠ vote.address → ∀ i, (o.state.recordSignature vote.address info
          vote.signedLastBlock).1.getValidatorMissedBlockBitArray a i =
        o.state.getValidatorMissedBlockBitArray a i := fun a ha i => by
      rw [hrec.bits, if_neg (fun h => ha h.1)]
    refine ⟨⟨hclear.proper, ?_, fun a hnone i => ?_, fun a i => ?_⟩, fun hs => ?_⟩
    · simp only [hclear.params, hrec.params]
      exact ho.window
    · simp only [hclear.bits]
      split_ifs with ha
      · rfl
      · rw [hothers a ha]
        refine ho.unopened a ?_ i
        rcases hclear.others a ha with heq | ⟨h, _⟩
        · rw [← hrec.chain, ← heq]
          exact hnone
        · rw [← hrec.chain]
          exact h
    · simp only [if_true, hclear.bits, newestAt_filter]
      split_ifs with ha
      · rfl
      · rw [hothers a ha]
        exact ho.logged a i
    · refine hclear.countsMissed (fun a info' ha hinfo' => ?_) (fun a ha hnone i => ?_)
      · rw [hrec.missedIndexes ha]
        rw [hrec.chain] at hinfo'
        exact hs a info' hinfo'
      · rw [hothers a ha]
        rw [hrec.chain] at hnone
        exact ho.unopened a hnone i

lemma quiet_of_run (ho : o.Sound) {s' : State} (h : op.run env mainnet o.state = .ok s')
    (hvote : ∀ vote, op ≠ .signature vote)
    (hwindow : ∀ p, op ≠ .changeParam (.signedBlocksWindow p)) : Quiet o.state s' := by
  cases op with
  | signature vote => exact absurd rfl (hvote vote)
  | doubleSign evidence => exact quiet_of_handleDoubleSign ho.proper h
  | censorship address infractionHeight => exact quiet_of_handleProposerCensorship ho.proper h
  | changeParam change =>
    simp only [Op.run, changeParam, bind_ok, pure_eq_ok] at h
    obtain ⟨_, _, rfl⟩ := h
    have hquiet := Quiet.refl ho.proper
    refine ⟨rfl, ?_, hquiet.proper, hquiet.counter, hquiet.unopened⟩
    cases change with
    | signedBlocksWindow p => exact absurd rfl (hwindow p)
    | _ => rfl
  | chain op =>
    simp only [Op.run, bind_ok, pure_eq_ok] at h
    obtain ⟨chain, hchain, rfl⟩ := h
    obtain ⟨hsigning, hproper⟩ := signing_of_run env op.1 op.2 ho.proper hchain
    exact .of_signing hsigning hproper

/-- Every operation keeps the log, and the counts when it keeps the missed blocks in the window. -/
lemma step_sound (ho : o.Sound) (h : o.step env mainnet op = .ok o') : o'.Sound ∧
      (o.state.CountsMissed → (o'.state.CountsMissed ↔ KeepsMissed o.state op)) := by
  by_cases hvote : ∃ vote, op = .signature vote
  · obtain ⟨vote, rfl⟩ := hvote
    obtain ⟨hsound, hcounts⟩ := ho.signature h
    exact ⟨hsound, fun hs => ⟨fun _ => trivial, fun _ => hcounts hs⟩⟩
  · have hlog : o.logAfter op = o.log := by
      cases op with
      | signature vote => exact absurd ⟨vote, rfl⟩ hvote
      | _ => rfl
    simp only [Observed.step, hlog, bind_ok, pure_eq_ok] at h
    obtain ⟨s', hs', rfl⟩ := h
    by_cases hwindow : ∃ p, op = .changeParam (.signedBlocksWindow p)
    · obtain ⟨p, rfl⟩ := hwindow
      simp only [Op.run, changeParam, ParamChange.validate, validateSignedBlocksWindow,
        bind_ok, require_ok, decide_eq_true_eq, pure_eq_ok] at hs'
      obtain ⟨_, hp, rfl⟩ := hs'
      refine ⟨⟨ho.proper, ?_, ho.unopened, ho.logged⟩,
        fun hs => countsMissed_window_iff hs ho.unopened p⟩
      simp only [ParamChange.apply]
      omega
    · have hquiet := quiet_of_run ho hs' (fun vote h => hvote ⟨vote, h⟩)
        (fun p h => hwindow ⟨p, h⟩)
      refine ⟨hquiet.sound ho, fun hs => ⟨fun _ => ?_, fun _ => hquiet.countsMissed hs ho.unopened⟩⟩
      cases op with
      | changeParam change =>
        cases change with
        | signedBlocksWindow p => exact absurd ⟨p, rfl⟩ hwindow
        | _ => trivial
      | _ => trivial

end

section
variable {env : Env} {mainnet : Bool} {o o₀ r : Observed} {ops : List Op}

/-- With the present block the validator has missed more blocks than allowed among those that the
window remembers. -/
def Observed.MissedTooMany (o : Observed) (vote : State.VoteInfo) (info : ValidatorSigningInfo) :
    Prop :=
  ∃ maxMissed, o.state.maxMissed = .ok maxMissed ∧
    ∃ blocks : List Signature, blocks.Nodup ∧ maxMissed < blocks.length ∧
      ∀ e ∈ blocks, e.missed = true ∧ e.consAddr = vote.address ∧
        e.index < o.state.params.signedBlocksWindow ∧
        newestAt (o.entry vote info :: o.log) vote.address e.index = some e

lemma Observed.Genesis.sound (h : o.Genesis mainnet) : o.Sound := by
  have hbits : ∀ addr i, o.state.getValidatorMissedBlockBitArray addr i = false := by
    intro addr i
    simp [getValidatorMissedBlockBitArray, h.missedBlocks]
  refine ⟨h.chain.proper, ?_, fun addr _ i => hbits addr i, fun addr i => ?_⟩
  · have hparams := h.params
    simp only [validateParams, validateSignedBlocksWindow, bind_ok, require_ok,
      decide_eq_true_eq] at hparams
    obtain ⟨_, _, _, hwindow, _⟩ := hparams
    omega
  · rw [hbits, h.log]
    rfl

lemma Observed.Genesis.countsMissed (h : o.Genesis mainnet) : o.state.CountsMissed := by
  intro addr info hinfo
  rw [h.signingInfos] at hinfo
  cases hinfo

lemma missedTooMany_of_punishes (ho : o.Sound) (hs : o.state.CountsMissed) {vote : VoteInfo}
    {info : ValidatorSigningInfo}
    (hinfo : o.state.chain.slashing.signingInfos.get vote.address = some info)
    (hpunishes : o.punishes vote info = true) : o.MissedTooMany vote info := by
  have hrec : Recorded o.state vote.address info vote.signedLastBlock _ _ :=
    recorded_recordSignature ho.window info vote.signedLastBlock
  unfold Observed.punishes at hpunishes
  generalize o.state.recordSignature vote.address info vote.signedLastBlock = recorded
    at hrec hpunishes
  obtain ⟨s₁, info₁⟩ := recorded
  simp only at hrec
  -- the counter after the vote exceeds the bound, and it is the number of missed bits
  obtain ⟨maxMissed, hmax, hexceeds⟩ : ∃ maxMissed, o.state.maxMissed = .ok maxMissed ∧
      maxMissed < info₁.missedBlocksCounter := by
    simp only at hpunishes
    split at hpunishes
    · rename_i confirmed hconfirmed
      simp only [downtimeConfirmed, bind_ok, pure_eq_ok] at hconfirmed
      obtain ⟨maxMissed, hmax, rfl⟩ := hconfirmed
      simp only [Bool.and_eq_true, decide_eq_true_eq] at hpunishes
      have hsame : o.state.maxMissed = s₁.maxMissed := by
        unfold State.maxMissed
        rw [hrec.params]
      exact ⟨maxMissed, hsame.trans hmax, hpunishes.1.2⟩
    · cases hpunishes
  have hcount : info₁.missedBlocksCounter = (s₁.missedIndexes vote.address).length := by
    have hcounter := hrec.counter
    have hbefore := hs vote.address info hinfo
    omega
  -- the newest signature at a missed index
  have hnewest : ∀ i ∈ s₁.missedIndexes vote.address, ∃ e,
      newestAt (o.entry vote info :: o.log) vote.address i = some e ∧ e.missed = true ∧
        e.consAddr = vote.address ∧ e.index = i ∧ i < o.state.params.signedBlocksWindow := by
    intro i hi
    obtain ⟨hlt, hbit⟩ := mem_missedIndexes.mp hi
    rw [hrec.params] at hlt
    have hany : (newestAt (o.entry vote info :: o.log) vote.address i).any Signature.missed =
        true := by
      rw [newestAt_cons]
      rw [hrec.bits] at hbit
      by_cases hplace : vote.address = vote.address ∧ i = o.state.signatureIndex info
      · rw [if_pos (by exact hplace)]
        rw [if_pos hplace] at hbit
        exact hbit
      · rw [if_neg (by exact hplace)]
        rw [if_neg hplace, ho.logged] at hbit
        exact hbit
    obtain ⟨e, he, hmissed⟩ := (Option.any_eq_true _ _).mp hany
    have hplace := find?_some he
    simp only [Bool.and_eq_true, beq_iff_eq] at hplace
    exact ⟨e, he, hmissed, hplace.1, hplace.2, hlt⟩
  have : Nonempty Signature := ⟨o.entry vote info⟩
  choose! block hblock using hnewest
  refine ⟨maxMissed, hmax, (s₁.missedIndexes vote.address).map block, ?_, ?_, fun e he => ?_⟩
  · refine Nodup.map_on (fun i hi j hj hij => ?_) (nodup_missedIndexes s₁ vote.address)
    rw [← (hblock i hi).2.2.2.1, ← (hblock j hj).2.2.2.1, hij]
  · rw [length_map, ← hcount]
    exact hexceeds
  · obtain ⟨i, hi, rfl⟩ := mem_map.mp he
    obtain ⟨hnew, hmissed, haddr, hindex, hlt⟩ := hblock i hi
    rw [hindex]
    exact ⟨hmissed, haddr, hlt, hnew⟩

/-- Along a run the counters are exact exactly when every change of the window keeps the missed
blocks in it; then a validator is punished for a downtime only if it has missed too many
blocks. -/
theorem missed_blocks_counted_iff (h₀ : o₀.Genesis mainnet) (h : run env mainnet o₀ ops = .ok r) :
    ((∀ before op after o, ops = before ++ op :: after → run env mainnet o₀ before = .ok o →
        KeepsMissed o.state op) ↔
      ∀ before after o, ops = before ++ after → run env mainnet o₀ before = .ok o →
        o.state.CountsMissed) ∧
    ((∀ before op after o, ops = before ++ op :: after → run env mainnet o₀ before = .ok o →
        KeepsMissed o.state op) →
      ∀ before vote after o info, ops = before ++ .signature vote :: after →
        run env mainnet o₀ before = .ok o →
        o.state.chain.slashing.signingInfos.get vote.address = some info →
        o.punishes vote info = true → o.MissedTooMany vote info) := by
  have hiff := forall_steps_iff_forall_reached
    (J := Observed.Sound) (I := fun o => o.state.CountsMissed)
    (C := fun o op => KeepsMissed o.state op) (f := fun o op => o.step env mainnet op)
    (fun _ _ _ ho hstep => (step_sound ho hstep).1)
    (fun _ _ _ ho hs hstep => (step_sound ho hstep).2 hs) h₀.sound h₀.countsMissed h
  refine ⟨hiff, fun hkeeps before vote after o info hops hbefore hinfo hpunishes => ?_⟩
  have hsound : Sat AnyFault Observed.Sound (run env mainnet o₀ before) :=
    Sat.foldlM before o₀ h₀.sound
      (fun op _ _ ho => Sat.of_forall (fun _ hstep => (step_sound ho hstep).1))
  exact missedTooMany_of_punishes (hsound.of_ok hbefore)
    (hiff.mp hkeeps before _ o hops hbefore) hinfo hpunishes

end

/-- Accounts of the samples of stake with a window of 200 blocks. -/
def sampleObserved : Observed where
  state :=
    { chain := Stake.sampleGenesis
      missedBlocks := Store.empty
      params :=
        { maxEvidenceAge := 3 * blocksPerDay
          signedBlocksWindow := 200
          minSignedPerWindow := Dec.newDecWithPrec 5 1
          doubleSignJailDuration := week
          downtimeJailDuration := 1
          censorshipJailDuration := week
          slashFractionDoubleSign := Dec.newDecWithPrec 1 2
          slashFractionDowntime := .zero
          slashFractionCensorship := .zero } }
  log := []

lemma sampleObserved_genesis : sampleObserved.Genesis true :=
  ⟨Stake.sampleGenesis_genesis, rfl, rfl, rfl, rfl⟩

lemma sampleCreation_keepsInfos (operator amount : ℕ) :
    ∀ addr info, Stake.sampleCreation operator amount ≠ .setSigningInfo addr info := by
  simp [Stake.sampleCreation]

lemma endBlock_keepsInfos (nextTime : ℤ) :
    ∀ addr info, Stake.Op.endBlock nextTime ≠ .setSigningInfo addr info := by simp

def sampleBonding : List Op :=
  [.chain ⟨Stake.sampleCreation 1 (10 ^ 20), sampleCreation_keepsInfos 1 (10 ^ 20)⟩,
    .chain ⟨.endBlock 0, endBlock_keepsInfos 0⟩]

def sampleVotes : List Op :=
  sampleBonding ++ [.signature ⟨1, 100, false⟩, .changeParam (.signedBlocksWindow 100)]

/-- Missed block stays in the window, and the counter is right. -/
theorem sampleVotes_counted : ∃ r, run Stake.sampleEnv true sampleObserved sampleVotes = .ok r ∧
    (r.state.chain.slashing.signingInfos.get 1).map (·.missedBlocksCounter) = some 1 ∧
    r.state.CountsMissed := by
  obtain ⟨r, hr, hcounter⟩ := of_returns
    (p := fun r : Observed => decide ((r.state.chain.slashing.signingInfos.get 1).map
      (·.missedBlocksCounter) = some 1))
    (x := run Stake.sampleEnv true sampleObserved sampleVotes) (by decide +kernel)
  refine ⟨r, hr, of_decide_eq_true hcounter, ?_⟩
  refine (missed_blocks_counted_iff sampleObserved_genesis hr).1.mp ?_ sampleVotes [] r (by simp) hr
  intro before op after o hops hbefore
  rcases before with _ | ⟨first, _ | ⟨second, _ | ⟨third, _ | ⟨fourth, before⟩⟩⟩⟩ <;>
    simp only [sampleVotes, sampleBonding, cons_append, nil_append, cons.injEq] at hops
  · obtain ⟨rfl, _⟩ := hops
    trivial
  · obtain ⟨_, rfl, _⟩ := hops
    trivial
  · obtain ⟨_, _, rfl, _⟩ := hops
    trivial
  · -- the only missed bit has the index 0
    obtain ⟨rfl, rfl, rfl, rfl, _⟩ := hops
    have hreturns : returns (fun o => decide (o.state.params.signedBlocksWindow = 200) &&
        o.state.missedBlocks.entries.all (fun e => decide ((ofLex e.1).2 < 100)))
        (run Stake.sampleEnv true sampleObserved (sampleVotes.take 3)) = true := by decide +kernel
    obtain ⟨o', ho', hbits⟩ := of_returns hreturns
    obtain rfl : o = o' := Except.ok.inj (hbefore.symm.trans ho')
    simp only [Bool.and_eq_true, decide_eq_true_eq, all_eq_true] at hbits
    intro addr i hlow _
    cases hget : o.state.missedBlocks.get (toLex (addr, i)) with
    | none => simp [getValidatorMissedBlockBitArray, hget]
    | some missed =>
      have hlt := hbits.2 _ (mem_entries.mpr hget)
      simp only [hbits.1, ofLex_toLex] at hlow hlt
      omega
  · simp at hops

/-- Validator signs its first hundred blocks and misses the next one; then the window is
halved. -/
def halvedVotes : List Op :=
  sampleBonding ++ List.replicate 100 (.signature ⟨1, 100, true⟩) ++
    [.signature ⟨1, 100, false⟩, .changeParam (.signedBlocksWindow 100)]

/-- Counter says that a block is missed, and no bit of the window does. -/
theorem halved_window_miscounts : ∃ r, run Stake.sampleEnv true sampleObserved halvedVotes = .ok r ∧
    (r.state.chain.slashing.signingInfos.get 1).map (·.missedBlocksCounter) = some 1 ∧
    r.state.missedIndexes 1 = [] ∧ ¬r.state.CountsMissed := by
  obtain ⟨r, hr, hcounter⟩ := of_returns
    (p := fun r : Observed => decide ((r.state.chain.slashing.signingInfos.get 1).map
      (·.missedBlocksCounter) = some 1 ∧ r.state.missedIndexes 1 = []))
    (x := run Stake.sampleEnv true sampleObserved halvedVotes) (by decide +kernel)
  obtain ⟨hone, hnone⟩ := of_decide_eq_true hcounter
  refine ⟨r, hr, hone, hnone, fun hs => ?_⟩
  obtain ⟨info, hinfo, hinfo'⟩ := Option.map_eq_some_iff.mp hone
  have hcount := hs 1 info hinfo
  rw [hinfo', hnone] at hcount
  simp at hcount

end Irishub.Slashing
