import Irishub.BaseApp.Atomicity

/-!
# Sequences and replays

The messages of a transaction are reached only if every signature carries the
sequence of its signer's account (`Sequenced`), and then these sequences have gone
up by one. Nothing lowers a sequence but the overflow of its 64 bits: outside
transactions and in their messages, account records are written by `setCoins` and
`SetMemoRegexp` of the bank keeper, and the refund stores the record it finds.

`Chain` is a run of transactions and of what happens between them; its parameter
says which transactions are looked at.
-/

namespace Irishub.BaseApp
open Lib Relation List

section
variable {Msg ρ : Type} {s s' : MultiStore ρ}

/-- `NewAccountWithAddress`; the number is the next one of the account keeper. -/
def newAccountWithAddress (addr : Address) (accountNumber : ℕ) : Account where
  accountNumber := accountNumber
  sequence := 0
  pubKey := none
  memoRegexp := ""
  address := addr
  coins := .empty

/-- `setCoins` of the bank keeper, which opens an account where there is none. -/
def MultiStore.setCoins (s : MultiStore ρ) (nextAccountNumber : ℕ) (addr : Address)
    (amt : StoredCoins) : MultiStore ρ :=
  let acc := (s.getAccount addr).getD (newAccountWithAddress addr nextAccountNumber)
  s.setAccount { acc with coins := amt }

def MultiStore.setMemoRegexp (s : MultiStore ρ) (fromAddr : Address) (regexp : String) :
    Outcome (MultiStore ρ) := do
  let acc ← found (s.getAccount fromAddr) .errInvalidAccount
  return s.setAccount { acc with memoRegexp := regexp }

/-- A write of a message handler, of a begin blocker or of an end blocker: to an account by one of
the two functions above, or to another part of the stores. -/
inductive AccountWrite : MultiStore ρ → MultiStore ρ → Prop
  | setCoins {s : MultiStore ρ} (nextAccountNumber : ℕ) (addr : Address) (amt : StoredCoins) :
      AccountWrite s (s.setCoins nextAccountNumber addr amt)
  | setMemoRegexp {s s' : MultiStore ρ} {fromAddr : Address} {regexp : String}
      (h : s.setMemoRegexp fromAddr regexp = .ok s') : AccountWrite s s'
  | other {s s' : MultiStore ρ} (h : s'.accountInfo = s.accountInfo) : AccountWrite s s'

def App.WritesAccounts (app : App Msg ρ) : Prop :=
  ∀ route handler, app.route route = some handler → ∀ ctx s msg,
    Run.Returns (ReflTransGen AccountWrite s) (handler ctx s msg)

def Ascending (s s' : MultiStore ρ) : Prop :=
  ∀ addr info, s.accountInfo.get addr = some info →
    ∃ info', s'.accountInfo.get addr = some info' ∧ info.sequence ≤ info'.sequence

lemma Ascending.refl (s : MultiStore ρ) : Ascending s s := fun _ info hinfo => ⟨info, hinfo, le_rfl⟩

lemma Ascending.trans {s'' : MultiStore ρ} (h : Ascending s s') (h' : Ascending s' s'') :
    Ascending s s'' := by
  intro addr info hinfo
  obtain ⟨info1, hinfo1, hle1⟩ := h addr info hinfo
  obtain ⟨info2, hinfo2, hle2⟩ := h' addr info1 hinfo1
  exact ⟨info2, hinfo2, hle1.trans hle2⟩

lemma Ascending.of_eq
    (h : ∀ addr, s'.accountInfo.get addr = s.accountInfo.get addr) : Ascending s s' :=
  fun addr info hinfo => ⟨info, (h addr).trans hinfo, le_rfl⟩

lemma Ascending.setAccount {acc : Account}
    (h : ∀ info, s.accountInfo.get acc.address = some info → info.sequence ≤ acc.sequence) :
    Ascending s (s.setAccount acc) := by
  intro addr info hinfo
  simp only [MultiStore.setAccount, Store.get_set]
  split_ifs with haddr
  · exact ⟨acc.toAccountInfo, rfl, h info (haddr ▸ hinfo)⟩
  · exact ⟨info, hinfo, le_rfl⟩

lemma AccountWrite.ascending (h : AccountWrite s s') : Ascending s s' := by
  cases h with
  | setCoins nextAccountNumber addr amt =>
    refine Ascending.setAccount (fun info hinfo => ?_)
    cases hacc : s.getAccount addr with
    | none =>
      simp only [hacc, Option.getD_none, newAccountWithAddress] at hinfo
      simp [MultiStore.getAccount, hinfo] at hacc
    | some acc =>
      simp only [hacc, Option.getD_some, address_of_getAccount hacc,
        (info_of_getAccount hacc).1, Option.some.injEq] at hinfo ⊢
      rw [hinfo]
  | setMemoRegexp h =>
    simp only [MultiStore.setMemoRegexp, bind_ok, found_ok, pure_eq_ok] at h
    obtain ⟨acc, hacc, rfl⟩ := h
    refine Ascending.setAccount (fun info hinfo => ?_)
    simp only [address_of_getAccount hacc, (info_of_getAccount hacc).1, Option.some.injEq] at hinfo
    rw [← hinfo]
  | other h => exact .of_eq (fun addr => by rw [h])

lemma ascending_of_writes (h : ReflTransGen AccountWrite s s') : Ascending s s' :=
  invariant_of_step (I := fun s' => Ascending s s')
    (fun _ _ hs hwrite => hs.trans hwrite.ascending) h (.refl s)

end

section
variable {Msg ρ : Type} (app : App Msg ρ) {tx : StdTx Msg} {txSize : ℕ} {f : Frame ρ}
  {s' : MultiStore ρ}

/-- Every signature carries the sequence of its signer's account, and there is one. -/
structure Sequenced (tx : StdTx Msg) (s : MultiStore ρ) : Prop where
  nonempty : tx.signatures ≠ []
  length : tx.signatures.length = (tx.getSigners app).length
  sequence : ∀ p ∈ (tx.getSigners app).zip tx.signatures,
    ∃ info, s.accountInfo.get p.1 = some info ∧ info.sequence = p.2.sequence

lemma sequence_of_validateAccNumAndSequence {height : ℕ} :
    ∀ {accs : List Account} {sigs : List StdSignature} {u : Unit},
      validateAccNumAndSequence height accs sigs = .ok u →
      ∀ p ∈ accs.zip sigs, p.1.sequence = p.2.sequence
  | [], _, _, _, p, hp => by simp at hp
  | _ :: _, [], _, _, p, hp => by simp at hp
  | acc :: accs, sig :: sigs, u, h, p, hp => by
    simp only [validateAccNumAndSequence, List.zip_cons_cons, List.foldlM_cons, bind_ok,
      require_ok, beq_iff_eq] at h
    obtain ⟨_, ⟨_, _, _, _, hseq⟩, hrest⟩ := h
    rcases List.mem_cons.mp hp with rfl | hp
    · exact hseq
    · exact sequence_of_validateAccNumAndSequence hrest p hp

lemma authChecks_sequenced (ctx : Context) (s : MultiStore ρ) (tx : StdTx Msg)
    (hfee : tx.fee.Valid) :
    Run.Returns (fun _ => Sequenced app tx s) (authChecks app ctx s tx hfee) := by
  refine .bind (P := fun _ => tx.signatures ≠ [] ∧
    tx.signatures.length = (tx.getSigners app).length) (.lift ?_) (fun _ hbasic => ?_)
  · intro u hu
    simp only [StdTx.validateBasic, bind_ok, require_ok, beq_iff_eq] at hu
    obtain ⟨_, _, _, hne, _, hlen, _⟩ := hu
    exact ⟨by simpa using hne, hlen⟩
  refine .bind (getSignerAccs_returns app s _) (fun accs haccs => ?_)
  obtain ⟨haddrs, haccs⟩ := haccs
  refine .bind (P := fun _ => Sequenced app tx s) (.lift (fun u hu => ?_)) (fun _ h => ?_)
  · refine ⟨hbasic.1, hbasic.2, fun p hp => ?_⟩
    rw [← haddrs, zip_map_left, mem_map] at hp
    obtain ⟨q, hq, rfl⟩ := hp
    have hget := haccs q.1 (of_mem_zip hq).1
    exact ⟨_, (info_of_getAccount hget).1, sequence_of_validateAccNumAndSequence hu q hq⟩
  · exact .bind (.any _) (fun _ _ => fun _ _ _ => h)

lemma sequenced_of_runAnteHandlers {hfee : tx.fee.Valid} {s : MultiStore ρ} {f' : Frame ρ}
    (h : runAnteHandlers txSize (anteHandlers app tx hfee) s f = .ready f') :
    Sequenced app tx s := by
  have hauth := authChecks_sequenced app f.ctx s tx hfee (setGasMeter f.ctx.height tx.fee.gas)
  simp only [anteHandlers] at h
  rw [runAnteHandlers] at h
  simp only [authAnteHandler] at h
  rcases hrun : authChecks app f.ctx s tx hfee (setGasMeter f.ctx.height tx.fee.gas) with
    ⟨fault | r, g⟩
  · rw [hrun] at h
    rcases fault with p | e
    · cases p <;> cases h
    · cases h
  · rw [hrun] at hauth
    exact hauth r rfl

lemma sequenced_of_readyFrame {s : DeliverState ρ}
    (h : readyFrame app s tx txSize = some f) : Sequenced app tx s.store := by
  unfold readyFrame at h
  split at h
  · cases h
  · split_ifs at h with hfee
    split at h
    · cases h
    · rename_i hbefore
      unfold beforeMsgs at hbefore
      split at hbefore
      · cases hbefore
      · exact sequenced_of_runAnteHandlers app hbefore

lemma runMsgs_writes {app : App Msg ρ} (happ : app.WritesAccounts) (ctx : Context) :
    ∀ (msgs : List Msg) (s : MultiStore ρ),
      Run.Returns (ReflTransGen AccountWrite s) (runMsgs app ctx msgs s)
  | [], s => .pure .refl
  | msg :: msgs, s => by
    simp only [runMsgs, List.foldlM_cons]
    refine .bind (P := ReflTransGen AccountWrite s) ?_ (fun s1 hs1 => ?_)
    · split
      · exact .lift (by simp)
      · rename_i handler hroute
        exact happ _ handler hroute ctx s msg
    · exact (runMsgs_writes happ ctx msgs s1).imp (fun _ h => hs1.trans h)

def Unexhausted (s : DeliverState ρ) (tx : StdTx Msg) : Prop :=
  ∀ addr ∈ tx.getSigners app, ∀ info, s.store.accountInfo.get addr = some info →
    info.sequence + 1 < 2 ^ 64

variable {app} {s : DeliverState ρ} {tx : StdTx Msg} {txSize : ℕ} {o : TxOutcome ρ}

lemma AnteEffects.ascending (h : AnteEffects app tx s.store s')
    (hcap : Unexhausted app s tx) : Ascending s.store s' := by
  intro addr info hinfo
  by_cases hsigner : addr ∈ tx.getSigners app
  · obtain ⟨i, i', hi, hi', hsigned⟩ := h.signer addr hsigner
    cases hinfo.symm.trans hi
    refine ⟨i', hi', ?_⟩
    rw [hsigned.sequence, Nat.mod_eq_of_lt (hcap addr hsigner info hinfo)]
    omega
  · exact ⟨info, (h.other addr hsigner).trans hinfo, le_rfl⟩

lemma runDeferred_ascending (happ : app.WritesAccounts) (hf : Passed app tx s f) :
    Ascending f.state.store (runDeferred tx (deliverMsgs app tx f)).state.store := by
  have hmsgs : Ascending f.state.store (deliverMsgs app tx f).state.store ∧
      (deliverMsgs app tx f).ctx = f.ctx := by
    rcases deliverMsgs_cases app s tx hf with ⟨cache, g, hrun, hd⟩ | ⟨_, hstore, hctx, _⟩
    · have hwrites := runMsgs_writes happ f.ctx tx.msgs f.state.store f.meter cache (by rw [hrun])
      rw [hd]
      exact ⟨ascending_of_writes hwrites, Frame.setMeter_ctx f g⟩
    · rw [hstore]
      exact ⟨.refl _, hctx⟩
  refine hmsgs.1.trans ?_
  rcases store_runDeferred tx (deliverMsgs app tx f) with h | h
  · rw [h]
    exact .refl _
  · have hsigners : (deliverMsgs app tx f).ctx.signers.map (·.address) = tx.getSigners app := by
      rw [hmsgs.2]
      exact hf.signers
    rcases feeRefundHandler_effects app hsigners h with h | h
    · rw [h]
      exact .refl _
    · exact .of_eq h.account

lemma runTx_ascending (happ : app.WritesAccounts) (hcap : Unexhausted app s tx)
    (h : runTx app s tx txSize = .ok o) : Ascending s.store o.state.store := by
  rcases runTx_cases app s tx txSize h with ⟨_, _, hstore, _⟩ | ⟨f, _, hf, rfl⟩
  · rw [hstore]
    exact .refl _
  · exact (hf.effects.ascending hcap).trans (runDeferred_ascending happ hf)

variable (app tx) in
def Spent (s : MultiStore ρ) : Prop :=
  ∃ p ∈ (tx.getSigners app).zip tx.signatures, ∃ info,
    s.accountInfo.get p.1 = some info ∧ p.2.sequence < info.sequence

lemma Spent.of_ascending {s : MultiStore ρ} (h : Spent app tx s) (hs : Ascending s s') :
    Spent app tx s' := by
  obtain ⟨p, hp, info, hinfo, hlt⟩ := h
  obtain ⟨info', hinfo', hle⟩ := hs p.1 info hinfo
  exact ⟨p, hp, info', hinfo', hlt.trans_le hle⟩

lemma Spent.not_sequenced {s : MultiStore ρ} (h : Spent app tx s) : ¬Sequenced app tx s := by
  intro hseq
  obtain ⟨p, hp, info, hinfo, hlt⟩ := h
  obtain ⟨info', hinfo', heq⟩ := hseq.sequence p hp
  cases hinfo.symm.trans hinfo'
  omega

lemma spent_of_ante (happ : app.WritesAccounts) (hcap : Unexhausted app s tx)
    (h : runTx app s tx txSize = .ok o) (hante : .ante ∈ o.written) :
    Spent app tx o.state.store := by
  rcases runTx_cases app s tx txSize h with ⟨_, _, _, hwritten⟩ | ⟨f, hready, hf, rfl⟩
  · exact absurd hante (hwritten .ante (by simp))
  · have hseq := sequenced_of_readyFrame app hready
    refine Spent.of_ascending ?_ (runDeferred_ascending happ hf)
    have hne : (tx.getSigners app).zip tx.signatures ≠ [] := by
      intro hnil
      have hlen := congrArg List.length hnil
      rw [length_zip, ← hseq.length, Nat.min_self, length_nil] at hlen
      exact hseq.nonempty (length_eq_zero_iff.mp hlen)
    obtain ⟨p, hp⟩ := exists_mem_of_ne_nil _ hne
    obtain ⟨info, hinfo, heq⟩ := hseq.sequence p hp
    have hsigner := (of_mem_zip hp).1
    obtain ⟨i, i', hi, hi', hsigned⟩ := hf.effects.signer p.1 hsigner
    cases hinfo.symm.trans hi
    refine ⟨p, hp, i', hi', ?_⟩
    rw [hsigned.sequence, Nat.mod_eq_of_lt (hcap p.1 hsigner info hinfo), heq]
    exact Nat.lt_succ_self _

end

section
variable {Msg ρ : Type} {app : App Msg ρ}

/-- A transaction is delivered, or a block ends and the next one begins. Only transactions with
`C` are delivered. -/
inductive ChainStep (app : App Msg ρ) (C : DeliverState ρ → StdTx Msg → Prop) :
    DeliverState ρ → DeliverState ρ → Prop
  | deliverTx {s : DeliverState ρ} {tx : StdTx Msg} {txSize : ℕ} {o : TxOutcome ρ} (hC : C s tx)
      (h : runTx app s tx txSize = .ok o) : ChainStep app C s o.state
  | block {s s' : DeliverState ρ} (h : ReflTransGen AccountWrite s.store s'.store) :
      ChainStep app C s s'

abbrev Chain (app : App Msg ρ) (C : DeliverState ρ → StdTx Msg → Prop) :
    DeliverState ρ → DeliverState ρ → Prop :=
  ReflTransGen (ChainStep app C)

lemma Chain.ascending (happ : app.WritesAccounts) {s s' : DeliverState ρ}
    (h : Chain app (Unexhausted app) s s') : Ascending s.store s'.store := by
  refine invariant_of_step (I := fun s' => Ascending s.store s'.store) ?_ h (.refl _)
  intro s1 s2 hs1 hstep
  cases hstep with
  | deliverTx hC h => exact hs1.trans (runTx_ascending happ hC h)
  | block h => exact hs1.trans (ascending_of_writes h)

/-- In a run in which no transaction has a signer whose sequences are used up, no sequence
decreases, and a transaction whose ante state was written is rejected from then on: its messages are
not reached, and the stores stay as they are. -/
theorem replay_rejected (happ : app.WritesAccounts) :
    (∀ s s', Chain app (Unexhausted app) s s' → Ascending s.store s'.store) ∧
    ∀ (s s' : DeliverState ρ) (tx : StdTx Msg) (txSize txSize' : ℕ) (o o' : TxOutcome ρ),
      Unexhausted app s tx → runTx app s tx txSize = .ok o → .ante ∈ o.written →
      Chain app (Unexhausted app) o.state s' → runTx app s' tx txSize' = .ok o' →
      readyFrame app s' tx txSize' = none ∧ o'.result.code ≠ .ok ∧ o'.state.store = s'.store ∧
        .ante ∉ o'.written ∧ .msgs ∉ o'.written := by
  refine ⟨fun s s' h => h.ascending happ, ?_⟩
  intro s s' tx txSize txSize' o o' hcap h hante hchain h'
  have hspent := (spent_of_ante happ hcap h hante).of_ascending (hchain.ascending happ)
  rcases runTx_cases app s' tx txSize' h' with ⟨hnone, hcode, hstore, hwritten⟩ | ⟨f, hready, _⟩
  · exact ⟨hnone, hcode, hstore, hwritten .ante (by simp), hwritten .msgs (by simp)⟩
  · exact absurd (sequenced_of_readyFrame app hready) hspent.not_sequenced

lemma sampleApp_writesAccounts : sampleApp.WritesAccounts := by
  intro route handler hroute ctx s msg
  cases hroute
  refine .bind (.any _) (fun _ _ => .bind (.any _) (fun bank _ => .pure ?_))
  exact .single (.other rfl)

/-- A transfer is delivered once; the same transaction is rejected afterwards. -/
theorem sampleTx_not_replayed : ∃ o o', runTx sampleApp (sampleState 1000) (sampleTx 5) 20 = .ok o ∧
    .msgs ∈ o.written ∧ runTx sampleApp o.state (sampleTx 5) 20 = .ok o' ∧ .msgs ∉ o'.written := by
  have hrun : returns (fun o => .ante ∈ o.written ∧ .msgs ∈ o.written ∧
      returns (fun _ => true) (runTx sampleApp o.state (sampleTx 5) 20) = true)
      (runTx sampleApp (sampleState 1000) (sampleTx 5) 20) = true := by decide +kernel
  obtain ⟨o, ho, hrun⟩ := of_returns hrun
  obtain ⟨hante, hmsgs, hreturns⟩ := of_decide_eq_true hrun
  obtain ⟨o', ho', _⟩ := of_returns hreturns
  refine ⟨o, o', ho, hmsgs, ho', ?_⟩
  have hcap : Unexhausted sampleApp (sampleState 1000) (sampleTx 5) := by
    intro addr haddr info hinfo
    obtain rfl : addr = 1 := mem_singleton.mp haddr
    cases hinfo
    decide
  have hrejected :=
    (replay_rejected sampleApp_writesAccounts).2 _ _ _ _ _ o o' hcap ho hante .refl ho'
  exact hrejected.2.2.2.2

def exhaustedState : DeliverState Unit :=
  { sampleState 1000 with
    store := { sampleStore with
      accountInfo := Store.empty.set 1
        { accountNumber := 7, sequence := 2 ^ 64 - 1, pubKey := none, memoRegexp := "" } } }

def lastTx : StdTx SampleMsg :=
  { sampleTx 5 with
    signatures := [{ pubKey := some (.secp256k1 1), signature := .bytes 0, accountNumber := 7,
                     sequence := 2 ^ 64 - 1 }] }

/-- Sequence starts again at zero. -/
theorem sequence_wraps_around : ∃ o, runTx sampleApp exhaustedState lastTx 20 = .ok o ∧
    o.result.code = .ok ∧
    (exhaustedState.store.accountInfo.get 1).map (·.sequence) = some (2 ^ 64 - 1) ∧
    (o.state.store.accountInfo.get 1).map (·.sequence) = some 0 := by
  have hrun : returns (fun o => o.result.code = .ok ∧
      (exhaustedState.store.accountInfo.get 1).map (·.sequence) = some (2 ^ 64 - 1) ∧
      (o.state.store.accountInfo.get 1).map (·.sequence) = some 0)
      (runTx sampleApp exhaustedState lastTx 20) = true := by decide +kernel
  obtain ⟨o, ho, hrun⟩ := of_returns hrun
  exact ⟨o, ho, of_decide_eq_true hrun⟩

end
end Irishub.BaseApp
