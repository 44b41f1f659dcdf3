import Irishub.Service.Settlement

/-!
# Service: deposits

Over every run the deposit account covers the deposits of all bindings, and the deposit
under a key is what was paid in under that key less what was refunded and slashed.
After no event is this difference negative, so that a slash and a refund take what is
there and nothing is paid back twice. A binding that is available has a deposit that
is at least the min deposit of its prices: each message and each slash that leaves a
binding available has compared the two.
-/

namespace Irishub.Service
open Lib State

section
variable {env : Env} {s s' : State} {log log₀ : Log} {l : Logged} {tested : Prop} {key : String}

/-- Deposits of a state as its log has them, and the cover of what is available. -/
structure Deposits (s : State) (log : Log) : Prop where
  ledger : ∀ key, log.total (Event.depositChange key) = s.depositAt key
  nonneg : ∀ log', log' <+: log → ∀ key, 0 ≤ Log.total log' (Event.depositChange key)
  covered : ∀ key b, s.bindings.get key = some b → b.available = true → b.Covered s.params

lemma total_depositChange (h : ∀ e ∈ log, e.key? = some key) (k : String) :
    log.total (Event.depositChange k) = if key = k then log.total Event.deposits else 0 := by
  split_ifs with hk
  · refine congrArg List.sum (List.map_congr_left (fun e he => ?_))
    rw [Event.depositChange_eq, h e he, if_pos (congrArg some hk)]
  · refine Log.total_eq_zero (fun e he => ?_)
    rw [Event.depositChange_eq, h e he, if_neg (fun heq => hk (Option.some.inj heq))]

lemma Effect.depositAt (he : Effect env tested s log s') (k : String) :
    s'.depositAt k = s.depositAt k + log.total (Event.depositChange k) := by
  cases he.change with
  | define | accept => exact (add_zero _).symm
  | @write _ b bank hw =>
    rw [total_depositChange hw.key]
    simp only [State.depositAt, Store.contribution, setBinding, Store.get_set]
    split_ifs with hk hk' hk'
    · rw [hk]
      exact hw.deposit
    · exact absurd hk.symm hk'
    · exact absurd hk'.symm hk
    · exact (add_zero _).symm
  | book hstep hkey =>
    have hzero : log.total (Event.depositChange k) = 0 := by
      refine Log.total_eq_zero (fun e he => ?_)
      rw [Event.depositChange_eq, hkey e he]
      rfl
    rw [hzero]
    exact (add_zero _).symm

lemma State.Backed.depositAt_nonneg (h : s.Backed env) (key : String) : 0 ≤ s.depositAt key := by
  unfold State.depositAt Store.contribution
  cases hb : s.bindings.get key with
  | none => exact le_rfl
  | some b => exact (h.bindings key b hb).2.deposit.nonneg

lemma Deposits.effect (h : Deposits s log₀) (hs : s.Backed env)
    (he : Effect env tested s log s') : Deposits s' (log₀ ++ log) := by
  have hledger : ∀ key, Log.total (log₀ ++ log) (Event.depositChange key) = s'.depositAt key := by
    intro key
    rw [Log.total_append, h.ledger, he.depositAt]
  refine ⟨hledger, fun log' hlog' key => ?_, ?_⟩
  · -- an effect logs one event at most, so a new beginning of the log is all of it
    have hall : log' <+: log₀ ∨ log' = log₀ ++ log := by
      rcases Nat.le_one_iff_eq_zero_or_eq_one.mp he.single with hzero | hone
      · rw [List.length_eq_zero_iff.mp hzero, List.append_nil] at hlog'
        exact .inl hlog'
      · obtain ⟨e, rfl⟩ := List.length_eq_one_iff.mp hone
        exact (List.prefix_concat_iff.mp hlog').symm
    rcases hall with hold | rfl
    · exact h.nonneg log' hold key
    · rw [hledger]
      exact (he.backed hs).depositAt_nonneg key
  · cases he.change with
    | define | accept | book => exact h.covered
    | write hw => exact Store.forall_set h.covered hw.covered

/-- Deposits of a state are backed, recorded and sufficient. -/
structure Logged.DepositsBacked (env : Env) (l : Logged) : Prop where
  solvent : ∀ denom, Store.total (fun _ b => Coins.denomSum denom b.deposit) l.state.bindings ≤
    l.state.bank.balance serviceDepositCoinsAccAddr denom
  ledger : ∀ key, l.log.total (Event.depositChange key) = l.state.depositAt key
  nonneg : ∀ log, log <+: l.log → ∀ key, 0 ≤ Log.total log (Event.depositChange key)
  slash : ∀ key b, l.state.bindings.get key = some b →
    ∃ slashCoins, shareOf l.state.params.slashFraction b.deposit = .ok slashCoins ∧
      ∀ denom, Coins.denomSum denom slashCoins ≤ Coins.denomSum denom b.deposit
  refundOnce : ∀ msg msg' s', l.state.refundDeposit env msg = .ok s' →
    msg'.toBindingRef.key env = msg.toBindingRef.key env →
    s'.refundDeposit env msg' = fail .errRefundDeposit
  covered : ∀ key b, l.state.bindings.get key = some b → b.available = true →
    ∃ minDeposit, getMinDeposit l.state.params b.prices = .ok minDeposit ∧
      ∀ denom, Coins.denomSum denom minDeposit ≤ Coins.denomSum denom b.deposit

lemma denomSum_le_of_iris {cs ds : Coins} (hcs : cs.IrisOnly) (hds : ds.IrisOnly)
    (hle : cs.iris ≤ ds.iris) (denom : String) :
    Coins.denomSum denom cs ≤ Coins.denomSum denom ds := by
  rw [Coins.denomSum_of_irisOnly hcs, Coins.denomSum_of_irisOnly hds]
  split_ifs
  · exact hle
  · exact le_rfl

lemma State.Backed.deposits_le (h : s.Backed env) (denom : String) :
    Store.total (fun _ (b : SvcBinding) => Coins.denomSum denom b.deposit) s.bindings ≤
      s.bank.balance serviceDepositCoinsAccAddr denom := by
  by_cases hd : denom = irisAtto
  · rw [hd]
    exact h.deposits
  · have hzero : Store.total (fun _ (b : SvcBinding) => Coins.denomSum denom b.deposit)
        s.bindings ≤ Store.total (fun _ _ => 0) s.bindings := by
      refine Store.total_le_total (fun k b hb => ?_)
      rw [Coins.denomSum_of_irisOnly (h.bindings k b hb).2.deposit, if_neg hd]
    refine hzero.trans ?_
    simpa [Store.total] using s.bank.balance_nonneg serviceDepositCoinsAccAddr denom

lemma refundDeposit_again (h : s.Backed env) {msg msg' : MsgSvcRefundDeposit}
    (hrun : s.refundDeposit env msg = .ok s')
    (hkey : msg'.toBindingRef.key env = msg.toBindingRef.key env) :
    s'.refundDeposit env msg' = fail .errRefundDeposit := by
  simp only [refundDeposit, bind_ok, mustGetBinding_ok, require_ok, sendCoins_eq_ok,
    pure_eq_ok] at hrun
  obtain ⟨b, hb, _, havail, _, _, _, _, _, ⟨bank, _, rfl⟩, rfl⟩ := hrun
  have hget : ({ s with bank := bank }.setBinding env { b with deposit := [] }).mustGetBinding env
      msg'.toBindingRef = .ok { b with deposit := [] } := by
    rw [mustGetBinding_ok, hkey, (h.bindings _ _ hb).1]
    exact Store.get_set_self _ _ _
  have havail' : b.available = false := by simpa using havail
  unfold refundDeposit
  rw [hget, ok_bind, havail']
  rfl

lemma State.Initial.deposits (hs : s.Initial) : Deposits s [] where
  ledger key := by simp [Log.total, State.depositAt, Store.contribution, hs.bindings]
  nonneg log' hlog' key := by simp [List.prefix_nil.mp hlog', Log.total]
  covered key b hb := by simp [hs.bindings] at hb

/-- In every run the deposits are covered, recorded and sufficient. -/
theorem deposits_backed (hs : s.Initial)
    (hrun : Relation.ReflTransGen (LoggedStep env) ⟨s, []⟩ l) : l.DepositsBacked env := by
  have hinv := Logged.Inv.run hs hrun
  have hdeposits : Deposits l.state l.log :=
    Logged.kept (fun _ _ _ _ _ hs hd he => hd.effect hs he)
      (fun _ _ _ _ _ hd => ⟨hd.ledger, hd.nonneg, hd.covered⟩) hs hs.deposits hrun
  constructor
  · exact hinv.backed.deposits_le
  · exact hdeposits.ledger
  · exact hdeposits.nonneg
  · intro key b hb
    obtain ⟨slashCoins, hshare, hiris, hle⟩ := hinv.backed.slashShare hb
    exact ⟨slashCoins, hshare,
      denomSum_le_of_iris hiris (hinv.backed.bindings _ _ hb).2.deposit hle⟩
  · exact fun msg msg' s' hrefund hkey => refundDeposit_again hinv.backed hrefund hkey
  · intro key b hb havail
    have hsound := (hinv.backed.bindings _ _ hb).2
    obtain ⟨minDeposit, hmin, hgte⟩ := hdeposits.covered key b hb havail
    obtain ⟨hiris, _⟩ := getMinDeposit_ok hinv.backed.params_bounds.1 hsound.prices hmin
    exact ⟨minDeposit, hmin,
      denomSum_le_of_iris hiris hsound.deposit ((hsound.deposit.isAllGTE_iff hiris).mp hgte)⟩

/-- A provider that is slashed keeps a deposit, of which it is refunded the rest. -/
theorem sampleDeposit_slashed :
    ∃ l, Relation.ReflTransGen (LoggedStep sampleEnv) ⟨sampleState, []⟩ l ∧
      l.state.depositAt (sampleRef.key sampleEnv) = 999 ∧ l.DepositsBacked sampleEnv := by
  obtain ⟨l, hrun, hdeposit⟩ := @loggedRun_of_returns sampleEnv ⟨sampleState, []⟩
    (sampleRequestOps ++ sampleBlocks ++ [Op.endBlock 6])
    (fun l => decide (l.state.depositAt (sampleRef.key sampleEnv) = 999))
    (by decide +kernel) (by decide +kernel)
  exact ⟨l, hrun, by simpa using hdeposit, deposits_backed sampleState_initial hrun⟩

end
end Irishub.Service
