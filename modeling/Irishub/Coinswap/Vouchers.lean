import Irishub.Bank.Msg
import Irishub.Coinswap.PoolValue

/-!
# Coinswap: vouchers are backed

The account of a pool holds as many vouchers as it has issued, which is the divisor of
every share, but the pool is an ordinary account and anybody can send coins to it.

`excess` is what the pool holds beyond the vouchers of all other accounts. Every
operation changes it by twice the vouchers that it delivers to the pool
(`excess_run`), so that after any number of operations the vouchers are backed exactly
when none of them delivered any (`vouchers_backed_iff`).
-/

namespace Irishub.Coinswap
open Lib Bank List String

section

/-- Messages of the module, and those of the bank that move coins. -/
inductive Op
  | coinswap (msg : Msg)
  | send (msg : Bank.MsgSend)
  | burn (msg : Bank.MsgBurn)
  deriving DecidableEq

namespace Op

/-- `GetSigners`. -/
def signers : Op → List Address
  | coinswap msg => [msg.sender]
  | send msg => msg.inputs.map (·.address)
  | burn msg => [msg.owner]

def run (env : Env) (b : Bank) : Op → Outcome Bank
  | coinswap msg => do
    msg.validateBasic
    msg.handle env b
  | send msg => b.deliverSend msg
  | burn msg => b.deliverBurn msg

/-- Vouchers of `t` that a message of the bank delivers to the pool of `t`. -/
def vouchersToPool (env : Env) (t : String) : Op → ℤ
  | coinswap _ => 0
  | send msg => Bank.amountAt (poolAddr env t) (uniDenom t) msg.outputs
  | burn msg =>
    if poolAddr env t = burnedCoinsAccAddr then Coins.denomSum (uniDenom t) msg.coins else 0

end Op

/-- Vouchers of `t` that are not in the pool of `t`. -/
def heldByOthers (env : Env) (b : Bank) (t : String) : ℤ :=
  Store.total (fun a cs => if a = poolAddr env t then 0 else cs.amountOf (uniDenom t)) b.accounts

/-- Pool of `t` holds as many vouchers as all other accounts together. -/
def VouchersBacked (env : Env) (b : Bank) (t : String) : Prop :=
  b.balance (poolAddr env t) (uniDenom t) = heldByOthers env b t

instance (env : Env) (b : Bank) (t : String) : Decidable (VouchersBacked env b t) :=
  inferInstanceAs (Decidable (_ = _))

def excess (env : Env) (b : Bank) (t : String) : ℤ :=
  b.balance (poolAddr env t) (uniDenom t) - heldByOthers env b t

end

lemma matchCoinName_two_colons (cs : List Char) :
    matchCoinName ('u' :: 'n' :: 'i' :: ':' :: 'u' :: 'n' :: 'i' :: ':' :: cs) = false := by
  have hword : ∀ cs', isWord ('u' :: 'n' :: 'i' :: ':' :: cs') = false := by
    intro cs'
    simp [isWord, isLowerAlnum, isLowerLetter]
  have hstrip : stripAbs ('u' :: 'n' :: 'i' :: ':' :: 'u' :: 'n' :: 'i' :: ':' :: cs) =
      'u' :: 'n' :: 'i' :: ':' :: cs := by simp [stripAbs, isLowerAlnum, isLowerLetter]
  have hsource : stripSource ('u' :: 'n' :: 'i' :: ':' :: cs) = 'u' :: 'n' :: 'i' :: ':' :: cs := by
    unfold stripSource
    split
    · rw [if_neg]
      simp [hword]
    · rfl
  rw [matchCoinName, hstrip, hsource, hword]

lemma not_uni_of_checkUniDenom {u : String} (hu : checkUniDenom u = .ok ()) :
    hasPrefix (trimPrefix u formatUniABSPrefix) formatUniABSPrefix = false := by
  obtain ⟨heq, _, hne, hvalid⟩ := uniDenom_of_checkUniDenom hu
  rw [Bool.eq_false_iff]
  intro hbegins
  obtain ⟨r, hr⟩ := hasPrefix_iff.mp hbegins
  have hlist : u.toList = 'u' :: 'n' :: 'i' :: ':' :: 'u' :: 'n' :: 'i' :: ':' :: r.toList := by
    rw [heq, uniDenom, hr, toList_append, toList_append]
    rfl
  have hmatch : matchDenom u.toList = true := by
    unfold isCoinMinDenomValid at hvalid
    split_ifs at hvalid
    exact hvalid
  rw [hlist] at hmatch
  unfold matchDenom at hmatch
  split at hmatch
  · simp [matchCoinName_two_colons] at hmatch
  · rw [matchCoinName_two_colons] at hmatch
    exact absurd hmatch (by decide)

lemma uniDenom_injective {t t' : String} (h : uniDenom t = uniDenom t') : t = t' := by
  have hlist := congrArg String.toList h
  rw [uniDenom, uniDenom, toList_append, toList_append] at hlist
  exact toList_injective (append_cancel_left hlist)

lemma amountIn_uniDenom {d : String} (h : hasPrefix d formatUniABSPrefix = false) (n : ℤ)
    (t : String) : (⟨d, n⟩ : Coin).amountIn (uniDenom t) = 0 := by
  rw [Coin.amountIn, if_neg (fun heq => uniDenom_ne h heq.symm)]

section
variable {env : Env} {b b' b'' : Bank} {t d : String} {n : ℤ} {sender : Address}
  {irisCoin token : Coin}

lemma sumOf_eq_heldByOthers_add (env : Env) (b : Bank) (t : String) : b.sumOf (uniDenom t) =
      heldByOthers env b t + b.balance (poolAddr env t) (uniDenom t) := by
  have hrest := Store.total_sub_contribution_congr
    (f := fun _ (cs : StoredCoins) => cs.amountOf (uniDenom t))
    (g := fun a cs => if a = poolAddr env t then 0 else cs.amountOf (uniDenom t))
    (s := b.accounts) (k := poolAddr env t) (fun k cs hk => (if_neg hk).symm)
  have hpool : Store.contribution (fun _ (cs : StoredCoins) => cs.amountOf (uniDenom t)) b.accounts
      (poolAddr env t) = b.balance (poolAddr env t) (uniDenom t) := by
    unfold Store.contribution Bank.balance Bank.getCoins
    cases b.accounts.get (poolAddr env t) with
    | none | some cs => rfl
  have hzero : Store.contribution
      (fun a (cs : StoredCoins) => if a = poolAddr env t then 0 else cs.amountOf (uniDenom t))
      b.accounts (poolAddr env t) = 0 := by
    unfold Store.contribution
    cases b.accounts.get (poolAddr env t) with
    | none => rfl
    | some cs => simp
  unfold Bank.sumOf heldByOthers
  omega

lemma excess_of_changes {m : ℤ} (hpool : b'.balance (poolAddr env t) (uniDenom t) =
      b.balance (poolAddr env t) (uniDenom t) + m)
    (hsum : b'.sumOf (uniDenom t) = b.sumOf (uniDenom t) + n) :
    excess env b' t = excess env b t + (2 * m - n) := by
  have h := sumOf_eq_heldByOthers_add env b t
  have h' := sumOf_eq_heldByOthers_add env b' t
  unfold excess
  omega

lemma excess_of_same_changes (hpool : b'.balance (poolAddr env t) (uniDenom t) =
      b.balance (poolAddr env t) (uniDenom t) + n)
    (hsum : b'.sumOf (uniDenom t) = b.sumOf (uniDenom t) + 2 * n) :
    excess env b' t = excess env b t := by
  rw [excess_of_changes hpool hsum]
  ring

/-- No balance of a denomination changes. -/
structure Unmoved (b b' : Bank) (d : String) : Prop where
  balance : ∀ a, b'.balance a d = b.balance a d
  sum : b'.sumOf d = b.sumOf d

lemma Unmoved.trans (h : Unmoved b b' d) (h' : Unmoved b' b'' d) : Unmoved b b'' d :=
  ⟨fun a => (h'.balance a).trans (h.balance a), h'.sum.trans h.sum⟩

lemma unmoved_of_swapCoins {recipient : Option Address} {sold bought : Coin}
    (h : swapCoins env b sender recipient sold bought = .ok b') (hs : sold.denom ≠ d)
    (hb : bought.denom ≠ d) : Unmoved b b' d := by
  constructor
  · intro a
    obtain ⟨uid, _, hbal⟩ := balance_swapCoins h
    rw [hbal, Coin.amountIn, Coin.amountIn, if_neg hs, if_neg hb]
    simp
  · simp only [swapCoins, bind_ok] at h
    obtain ⟨_, _, _, _, b1, h1, _, _, h2⟩ := h
    rw [sumOf_sendCoins h2, sumOf_sendCoins h1]

lemma unmoved_of_handleSwap {msg : MsgSwapOrder} (hv : msg.validateBasic = .ok ())
    (h : handleSwap env b msg = .ok b') : Unmoved b b' (uniDenom t) := by
  obtain ⟨hin, hout, _⟩ := swappable_of_validateBasic hv
  have hin' := hin.ne_uniDenom (t := t)
  have hout' := hout.ne_uniDenom (t := t)
  have hiris := swappable_iris.ne_uniDenom (t := t)
  cases trades_of_handleSwap h with
  | doubleExactOutput _ _ _ _ _ _ h1 h2 | doubleExactInput _ _ _ h1 _ _ _ h2 =>
    exact (unmoved_of_swapCoins h1 hin' hiris).trans (unmoved_of_swapCoins h2 hiris hout')
  | exactOutput _ _ _ h1 | exactInput _ _ _ h1 => exact unmoved_of_swapCoins h1 hin' hout'

lemma sumOf_addLiquidity {uid u : String} {mint : ℤ}
    (h : addLiquidity env b sender irisCoin token uid mint = .ok b')
    (hu : getUniDenom uid = .ok u) (d : String) :
    b'.sumOf d = b.sumOf d + 2 * (⟨u, mint⟩ : Coin).amountIn d := by
  simp only [addLiquidity, bind_ok, Coin.newCoin_ok, hu, Except.ok.injEq] at h
  obtain ⟨_, _, b1, h1, _, rfl, _, ⟨rfl, _⟩, mintToken, hm, b2, h2, h3⟩ := h
  rw [sumOf_addCoins h3, sumOf_addCoins h2, sumOf_sendCoins h1, denomSum_newCoins_singleton hm]
  ring

lemma sumOf_removeLiquidity {pool : Address} {uni : Coin}
    (h : removeLiquidity b pool sender uni irisCoin token = .ok b') (d : String) :
    b'.sumOf d = b.sumOf d - 2 * uni.amountIn d := by
  simp only [removeLiquidity, bind_ok] at h
  obtain ⟨delta, hdelta, b1, h1, b2, h2, _, _, h3⟩ := h
  rw [sumOf_sendCoins h3, sumOf_subtractCoins h2, sumOf_subtractCoins h1,
    denomSum_newCoins_singleton hdelta]
  ring

lemma excess_handleAddLiquidity {msg : MsgAddLiquidity} (hv : msg.validateBasic = .ok ())
    (hsender : msg.sender ≠ poolAddr env t) (h : handleAddLiquidity env b msg = .ok b') :
    excess env b' t = excess env b t := by
  have htoken := (token_of_validateBasic hv).1
  obtain ⟨mint, amount, _, hadd⟩ := eq_of_handleAddLiquidity hv h
  obtain ⟨u, hu, _, hbal⟩ := balance_addLiquidity hadd
  have hsum := sumOf_addLiquidity hadd hu (uniDenom t)
  obtain rfl := eq_of_getUniDenom htoken hu
  have hpool := hbal (poolAddr env t) (uniDenom t)
  rw [amountIn_uniDenom swappable_iris.2 msg.exactIrisAmt t,
    amountIn_uniDenom htoken.not_uni amount t, if_neg hsender.symm, if_neg hsender.symm] at hpool
  by_cases heq : msg.maxToken.denom = t
  · subst heq
    rw [if_pos (show poolAddr env _ = getReservePoolAddr env (uniId _) from rfl),
      if_pos (show poolAddr env _ = getReservePoolAddr env (uniId _) from rfl)] at hpool
    exact excess_of_same_changes (by simpa [Coin.amountIn] using hpool)
      (by simpa [Coin.amountIn] using hsum)
  · have hmint0 : (⟨uniDenom msg.maxToken.denom, mint⟩ : Coin).amountIn (uniDenom t) = 0 := by
      rw [Coin.amountIn, if_neg (fun h => heq (uniDenom_injective h))]
    rw [hmint0] at hpool hsum
    exact excess_of_same_changes (n := 0) (by simpa using hpool) (by simpa using hsum)

lemma amount_of_validateBasic {msg : MsgRemoveLiquidity} (hv : msg.validateBasic = .ok ()) :
    0 < msg.withdrawLiquidity.amount ∧ checkUniDenom msg.withdrawLiquidity.denom = .ok () := by
  simp only [MsgRemoveLiquidity.validateBasic, bind_ok, require_ok, Coin.isPositive,
    Bool.and_eq_true, decide_eq_true_eq] at hv
  obtain ⟨_, _, _, hw, ⟨⟩, hu, _⟩ := hv
  exact ⟨hw.2, hu⟩

/-- A withdrawal takes the vouchers of its token from the pool and pays out none. -/
lemma vouchers_handleRemoveLiquidity {msg : MsgRemoveLiquidity} (hv : msg.validateBasic = .ok ())
    (hsender : msg.sender ≠ poolAddr env t) (h : handleRemoveLiquidity env b msg = .ok b') :
    b'.balance (poolAddr env t) (uniDenom t) = b.balance (poolAddr env t) (uniDenom t) -
      if msg.withdrawLiquidity.denom = uniDenom t then msg.withdrawLiquidity.amount else 0 := by
  obtain ⟨_, hu⟩ := amount_of_validateBasic hv
  have huni := (uniDenom_of_checkUniDenom hu).1
  obtain ⟨_, hremove⟩ := eq_of_handleRemoveLiquidity rfl hu h
  have hpool := balance_removeLiquidity hremove (poolAddr env t) (uniDenom t)
  rw [amountIn_uniDenom swappable_iris.2, amountIn_uniDenom (not_uni_of_checkUniDenom hu),
    if_neg hsender.symm, if_neg hsender.symm] at hpool
  by_cases heq : msg.withdrawLiquidity.denom = uniDenom t
  · have htoken : trimPrefix msg.withdrawLiquidity.denom formatUniABSPrefix = t :=
      uniDenom_injective (huni.symm.trans heq)
    rw [htoken, if_pos rfl, if_pos rfl, Coin.amountIn, if_pos heq] at hpool
    rw [if_pos heq]
    linarith
  · rw [Coin.amountIn, if_neg heq] at hpool
    rw [if_neg heq]
    simpa using hpool

lemma excess_handleRemoveLiquidity {msg : MsgRemoveLiquidity} (hv : msg.validateBasic = .ok ())
    (hsender : msg.sender ≠ poolAddr env t) (h : handleRemoveLiquidity env b msg = .ok b') :
    excess env b' t = excess env b t := by
  obtain ⟨_, hu⟩ := amount_of_validateBasic hv
  obtain ⟨_, hremove⟩ := eq_of_handleRemoveLiquidity rfl hu h
  have hpool := vouchers_handleRemoveLiquidity hv hsender h
  have hsum := sumOf_removeLiquidity hremove (uniDenom t)
  rw [Coin.amountIn] at hsum
  exact excess_of_same_changes (n := -(if msg.withdrawLiquidity.denom = uniDenom t then
    msg.withdrawLiquidity.amount else 0)) (by linarith) (by linarith)

lemma excess_run {op : Op} (hsigned : poolAddr env t ∉ op.signers) (h : op.run env b = .ok b') :
    excess env b' t = excess env b t + 2 * op.vouchersToPool env t ∧
      0 ≤ op.vouchersToPool env t := by
  cases op with
  | coinswap msg =>
    obtain ⟨_, hv, h⟩ := bind_ok.mp h
    have hsender : msg.sender ≠ poolAddr env t := by simpa [Op.signers, eq_comm] using hsigned
    refine ⟨?_, le_rfl⟩
    rw [Op.vouchersToPool, mul_zero, add_zero]
    cases msg with
    | swap msg =>
      have hunmoved := unmoved_of_handleSwap (t := t) hv h
      exact excess_of_same_changes (n := 0) (by simpa using hunmoved.balance _)
        (by simpa using hunmoved.sum)
    | add msg => exact excess_handleAddLiquidity hv hsender h
    | remove msg => exact excess_handleRemoveLiquidity hv hsender h
  | send msg =>
    obtain ⟨hmoved, _⟩ := deliverSend_ok h
    have hinputs : Bank.amountAt (poolAddr env t) (uniDenom t) msg.inputs = 0 :=
      amountAt_eq_zero (fun x hx heq => hsigned (mem_map.mpr ⟨x, hx, heq⟩)) _
    have hpool := balance_inputOutputCoins hmoved (poolAddr env t) (uniDenom t)
    rw [hinputs, sub_zero] at hpool
    obtain ⟨_, _, houtputs⟩ := bind_ok.mp hmoved
    constructor
    · rw [excess_of_changes (n := 0) hpool (by rw [sumOf_deliverSend h, add_zero]), sub_zero]
      rfl
    · exact amountAt_nonneg (isValid_of_foldlM (f := Bank.addCoins)
        (fun _ _ _ _ hadd => isValid_of_addCoins hadd) houtputs) _
  | burn msg =>
    obtain ⟨_, _, h⟩ := bind_ok.mp h
    have hsend : b.sendCoins msg.owner burnedCoinsAccAddr msg.coins = .ok b' := h
    have howner : poolAddr env t ≠ msg.owner := by simpa [Op.signers] using hsigned
    have hpool := balance_sendCoins hsend (poolAddr env t) (uniDenom t)
    rw [if_neg howner, sub_zero] at hpool
    obtain ⟨_, hsub, _⟩ := bind_ok.mp hsend
    constructor
    · rw [excess_of_changes (n := 0) hpool (by rw [sumOf_sendCoins hsend, add_zero]), sub_zero]
      rfl
    · rw [Op.vouchersToPool]
      split_ifs
      · exact denomSum_nonneg_of_subtractCoins hsub
      · exact le_rfl

end

section
variable {env : Env} {b b' : Bank} {t : String}

lemma excess_run_list {ops : List Op} (hsigned : ∀ op ∈ ops, poolAddr env t ∉ op.signers)
    (h : ops.foldlM (Op.run env) b = .ok b') :
    excess env b' t = excess env b t + 2 * (ops.map (Op.vouchersToPool env t)).sum ∧
      ∀ op ∈ ops, 0 ≤ op.vouchersToPool env t := by
  induction ops generalizing b with
  | nil =>
    cases h
    simp
  | cons op ops ih =>
    rw [foldlM_cons] at h
    obtain ⟨b1, hfirst, h⟩ := bind_ok.mp h
    rw [forall_mem_cons] at hsigned
    obtain ⟨hchange, hnonneg⟩ := excess_run hsigned.1 hfirst
    obtain ⟨hrest, hall⟩ := ih hsigned.2 h
    refine ⟨?_, forall_mem_cons.mpr ⟨hnonneg, hall⟩⟩
    rw [hrest, hchange, map_cons, sum_cons]
    ring

lemma vouchersBacked_iff_excess : VouchersBacked env b t ↔ excess env b t = 0 := by
  rw [VouchersBacked, excess, sub_eq_zero]

/-- After any run of messages that nobody signs for the pool, the vouchers of the pool are backed
exactly when no message of the bank delivered vouchers to it. -/
theorem vouchers_backed_iff {ops : List Op} (hb : VouchersBacked env b t)
    (hsigned : ∀ op ∈ ops, poolAddr env t ∉ op.signers) (h : ops.foldlM (Op.run env) b = .ok b') :
    VouchersBacked env b' t ↔ ∀ op ∈ ops, op.vouchersToPool env t = 0 := by
  obtain ⟨hchange, hnonneg⟩ := excess_run_list hsigned h
  rw [vouchersBacked_iff_excess] at hb ⊢
  rw [hchange, hb]
  constructor
  · intro hexcess op hop
    have hsum : (ops.map (Op.vouchersToPool env t)).sum = 0 := by omega
    exact all_zero_of_le_zero_le_of_sum_eq_zero (by simpa using hnonneg) hsum
      (mem_map_of_mem hop)
  · intro hnone
    rw [map_congr_left (g := fun _ => 0) hnone]
    simp

end

def newProviderBank : Bank where
  accounts := Store.empty
    |>.set 1 ⟨[⟨"btc-min", 600⟩, ⟨"iris-atto", 600⟩], by decide, by decide⟩
  totalLoosenToken := ⟨[⟨"iris-atto", 600⟩], by decide, by decide⟩
  totalSupply := Store.empty

def openPool : Op :=
  .coinswap (.add ⟨⟨"btc-min", 100⟩, 100, 0, 1, 1⟩)

def sendVouchers (recipient : Address) (amount : ℤ) : Op :=
  .send ⟨[⟨1, [⟨"uni:btc-min", amount⟩]⟩], [⟨recipient, [⟨"uni:btc-min", amount⟩]⟩]⟩

/-- Half of the vouchers are sent to the pool: it counts three times as many as there are left, and
account 1 can withdraw a third of the reserves at most. -/
theorem vouchers_sent_to_pool : VouchersBacked sampleEnv newProviderBank "btc-min" ∧
      ∃ b', [openPool, sendVouchers (poolAddr sampleEnv "btc-min") 50].foldlM (Op.run sampleEnv)
          newProviderBank = .ok b' ∧
        b'.balance (poolAddr sampleEnv "btc-min") (uniDenom "btc-min") = 150 ∧
        heldByOthers sampleEnv b' "btc-min" = 50 ∧ ¬ VouchersBacked sampleEnv b' "btc-min" := by
  refine ⟨by decide +kernel, ?_⟩
  obtain ⟨b', hb', hheld⟩ := of_returns
    (p := fun (b' : Bank) => decide (
      b'.balance (poolAddr sampleEnv "btc-min") (uniDenom "btc-min") = 150 ∧
      heldByOthers sampleEnv b' "btc-min" = 50))
    (x := [openPool, sendVouchers (poolAddr sampleEnv "btc-min") 50].foldlM (Op.run sampleEnv)
      newProviderBank) (by decide +kernel)
  obtain ⟨hpool, hothers⟩ := of_decide_eq_true hheld
  refine ⟨b', hb', hpool, hothers, ?_⟩
  rw [VouchersBacked, hpool, hothers]
  decide

/-- Vouchers that are sent to another account, burned and withdrawn stay backed. -/
theorem vouchers_sent_on_backed :
    ∃ b', [openPool, sendVouchers 2 30, .burn ⟨1, [⟨"uni:btc-min", 10⟩]⟩,
          .coinswap (withdrawVouchers 20)].foldlM (Op.run sampleEnv) newProviderBank = .ok b' ∧
        b'.balance (poolAddr sampleEnv "btc-min") (uniDenom "btc-min") = 80 ∧
        VouchersBacked sampleEnv b' "btc-min" := by
  obtain ⟨b', hb', hpool⟩ := of_returns
    (p := fun (b' : Bank) => decide (
      b'.balance (poolAddr sampleEnv "btc-min") (uniDenom "btc-min") = 80))
    (x := [openPool, sendVouchers 2 30, .burn ⟨1, [⟨"uni:btc-min", 10⟩]⟩,
      .coinswap (withdrawVouchers 20)].foldlM (Op.run sampleEnv) newProviderBank)
    (by decide +kernel)
  exact ⟨b', hb', of_decide_eq_true hpool,
    (vouchers_backed_iff (by decide +kernel) (by decide +kernel) hb').mpr (by decide +kernel)⟩

end Irishub.Coinswap
