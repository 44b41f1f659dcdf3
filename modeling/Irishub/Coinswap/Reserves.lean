import Irishub.Coinswap.Vouchers

/-!
# Coinswap: no pool is drained

A pool with vouchers has iris and tokens (`Stocked`). A swap buys less than the pool
holds of the bought coin, a deposit adds to both reserves, and a withdrawal of a part
of the vouchers leaves a part of each reserve, because the amounts that it pays out
are rounded down.

A pool without vouchers may be empty. It must not come to vouchers by a message of
the bank: the pool holds at least as many vouchers as all other accounts together, so
that when it has none there is nobody who could send any.

With positive reserves none of the handlers divides by zero (`no_drained_pool`).
-/

namespace Irishub
open Lib SdkInt Bank String

section
variable {α β : Type} {p : Panic} {d : Coin} {cs : Coins}

def DividesByZero (x : Outcome α) : Prop := x = .error (.panic .divisionByZero)

@[simp] lemma dividesByZero_ok {a : α} : ¬ DividesByZero (.ok a) := by simp [DividesByZero]

@[simp] lemma dividesByZero_error {e : Fault} :
    DividesByZero (.error e : Outcome α) ↔ e = .panic .divisionByZero := by simp [DividesByZero]

@[simp] lemma dividesByZero_raise :
    DividesByZero (raise p : Outcome α) ↔ p = .divisionByZero := by simp [raise]

@[simp] lemma dividesByZero_fail {e : SdkError} : ¬ DividesByZero (fail e : Outcome α) := by
  simp [fail]

@[simp] lemma dividesByZero_bind {x : Outcome α} {f : α → Outcome β} :
    DividesByZero (x >>= f) ↔ DividesByZero x ∨ ∃ a, x = .ok a ∧ DividesByZero (f a) := by
  cases x with
  | error e | ok a => simp

@[simp] lemma dividesByZero_require {c : Bool} {e : SdkError} : ¬ DividesByZero (require c e) := by
  cases c <;> simp [require]

@[simp] lemma dividesByZero_assert {c : Bool} :
    DividesByZero (assert c p) ↔ c = false ∧ p = .divisionByZero := by cases c <;> simp [assert]

lemma dividesByZero_foldlM {ι : Type} {f : β → ι → Outcome β}
    (hf : ∀ b i, ¬ DividesByZero (f b i)) (l : List ι) (b : β) :
    ¬ DividesByZero (l.foldlM f b) := by
  induction l generalizing b with
  | nil => simp
  | cons i l ih => simp [List.foldlM_cons, hf, ih]

variable {i i2 : ℤ}

@[simp] lemma dividesByZero_checked : ¬ DividesByZero (checked i) := by
  unfold checked
  split_ifs <;> simp

@[simp] lemma dividesByZero_add : ¬ DividesByZero (add i i2) := dividesByZero_checked

@[simp] lemma dividesByZero_sub : ¬ DividesByZero (sub i i2) := dividesByZero_checked

@[simp] lemma dividesByZero_mul : ¬ DividesByZero (mul i i2) := by
  unfold mul
  split_ifs <;> simp

@[simp] lemma dividesByZero_div : DividesByZero (div i i2) ↔ i2 = 0 := by
  unfold div
  split_ifs with h <;> simp [h]

@[simp] lemma dividesByZero_newIntFromBigInt : ¬ DividesByZero (newIntFromBigInt i) := by
  unfold newIntFromBigInt
  split_ifs <;> simp

@[simp] lemma dividesByZero_newCoin {denom : String} : ¬ DividesByZero (Coin.newCoin denom i) := by
  unfold Coin.newCoin
  split_ifs <;> simp

@[simp] lemma dividesByZero_coinAdd {c : Coin} : ¬ DividesByZero (c.add d) := by
  unfold Coin.add
  split_ifs <;> simp

@[simp] lemma dividesByZero_coinSub {c : Coin} : ¬ DividesByZero (c.sub d) := by
  unfold Coin.sub
  split_ifs <;> simp

lemma dividesByZero_mergeHead {a : Coin} {as : Coins} {next : Coins → Outcome Coins}
    (hnext : ∀ bs, ¬ DividesByZero (next bs)) (bs : Coins) :
    ¬ DividesByZero (Coins.mergeHead a as next bs) := by
  induction bs with
  | nil => simp [Coins.mergeHead]
  | cons b bs ih =>
    rw [Coins.mergeHead]
    split_ifs
    · simp [hnext]
    · simp [hnext]
    · simp [ih]

@[simp] lemma dividesByZero_safeAdd {ds : Coins} : ¬ DividesByZero (Coins.safeAdd cs ds) := by
  induction cs generalizing ds with
  | nil => simp [Coins.safeAdd]
  | cons c cs ih => exact dividesByZero_mergeHead (fun _ => ih) ds

@[simp] lemma dividesByZero_newCoins : ¬ DividesByZero (Coins.newCoins cs) := by
  unfold Coins.newCoins
  simp only
  split_ifs <;> simp

lemma dividesByZero_merge {s : StoredCoins} {hcs : cs.Sorted} {f : Fault}
    (hf : f ≠ .panic .divisionByZero) : ¬ DividesByZero (s.merge cs hcs f) := by
  unfold StoredCoins.merge
  split
  · rename_i e he
    have hadd : ¬ DividesByZero (Coins.safeAdd s.coins cs) := dividesByZero_safeAdd
    simpa [he] using hadd
  · split_ifs
    · simp
    · simpa using hf

namespace Bank
variable {b : Bank} {addr : Address} {amt : Coins}

@[simp] lemma dividesByZero_decreaseTotalLoosenToken :
    ¬ DividesByZero (b.decreaseTotalLoosenToken amt) := by
  unfold decreaseTotalLoosenToken
  split_ifs
  · simp
  · split
    · simp
    · split_ifs
      · simp
      · simp [StoredCoins.sub, dividesByZero_merge]

@[simp] lemma dividesByZero_ignoreError {x : Outcome Bank} (h : ¬ DividesByZero x) :
    ¬ DividesByZero (b.ignoreError x) := by
  unfold ignoreError
  split
  · simp
  · exact h

@[simp] lemma dividesByZero_decreaseTotalSupply {coin : Coin} :
    ¬ DividesByZero (b.decreaseTotalSupply coin) := by
  unfold decreaseTotalSupply
  split_ifs
  · simp
  · simp
  · split <;> simp

lemma dividesByZero_burnArrived : ¬ DividesByZero (b.burnArrived amt) := by
  refine dividesByZero_foldlM (fun b coin => ?_) amt b
  split_ifs <;> simp

@[simp] lemma dividesByZero_addCoins : ¬ DividesByZero (b.addCoins addr amt) := by
  unfold addCoins
  split_ifs
  · simp [StoredCoins.add, dividesByZero_merge, dividesByZero_burnArrived]
  · simp [StoredCoins.add, dividesByZero_merge]
  · simp

@[simp] lemma dividesByZero_subtractCoins : ¬ DividesByZero (b.subtractCoins addr amt) := by
  unfold subtractCoins
  split_ifs
  · simp [StoredCoins.sub, dividesByZero_merge]
  · simp

@[simp] lemma dividesByZero_sendCoins {fromAddr toAddr : Address} :
    ¬ DividesByZero (b.sendCoins fromAddr toAddr amt) := by simp [sendCoins]

end Bank
end

namespace Coinswap

section
variable {env : Env} {b : Bank} {d d' : String}

lemma dividesByZero_getUniId : ¬ DividesByZero (getUniId d d') := by
  unfold getUniId
  simp only
  split
  · simp
  · split
    · simp
    · split <;> simp

lemma dividesByZero_swapCoins {sender : Address} {recipient : Option Address}
    {sold bought : Coin} : ¬ DividesByZero (swapCoins env b sender recipient sold bought) := by
  simp [swapCoins, dividesByZero_getUniId]

lemma dividesByZero_calculateWithExactInput (hfee : validateFee env.fee) {sold : Coin}
    (hsold : 0 ≤ sold.amount) {bought : String} :
    ¬ DividesByZero (calculateWithExactInput env b sold bought) := by
  obtain ⟨hnum, hle⟩ := feeFactor_bounds hfee
  unfold calculateWithExactInput
  simp only [dividesByZero_bind, dividesByZero_getUniId, false_or, not_exists, not_and]
  intro uid _
  split
  · simp
  · rename_i pool _
    simp only [dividesByZero_bind, dividesByZero_require, false_or, require_ok,
      decide_eq_true_eq, not_exists, not_and]
    intro _ hin _ hout
    simp only [getInputPrice, dividesByZero_bind, dividesByZero_newIntFromBigInt, dividesByZero_mul,
      dividesByZero_add, dividesByZero_div, false_or, not_exists, not_and,
      newIntFromBigInt_ok, add_eq_ok]
    rintro _ ⟨rfl, _⟩ inputAmtWithFee hwithFee _ _ _ ⟨rfl, _⟩ _ hscaled _ ⟨rfl, _⟩
    obtain ⟨rfl, _⟩ := eq_of_mul_ok hwithFee
    obtain ⟨rfl, _⟩ := eq_of_mul_ok hscaled
    have hscale : 0 < pool.amountOf sold.denom * ((1 - env.fee).den : ℤ) :=
      mul_pos hin (lt_of_lt_of_le hnum hle)
    have hpaid : 0 ≤ sold.amount * (1 - env.fee).num := mul_nonneg hsold hnum.le
    exact (add_pos_of_pos_of_nonneg hscale hpaid).ne'

lemma dividesByZero_calculateWithExactOutput (hfee : validateFee env.fee) {bought : Coin}
    {sold : String} : ¬ DividesByZero (calculateWithExactOutput env b bought sold) := by
  obtain ⟨hnum, _⟩ := feeFactor_bounds hfee
  unfold calculateWithExactOutput
  split
  · simp
  · split
    · simp
    · rename_i pool _
      simp only [dividesByZero_bind, dividesByZero_require, false_or, require_ok,
        decide_eq_true_eq, not_exists, not_and]
      intro _ _ _ _ _ hlt
      simp only [getOutputPrice, dividesByZero_bind, dividesByZero_newIntFromBigInt,
        dividesByZero_mul, dividesByZero_add, dividesByZero_sub, dividesByZero_div, false_or,
        not_or, not_exists, not_and, newIntFromBigInt_ok, sub_eq_ok,
        not_false_eq_true, implies_true, and_true]
      rintro _ _ _ ⟨rfl, _⟩ _ _ _ ⟨rfl, _⟩ _ ⟨rfl, _⟩ denominator hdenominator
      obtain ⟨rfl, _⟩ := eq_of_mul_ok hdenominator
      exact (mul_pos (sub_pos.mpr hlt) hnum).ne'

lemma dividesByZero_getTokenPairByDenom : ¬ DividesByZero (getTokenPairByDenom d d') := by
  unfold getTokenPairByDenom
  split <;> simp

lemma dividesByZero_handleSwap (hfee : validateFee env.fee) {msg : MsgSwapOrder}
    (hinput : 0 ≤ msg.input.coin.amount) : ¬ DividesByZero (handleSwap env b msg) := by
  have htrade : ¬ DividesByZero (trade env b msg) := by
    unfold trade
    split_ifs
    · simp [doubleTradeInputForExactOutput, dividesByZero_calculateWithExactOutput hfee,
        dividesByZero_swapCoins]
    · simp [tradeInputForExactOutput, dividesByZero_calculateWithExactOutput hfee,
        dividesByZero_swapCoins]
    · simp only [doubleTradeExactInputForOutput, dividesByZero_bind,
        dividesByZero_calculateWithExactInput hfee hinput, dividesByZero_newCoin,
        dividesByZero_swapCoins, dividesByZero_require, Coin.newCoin_ok, false_or, not_exists,
        not_and]
      rintro native _ _ ⟨rfl, hnative⟩ b₁ _
      have hsecond : ∀ bought, ¬ DividesByZero
          (calculateWithExactInput env b₁ ⟨irisAtto, native⟩ bought) := fun _ =>
        dividesByZero_calculateWithExactInput hfee hnative
      simp [hsecond]
    · simp [tradeExactInputForOutput, dividesByZero_calculateWithExactInput hfee hinput,
        dividesByZero_swapCoins]
  simp [handleSwap, htrade, dividesByZero_getTokenPairByDenom]

lemma dividesByZero_handleAddLiquidity {msg : MsgAddLiquidity} (hv : msg.validateBasic = .ok ())
    (hpool : 0 < (poolView env b msg.maxToken.denom).shares →
      0 < (poolView env b msg.maxToken.denom).x) :
    ¬ DividesByZero (handleAddLiquidity env b msg) := by
  have htoken := (token_of_validateBasic hv).1
  have hamounts : ¬ DividesByZero (liquidityAmounts msg (poolView env b msg.maxToken.denom).x
      (poolView env b msg.maxToken.denom).y (poolView env b msg.maxToken.denom).shares) := by
    unfold liquidityAmounts
    split_ifs with hzero
    · simp
    · have hshares : 0 ≤ (poolView env b msg.maxToken.denom).shares := balance_nonneg _ _ _
      have hx := hpool (lt_of_le_of_ne hshares (Ne.symm hzero))
      simp [hx.ne']
  simp only [handleAddLiquidity, getUniId_iris_left htoken, dividesByZero_bind, dividesByZero_ok,
    dividesByZero_newCoin, dividesByZero_getTokenPairByDenom, Except.ok.injEq, false_or,
    exists_eq_left', Coin.newCoin_ok, amountOf_getReservePool, not_or, not_exists, not_and]
  refine ⟨?_, ?_⟩
  · simp [getUniDenom, checkUniId]
  · intro u hu _ _
    obtain rfl := eq_of_getUniDenom htoken hu
    refine ⟨hamounts, fun _ _ _ _ => ?_⟩
    simp [addLiquidity, hu]

lemma dividesByZero_handleRemoveLiquidity {msg : MsgRemoveLiquidity}
    (hv : msg.validateBasic = .ok ()) : ¬ DividesByZero (handleRemoveLiquidity env b msg) := by
  obtain ⟨hw, _⟩ := amount_of_validateBasic hv
  unfold handleRemoveLiquidity
  simp only
  split
  · simp
  · simp only [getCoinMinDenomFromUniDenom, checkUniDenom, dividesByZero_bind,
      dividesByZero_require, dividesByZero_ok, pure_ok, false_or, not_exists, not_and,
      exists_false, and_false]
    intro token _
    split
    · simp
    · simp only [dividesByZero_bind, dividesByZero_require, dividesByZero_mul, dividesByZero_div,
        dividesByZero_newCoin, dividesByZero_getTokenPairByDenom, require_ok,
        decide_eq_true_eq, false_or, not_or, not_exists, not_and]
      intro _ _ _ _ _ hle _ _
      refine ⟨by omega, fun _ _ _ _ => ⟨by omega, ?_⟩⟩
      intro _ _ _ _ _ _ _ _ _ _ _ _
      simp [removeLiquidity]

end

section
variable {env : Env} {b b' : Bank} {msg : MsgSwapOrder} {r : ℤ}

def Leg (env : Env) (msg : MsgSwapOrder) (sold bought : Coin) (b b' : Bank) : Prop :=
  ∃ uid, getUniId sold.denom bought.denom = .ok uid ∧
    bought.amount < b.balance (getReservePoolAddr env uid) bought.denom ∧
    swapCoins env b msg.input.address msg.output.address sold bought = .ok b'

lemma leg_of_exactInput {sold : Coin} {bought : String} (hfee : validateFee env.fee)
    (hsold : 0 ≤ sold.amount) (hcalc : calculateWithExactInput env b sold bought = .ok r)
    (h : swapCoins env b msg.input.address msg.output.address sold ⟨bought, r⟩ = .ok b') :
    Leg env msg sold ⟨bought, r⟩ b b' := by
  obtain ⟨hnum, hle⟩ := feeFactor_bounds hfee
  obtain ⟨uid, huid, hin, hout, hprice⟩ := eq_of_calculateWithExactInput hcalc
  refine ⟨uid, huid, ?_, h⟩
  rw [hprice]
  exact (inputPrice_bounds hin hout hnum hle hsold).2

/-- Price may have been computed in a state in which the pool held as much. -/
lemma leg_of_exactOutput {b₀ : Bank} {sold : String} {bought : Coin}
    (hcalc : calculateWithExactOutput env b₀ bought sold = .ok r)
    (hsame : ∀ a, b.balance a bought.denom = b₀.balance a bought.denom)
    (h : swapCoins env b msg.input.address msg.output.address ⟨sold, r⟩ bought = .ok b') :
    Leg env msg ⟨sold, r⟩ bought b b' := by
  obtain ⟨uid, huid, _, hlt, _⟩ := eq_of_calculateWithExactOutput hcalc
  refine ⟨uid, getUniId_comm huid, ?_, h⟩
  rw [hsame]
  exact hlt

/-- An order is carried out by one leg from its input to its output, or by two through iris. -/
lemma legs_of_handleSwap (hfee : validateFee env.fee) (hv : msg.validateBasic = .ok ())
    (h : handleSwap env b msg = .ok b') :
    (∃ sold bought, Leg env msg ⟨msg.input.coin.denom, sold⟩ ⟨msg.output.coin.denom, bought⟩ b b') ∨
      ∃ b₁ sold native bought, Leg env msg ⟨msg.input.coin.denom, sold⟩ ⟨irisAtto, native⟩ b b₁ ∧
        Leg env msg ⟨irisAtto, native⟩ ⟨msg.output.coin.denom, bought⟩ b₁ b' := by
  obtain ⟨_, _, hinPos, _, hne⟩ := swappable_of_validateBasic hv
  cases trades_of_handleSwap h with
  | @doubleExactOutput b₁ native sold hdouble hnative _ hcalc _ _ h1 h2 =>
    -- the first leg does not move the coin bought by the second
    have hiris : irisAtto ≠ msg.output.coin.denom := by
      simp only [MsgSwapOrder.isDoubleSwap, Bool.and_eq_true, decide_eq_true_eq] at hdouble
      exact hdouble.2.symm
    have hunmoved := unmoved_of_swapCoins (d := msg.output.coin.denom) h1 hne hiris
    exact Or.inr ⟨b₁, sold, native, msg.output.coin.amount,
      leg_of_exactOutput hcalc (fun _ => rfl) h1, leg_of_exactOutput hnative hunmoved.balance h2⟩
  | exactOutput _ hcalc _ h1 => exact Or.inl ⟨_, _, leg_of_exactOutput hcalc (fun _ => rfl) h1⟩
  | @doubleExactInput b₁ native bought _ hnative hnonneg h1 hcalc _ _ h2 =>
    exact Or.inr ⟨b₁, msg.input.coin.amount, native, bought,
      leg_of_exactInput hfee hinPos.le hnative h1, leg_of_exactInput hfee hnonneg hcalc h2⟩
  | exactInput _ hcalc _ h1 => exact Or.inl ⟨_, _, leg_of_exactInput hfee hinPos.le hcalc h1⟩

end

section
variable {t : String}

/-- Token of a pool: a minimum unit that is no voucher itself. -/
structure Pooled (t : String) : Prop where
  unit : hasSuffix t minDenomSuffix = true
  not_uni : hasPrefix t formatUniABSPrefix = false

lemma Pooled.ne_iris (h : Pooled t) : t ≠ irisAtto := by
  rintro rfl
  exact absurd h.unit (by decide)

lemma IsToken.pooled (h : IsToken t) : Pooled t := ⟨h.hasSuffix, h.not_uni⟩

lemma pooled_of_checkUniDenom {u : String} (hu : checkUniDenom u = .ok ()) :
    Pooled (trimPrefix u formatUniABSPrefix) :=
  ⟨(uniDenom_of_checkUniDenom hu).2.1, not_uni_of_checkUniDenom hu⟩

def Op.tokens : Op → List String
  | coinswap msg => msg.tokens
  | send _ => []
  | burn _ => []

/-- Nobody signs for the pool of `t`, and its address is not a hash collision of another pool that
the operation uses. -/
structure Op.Separate (env : Env) (t : String) (op : Op) : Prop where
  signers : poolAddr env t ∉ op.signers
  tokens : ∀ t' ∈ op.tokens, poolAddr env t' = poolAddr env t → t' = t

/-- A pool with vouchers has both reserves; there are no vouchers beside those that the pool
counts. -/
structure Stocked (env : Env) (b : Bank) (t : String) : Prop where
  excess : 0 ≤ excess env b t
  reserves : 0 < (poolView env b t).shares →
    0 < (poolView env b t).x ∧ 0 < (poolView env b t).y

variable {env : Env} {b b' : Bank} {t : String}

lemma heldByOthers_nonneg (env : Env) (b : Bank) (t : String) : 0 ≤ heldByOthers env b t := by
  refine Store.total_nonneg (fun a cs _ => ?_)
  split_ifs
  · exact le_rfl
  · exact cs.amountOf_nonneg _

lemma stocked_of_no_vouchers (h : b.sumOf (uniDenom t) = 0) : Stocked env b t := by
  have hsum := sumOf_eq_heldByOthers_add env b t
  have hothers := heldByOthers_nonneg env b t
  have hpool := b.balance_nonneg (poolAddr env t) (uniDenom t)
  refine ⟨?_, fun hshares => ?_⟩
  · unfold excess
    omega
  · simp only [poolView] at hshares
    omega

lemma Stocked.positive (h : Stocked env b t) (hshares : 0 < (poolView env b t).shares) :
    (poolView env b t).Positive :=
  ⟨(h.reserves hshares).1, (h.reserves hshares).2, hshares⟩

lemma Stocked.reserves_of_bank (h : Stocked env b t) (hsum : ∀ d, b'.sumOf d = b.sumOf d)
    (hmore : ∀ d, b.balance (poolAddr env t) d ≤ b'.balance (poolAddr env t) d)
    (hshares : 0 < (poolView env b' t).shares) :
    0 < (poolView env b' t).x ∧ 0 < (poolView env b' t).y := by
  have hpos : 0 < (poolView env b t).shares := by
    by_contra hnone
    -- the pool counted no vouchers, so there were none
    have hexcess := h.excess
    have hbefore := sumOf_eq_heldByOthers_add env b t
    have hafter := sumOf_eq_heldByOthers_add env b' t
    have hothers := heldByOthers_nonneg env b' t
    rw [hsum] at hafter
    unfold Coinswap.excess at hexcess
    simp only [poolView] at hnone hshares
    omega
  obtain ⟨hx, hy⟩ := h.reserves hpos
  exact ⟨lt_of_lt_of_le hx (hmore _), lt_of_lt_of_le hy (hmore _)⟩

lemma Stocked.reserves_of_add {msg : MsgAddLiquidity} (h : Stocked env b t)
    (hv : msg.validateBasic = .ok ()) (hsender : msg.sender ≠ poolAddr env t)
    (hcoll : poolAddr env msg.maxToken.denom = poolAddr env t → msg.maxToken.denom = t)
    (hok : handleAddLiquidity env b msg = .ok b') (hshares : 0 < (poolView env b' t).shares) :
    0 < (poolView env b' t).x ∧ 0 < (poolView env b' t).y := by
  by_cases hpos : 0 < (poolView env b t).shares
  · have hpos' := (step_of_handleAddLiquidity hv (h.positive hpos) hsender hcoll hok).2
    exact ⟨hpos'.1, hpos'.2.1⟩
  · -- the first deposit
    have hzero : (poolView env b t).shares = 0 :=
      le_antisymm (not_lt.mp hpos) (b.balance_nonneg _ _)
    obtain ⟨htoken, hdx, hdy⟩ := token_of_validateBasic hv
    obtain ⟨mint, amount, hamounts, hadd⟩ := eq_of_handleAddLiquidity hv hok
    by_cases hpool : poolAddr env msg.maxToken.denom = poolAddr env t
    · obtain rfl := hcoll hpool
      have hview := (poolView_addLiquidity htoken hsender hadd).2
      simp only [liquidityAmounts, if_pos hzero, bind_ok, Coin.newCoin_ok, pure_eq_ok,
        Prod.mk.injEq] at hamounts
      obtain ⟨_, ⟨rfl, _⟩, _, hcoin⟩ := hamounts
      obtain rfl : msg.maxToken.amount = amount := congrArg Coin.amount hcoin
      have hx : 0 ≤ (poolView env b msg.maxToken.denom).x := b.balance_nonneg _ _
      have hy : 0 ≤ (poolView env b msg.maxToken.denom).y := b.balance_nonneg _ _
      rw [hview]
      exact ⟨add_pos_of_nonneg_of_pos hx hdx, add_pos_of_nonneg_of_pos hy hdy⟩
    · rw [poolView_addLiquidity_other hsender hpool hadd] at hshares ⊢
      exact h.reserves hshares

lemma Stocked.reserves_of_remove {msg : MsgRemoveLiquidity} (h : Stocked env b t)
    (ht : Pooled t) (hv : msg.validateBasic = .ok ()) (hsender : msg.sender ≠ poolAddr env t)
    (hcoll : poolAddr env (trimPrefix msg.withdrawLiquidity.denom formatUniABSPrefix) =
      poolAddr env t → trimPrefix msg.withdrawLiquidity.denom formatUniABSPrefix = t)
    (hok : handleRemoveLiquidity env b msg = .ok b') (hshares : 0 < (poolView env b' t).shares) :
    0 < (poolView env b' t).x ∧ 0 < (poolView env b' t).y := by
  have hpos : 0 < (poolView env b t).shares := by
    obtain ⟨hw, _⟩ := amount_of_validateBasic hv
    have hpool := vouchers_handleRemoveLiquidity hv hsender hok
    simp only [poolView] at hshares ⊢
    split_ifs at hpool <;> omega
  have hpos' := (step_of_handleRemoveLiquidity ht.ne_iris ht.not_uni hv (h.positive hpos) hsender
    hcoll hshares hok).2
  exact ⟨hpos'.1, hpos'.2.1⟩

lemma Stocked.run {op : Op} (hfee : validateFee env.fee) (ht : Pooled t)
    (hsep : op.Separate env t) (h : Stocked env b t) (hok : op.run env b = .ok b') :
    Stocked env b' t := by
  obtain ⟨hchange, hnonneg⟩ := excess_run hsep.signers hok
  refine ⟨by have := h.excess; omega, fun hshares => ?_⟩
  cases op with
  | coinswap msg =>
    obtain ⟨_, hv, hok⟩ := bind_ok.mp hok
    have hsender : msg.sender ≠ poolAddr env t := by simpa [Op.signers, eq_comm] using hsep.signers
    cases msg with
    | swap msg =>
      have hunmoved := unmoved_of_handleSwap (t := t) hv hok
      have hpos : 0 < (poolView env b t).shares := by
        simp only [poolView] at hshares ⊢
        rwa [hunmoved.balance] at hshares
      have hgrows := grows_of_handleSwap hfee hv (h.positive hpos) hsender hsep.tokens hok
      exact ⟨hgrows.x_pos, hgrows.y_pos⟩
    | add msg =>
      exact h.reserves_of_add hv hsender (hsep.tokens _ (List.mem_singleton.mpr rfl)) hok
        hshares
    | remove msg =>
      exact h.reserves_of_remove ht hv hsender (hsep.tokens _ (List.mem_singleton.mpr rfl)) hok
        hshares
  | send msg =>
    obtain ⟨hmoved, _⟩ := deliverSend_ok hok
    refine h.reserves_of_bank (sumOf_deliverSend hok) (fun d => ?_) hshares
    have hinputs : amountAt (poolAddr env t) d msg.inputs = 0 :=
      amountAt_eq_zero (fun x hx heq => hsep.signers (List.mem_map.mpr ⟨x, hx, heq⟩)) _
    obtain ⟨_, _, houtputs⟩ := bind_ok.mp hmoved
    have houtput : 0 ≤ amountAt (poolAddr env t) d msg.outputs :=
      amountAt_nonneg (isValid_of_foldlM (f := addCoins)
        (fun _ _ _ _ hadd => isValid_of_addCoins hadd) houtputs) _
    rw [balance_inputOutputCoins hmoved, hinputs]
    omega
  | burn msg =>
    obtain ⟨_, _, hok⟩ := bind_ok.mp hok
    have hsend : b.sendCoins msg.owner burnedCoinsAccAddr msg.coins = .ok b' := hok
    have howner : poolAddr env t ≠ msg.owner := by simpa [Op.signers] using hsep.signers
    obtain ⟨_, hsub, _⟩ := bind_ok.mp hsend
    refine h.reserves_of_bank (sumOf_sendCoins hsend) (fun d => ?_) hshares
    rw [balance_sendCoins hsend, if_neg howner, sub_zero]
    split_ifs
    · exact le_add_of_nonneg_right (denomSum_nonneg_of_subtractCoins hsub)
    · rw [add_zero]

end

section
variable {env : Env} {b b' : Bank}

lemma stocked_of_run {ops : List Op} (hfee : validateFee env.fee)
    (hstart : ∀ t, Pooled t → b.sumOf (uniDenom t) = 0)
    (hsep : ∀ op ∈ ops, ∀ t, Pooled t → op.Separate env t)
    (h : ops.foldlM (Op.run env) b = .ok b') {t : String} (ht : Pooled t) : Stocked env b' t := by
  have hloop : Sat AnyFault (fun b => Stocked env b t) (ops.foldlM (Op.run env) b) :=
    Sat.foldlM ops b (stocked_of_no_vouchers (hstart t ht)) (fun op hop _ hs =>
      Sat.of_forall (fun _ hrun => hs.run hfee ht (hsep op hop t ht) hrun))
  exact hloop.of_ok h

/-- In every state that messages of the module and of the bank reach: a pool with vouchers has both
reserves, every leg of an order buys less than the pool holds, no message is stopped by a division
by zero, and a withdrawal that empties a reserve burns all vouchers of the pool. -/
theorem no_drained_pool {ops : List Op} (hfee : validateFee env.fee)
    (hstart : ∀ t, Pooled t → b.sumOf (uniDenom t) = 0)
    (hsep : ∀ op ∈ ops, ∀ t, Pooled t → op.Separate env t)
    (h : ops.foldlM (Op.run env) b = .ok b') : (∀ t, Pooled t → 0 < (poolView env b' t).shares →
      0 < (poolView env b' t).x ∧ 0 < (poolView env b' t).y) ∧
    (∀ (msg : MsgSwapOrder) (b'' : Bank), msg.validateBasic = .ok () →
      handleSwap env b' msg = .ok b'' → (∃ sold bought,
        Leg env msg ⟨msg.input.coin.denom, sold⟩ ⟨msg.output.coin.denom, bought⟩ b' b'') ∨
      ∃ b₁ sold native bought, Leg env msg ⟨msg.input.coin.denom, sold⟩ ⟨irisAtto, native⟩ b' b₁ ∧
        Leg env msg ⟨irisAtto, native⟩ ⟨msg.output.coin.denom, bought⟩ b₁ b'') ∧
    (∀ msg : Msg, msg.validateBasic = .ok () → ¬ DividesByZero (msg.handle env b')) ∧
    ∀ (msg : MsgRemoveLiquidity) (t : String) (b'' : Bank),
      msg.withdrawLiquidity.denom = uniDenom t → (Op.coinswap (.remove msg)).Separate env t →
      (Op.coinswap (.remove msg)).run env b' = .ok b'' →
      (poolView env b'' t).x = 0 ∨ (poolView env b'' t).y = 0 →
      msg.withdrawLiquidity.amount = (poolView env b' t).shares := by
  have hstocked : ∀ t, Pooled t → Stocked env b' t := fun t ht =>
    stocked_of_run hfee hstart hsep h ht
  refine ⟨fun t ht => (hstocked t ht).reserves,
    fun msg b'' hv => legs_of_handleSwap hfee hv, ?_, ?_⟩
  · intro msg hv
    cases msg with
    | swap msg => exact dividesByZero_handleSwap hfee (swappable_of_validateBasic hv).2.2.1.le
    | add msg =>
      have htoken := (token_of_validateBasic hv).1
      exact dividesByZero_handleAddLiquidity hv
        (fun hshares => ((hstocked _ htoken.pooled).reserves hshares).1)
    | remove msg => exact dividesByZero_handleRemoveLiquidity hv
  · intro msg t b'' hdenom hsep' hrun hempty
    obtain ⟨_, hv, hok⟩ := bind_ok.mp hrun
    obtain ⟨_, hu⟩ := amount_of_validateBasic hv
    have htrim : trimPrefix msg.withdrawLiquidity.denom formatUniABSPrefix = t :=
      uniDenom_injective ((uniDenom_of_checkUniDenom hu).1.symm.trans hdenom)
    have ht : Pooled t := htrim ▸ pooled_of_checkUniDenom hu
    have hsender : msg.sender ≠ poolAddr env t := by
      simpa [Op.signers, Msg.sender, eq_comm] using hsep'.signers
    have hpool := vouchers_handleRemoveLiquidity hv hsender hok
    rw [if_pos hdenom] at hpool
    have hle := (eq_of_handleRemoveLiquidity htrim.symm hu hok).1
    -- with a voucher left the pool would still have both reserves
    have hnone : ¬ 0 < (poolView env b'' t).shares := by
      intro hshares
      obtain ⟨hx, hy⟩ := ((hstocked t ht).run hfee ht hsep' hrun).reserves hshares
      rcases hempty with hx0 | hy0
      · exact hx.ne' hx0
      · exact hy.ne' hy0
    simp only [poolView] at hnone hle ⊢
    omega

end

section
variable {t : String}

lemma Pooled.eq_of_uniId {t' : String} (h : Pooled t) (h' : Pooled t')
    (heq : uniId t = uniId t') : t = t' := by
  have hlist := congrArg toList heq
  rw [uniId, uniId, toList_append, toList_append] at hlist
  have htrim : trimSuffix t minDenomSuffix = trimSuffix t' minDenomSuffix :=
    toList_injective (List.append_cancel_left hlist)
  rw [← append_trimSuffix h.unit, htrim, append_trimSuffix h'.unit]

lemma poolAddr_sampleEnv (ht : Pooled t) : poolAddr sampleEnv t ≠ 1 ∧
      (poolAddr sampleEnv "btc-min" = poolAddr sampleEnv t → "btc-min" = t) := by
  have hbtc : uniId "btc-min" = "uni:btc" := by decide +kernel
  simp only [poolAddr, getReservePoolAddr, sampleEnv, hbtc, if_true]
  split_ifs with h1 h2
  · exact ⟨by decide, fun _ => Pooled.eq_of_uniId ⟨by decide, by decide⟩ ht (hbtc.trans h1.symm)⟩
  · exact ⟨by decide, fun h => absurd h (by decide)⟩
  · exact ⟨by decide, fun h => absurd h (by decide)⟩

lemma separate_of_btc {op : Op} (hsigners : op.signers = [1]) (htokens : op.tokens = ["btc-min"])
    (ht : Pooled t) : op.Separate sampleEnv t := by
  obtain ⟨hne, hcoll⟩ := poolAddr_sampleEnv ht
  refine ⟨by simpa [hsigners] using hne, fun t' ht' hpool => ?_⟩
  rw [htokens, List.mem_singleton] at ht'
  subst ht'
  exact hcoll hpool

lemma sumOf_newProviderBank : newProviderBank.sumOf (uniDenom t) = 0 := by
  have hnone : Store.contribution (fun _ (cs : StoredCoins) => Coins.denomSum (uniDenom t) cs.coins)
      (Store.empty : Store Address StoredCoins) 1 = 0 := rfl
  simp [sumOf, newProviderBank, Store.total_set, StoredCoins.amountOf_eq, hnone,
    amountIn_uniDenom (show hasPrefix "btc-min" formatUniABSPrefix = false by decide),
    amountIn_uniDenom (show hasPrefix "iris-atto" formatUniABSPrefix = false by decide)]

def buyBtc : Op :=
  .coinswap (.swap ⟨⟨1, ⟨"iris-atto", 50⟩⟩, ⟨none, ⟨"btc-min", 1⟩⟩, 1, true⟩)

/-- A pool is opened, traded with and left by its provider, who takes both reserves with the last
voucher. -/
theorem pool_left_by_provider :
    ∃ b₁ b₂, [openPool, buyBtc].foldlM (Op.run sampleEnv) newProviderBank = .ok b₁ ∧
      (Op.coinswap (withdrawVouchers 100)).run sampleEnv b₁ = .ok b₂ ∧
      poolView sampleEnv b₂ "btc-min" = ⟨0, 0, 0⟩ ∧
      0 < (poolView sampleEnv b₁ "btc-min").x ∧ 0 < (poolView sampleEnv b₁ "btc-min").y ∧
      (100 : ℤ) = (poolView sampleEnv b₁ "btc-min").shares ∧
      ¬ DividesByZero (provideAnew.handle sampleEnv b₁) := by
  obtain ⟨b₁, h1, hnext⟩ := of_returns
    (p := fun (b₁ : Bank) => returns (fun (b₂ : Bank) =>
        decide (poolView sampleEnv b₂ "btc-min" = ⟨0, 0, 0⟩))
      ((Op.coinswap (withdrawVouchers 100)).run sampleEnv b₁) &&
        decide (0 < (poolView sampleEnv b₁ "btc-min").shares))
    (x := [openPool, buyBtc].foldlM (Op.run sampleEnv) newProviderBank) (by decide +kernel)
  rw [Bool.and_eq_true] at hnext
  obtain ⟨b₂, h2, hview⟩ := of_returns hnext.1
  have hempty := of_decide_eq_true hview
  have hbtc : Pooled "btc-min" := ⟨by decide, by decide⟩
  obtain ⟨hreserves, _, hdivides, hlast⟩ := no_drained_pool (by decide +kernel)
    (fun _ _ => sumOf_newProviderBank) (by
      intro op hop t ht
      simp only [List.mem_cons, List.not_mem_nil, or_false] at hop
      rcases hop with rfl | rfl
      · exact separate_of_btc (by decide) (by decide) ht
      · exact separate_of_btc (by decide) (by decide) ht) h1
  obtain ⟨hx, hy⟩ := hreserves "btc-min" hbtc (of_decide_eq_true hnext.2)
  refine ⟨b₁, b₂, h1, h2, hempty, hx, hy, ?_, hdivides provideAnew (by decide +kernel)⟩
  exact hlast ⟨0, ⟨"uni:btc-min", 100⟩, 0, 1, 1⟩ "btc-min" b₂ (by decide)
    (separate_of_btc (by decide) (by decide +kernel) hbtc) h2 (Or.inl (by rw [hempty]))

end
end Coinswap
end Irishub
