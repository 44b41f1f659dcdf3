import Irishub.Coinswap.Frame

/-!
# Coinswap: the value of a liquidity voucher

The reserve pool of a token `t` is the account that holds iris, the token and
the vouchers issued for it; `poolView` reads these three balances as a
constant-product pool. Every successful message is one of the moves of such a
pool: a swap leg or a gift makes it grow, a deposit and a withdrawal are
proportional up to rounding in the pool's favour.
-/

namespace Irishub.Coinswap
open Lib Lib.Reserves SdkInt Coin Bank List

/-- Messages of the module. -/
inductive Msg
  | swap (msg : MsgSwapOrder)
  | add (msg : MsgAddLiquidity)
  | remove (msg : MsgRemoveLiquidity)
  deriving DecidableEq

namespace Msg

def validateBasic : Msg → Outcome Unit
  | swap msg => msg.validateBasic
  | add msg => msg.validateBasic
  | remove msg => msg.validateBasic

def sender : Msg → Address
  | swap msg => msg.input.address
  | add msg => msg.sender
  | remove msg => msg.sender

def tokens : Msg → List String
  | swap msg => [msg.input.coin.denom, msg.output.coin.denom].filter (· ≠ irisAtto)
  | add msg => [msg.maxToken.denom]
  | remove msg => [trimPrefix msg.withdrawLiquidity.denom formatUniABSPrefix]

def handle (env : Env) (b : Bank) : Msg → Outcome Bank
  | swap msg => handleSwap env b msg
  | add msg => handleAddLiquidity env b msg
  | remove msg => handleRemoveLiquidity env b msg

end Msg

def poolAddr (env : Env) (t : String) : Address := getReservePoolAddr env (uniId t)

def poolView (env : Env) (b : Bank) (t : String) : Reserves where
  x := b.balance (poolAddr env t) irisAtto
  y := b.balance (poolAddr env t) t
  shares := b.balance (poolAddr env t) (uniDenom t)

/-- A successful message, seen from the pool of `t`: nobody signs for the address of the pool, and
the address is not a hash collision of another pool the message uses. -/
def PoolStep (env : Env) (t : String) (b b' : Bank) : Prop :=
  ∃ msg : Msg, msg.validateBasic = .ok () ∧ msg.sender ≠ poolAddr env t ∧
    (∀ t' ∈ msg.tokens, poolAddr env t' = poolAddr env t → t' = t) ∧ msg.handle env b = .ok b'

section
variable {p q : Reserves}

/-- Reserves whose product has not fallen, under the same number of vouchers. -/
structure Grows (p q : Reserves) : Prop where
  x_pos : 0 < q.x
  y_pos : 0 < q.y
  product : p.x * p.y ≤ q.x * q.y
  shares : q.shares = p.shares

lemma Grows.trans {r : Reserves} (hpq : Grows p q) (hqr : Grows q r) : Grows p r :=
  ⟨hqr.x_pos, hqr.y_pos, hpq.product.trans hqr.product, hqr.shares.trans hpq.shares⟩

lemma Grows.step (h : Grows p q) : Reserves.Step p q := by
  have hq : q = ⟨q.x, q.y, p.shares⟩ := by rw [← h.shares]
  rw [hq]
  exact Reserves.Step.trade h.product

lemma grows_of_move (dx dy : ℤ) {gx gy : ℤ} (hx : 0 < p.x + dx)
    (hy : 0 < p.y + dy) (hprod : p.x * p.y ≤ (p.x + dx) * (p.y + dy)) (hgx : 0 ≤ gx) (hgy : 0 ≤ gy)
    (hqx : q.x = p.x + dx + gx) (hqy : q.y = p.y + dy + gy) (hqs : q.shares = p.shares) :
    Grows p q := by
  refine ⟨by linarith, by linarith, ?_, hqs⟩
  rw [hqx, hqy]
  exact hprod.trans (mul_le_mul (by linarith) (by linarith) hy.le (by linarith))

end

section
variable {env : Env} {b b' : Bank} {t : String} {sender : Address} {recipient : Option Address}
  {sold bought : Coin} {uid s o : String} {ds dbo r : ℤ}

/-- A swap between `t'` and iris, seen from the pool of `t`: a leg if `t'` is `t`, and gifts. -/
lemma grows_of_swapCoins (hpos : (poolView env b t).Positive)
    (hs : 0 ≤ sold.amount) (hb : 0 ≤ bought.amount)
    (hsu : sold.denom ≠ uniDenom t) (hbu : bought.denom ≠ uniDenom t)
    (hsender : sender ≠ poolAddr env t) (h : swapCoins env b sender recipient sold bought = .ok b')
    (huid : getUniId sold.denom bought.denom = .ok uid)
    (hprod : getReservePoolAddr env uid = poolAddr env t → poolAddr env t ≠ recipient.getD sender →
      0 < (poolView env b t).x + (sold.amountIn irisAtto - bought.amountIn irisAtto) ∧
      0 < (poolView env b t).y + (sold.amountIn t - bought.amountIn t) ∧
      (poolView env b t).x * (poolView env b t).y ≤
        ((poolView env b t).x + (sold.amountIn irisAtto - bought.amountIn irisAtto)) *
          ((poolView env b t).y + (sold.amountIn t - bought.amountIn t))) :
    Grows (poolView env b t) (poolView env b' t) := by
  obtain ⟨uid', huid', hbal⟩ := balance_swapCoins h
  rw [huid, Except.ok.injEq] at huid'
  subst huid'
  obtain ⟨hx, hy, _⟩ := hpos
  have hview : ∀ d, b'.balance (poolAddr env t) d = b.balance (poolAddr env t) d
      + (if poolAddr env t = getReservePoolAddr env uid then sold.amountIn d else 0)
      - (if poolAddr env t = getReservePoolAddr env uid then bought.amountIn d else 0)
      + (if poolAddr env t = recipient.getD sender then bought.amountIn d else 0) := by
    intro d
    rw [hbal, if_neg hsender.symm]
    ring
  have hshares : (poolView env b' t).shares = (poolView env b t).shares := by
    simp only [poolView]
    rw [hview, amountIn_of_ne hsu, amountIn_of_ne hbu]
    simp
  by_cases hpool : getReservePoolAddr env uid = poolAddr env t
  · by_cases hrec : poolAddr env t = recipient.getD sender
    · -- the pool buys from itself and keeps what was sold to it
      refine grows_of_move 0 0 (by linarith) (by linarith) (by simp)
        (amountIn_nonneg hs irisAtto) (amountIn_nonneg hs t) ?_ ?_ hshares
      · simp only [poolView]
        rw [hview, if_pos hpool.symm, if_pos hpool.symm, if_pos hrec]
        ring
      · simp only [poolView]
        rw [hview, if_pos hpool.symm, if_pos hpool.symm, if_pos hrec]
        ring
    · obtain ⟨hx', hy', hp⟩ := hprod hpool hrec
      refine grows_of_move _ _ hx' hy' hp le_rfl le_rfl ?_ ?_ hshares
      · simp only [poolView]
        rw [hview, if_pos hpool.symm, if_pos hpool.symm, if_neg hrec]
        ring
      · simp only [poolView]
        rw [hview, if_pos hpool.symm, if_pos hpool.symm, if_neg hrec]
        ring
  · -- another pool: at most a gift
    have hgift : ∀ d, 0 ≤
        if poolAddr env t = recipient.getD sender then bought.amountIn d else 0 := by
      intro d
      split_ifs
      · exact amountIn_nonneg hb d
      · exact le_rfl
    have hpool' : poolAddr env t ≠ getReservePoolAddr env uid := fun he => hpool he.symm
    refine grows_of_move 0 0 (by linarith) (by linarith) (by simp) (hgift irisAtto)
      (hgift t) ?_ ?_ hshares
    · simp only [poolView]
      rw [hview, if_neg hpool', if_neg hpool']
      ring
    · simp only [poolView]
      rw [hview, if_neg hpool', if_neg hpool']
      ring

def Swappable (d : String) : Prop :=
  isCoinMinDenomValid d = true ∧ hasPrefix d formatUniABSPrefix = false

lemma Swappable.ne_uniDenom {d : String} (h : Swappable d) : d ≠ uniDenom t :=
  (uniDenom_ne h.2).symm

lemma sides_of_getUniId (hs : Swappable s) (ho : Swappable o) (h : getUniId s o = .ok uid) :
    (s = irisAtto ∧ IsToken o ∧ uid = uniId o) ∨ (o = irisAtto ∧ IsToken s ∧ uid = uniId s) := by
  by_cases hsi : s = irisAtto
  · subst hsi
    have hoi : o ≠ irisAtto := by
      rintro rfl
      simp [getUniId] at h
    have hto : IsToken o := ⟨ho.1, hoi, ho.2⟩
    rw [getUniId_iris_left hto, Except.ok.injEq] at h
    exact Or.inl ⟨rfl, hto, h.symm⟩
  · have hoi : o = irisAtto := by
      by_contra hoi
      simp only [getUniId] at h
      split_ifs at h with heq hne
      · simp at h
      · simp at h
      · exact hne ⟨hsi, hoi⟩
    subst hoi
    have hts : IsToken s := ⟨hs.1, hsi, hs.2⟩
    rw [getUniId_iris_right hts, Except.ok.injEq] at h
    exact Or.inr ⟨rfl, hts, h.symm⟩

/-- Tokens of a pair whose pool is the pool of `t` are `t`. -/
def NoCollision (env : Env) (t s o : String) : Prop :=
  ∀ t' ∈ [s, o].filter (· ≠ irisAtto), poolAddr env t' = poolAddr env t → t' = t

lemma NoCollision.symm (h : NoCollision env t s o) : NoCollision env t o s := by
  intro t' ht'
  refine h t' ?_
  simp only [mem_filter, mem_cons, not_mem_nil, or_false] at ht' ⊢
  exact ⟨ht'.1.symm, ht'.2⟩

/-- A swap leg whose amounts keep the product of the pool it uses. -/
lemma grows_of_leg (hpos : (poolView env b t).Positive) (hs : Swappable s) (ho : Swappable o)
    (hcoll : NoCollision env t s o) (hds : 0 ≤ ds) (hbo : 0 ≤ dbo)
    (hsender : sender ≠ poolAddr env t)
    (h : swapCoins env b sender recipient ⟨s, ds⟩ ⟨o, dbo⟩ = .ok b')
    (hleg : ∀ uid, getUniId s o = .ok uid → getReservePoolAddr env uid = poolAddr env t →
      poolAddr env t ≠ recipient.getD sender → 0 < b.balance (getReservePoolAddr env uid) s + ds ∧
      0 < b.balance (getReservePoolAddr env uid) o - dbo ∧
      b.balance (getReservePoolAddr env uid) s * b.balance (getReservePoolAddr env uid) o ≤
        (b.balance (getReservePoolAddr env uid) s + ds) *
          (b.balance (getReservePoolAddr env uid) o - dbo)) :
    Grows (poolView env b t) (poolView env b' t) := by
  obtain ⟨uid, huid, _⟩ := balance_swapCoins h
  refine grows_of_swapCoins hpos hds hbo hs.ne_uniDenom ho.ne_uniDenom hsender h huid
    (fun hpool hrec => ?_)
  have hprod := hleg uid huid hpool hrec
  rw [hpool] at hprod
  rcases sides_of_getUniId hs ho huid with ⟨rfl, hto, rfl⟩ | ⟨rfl, hts, rfl⟩
  · -- iris is sold
    have heq : o = t := hcoll o (by simp [hto.ne_iris]) hpool
    subst heq
    simpa [poolView, Coin.amountIn, hto.ne_iris, hto.ne_iris.symm, sub_eq_add_neg] using hprod
  · -- iris is bought
    have heq : s = t := hcoll s (by simp [hts.ne_iris]) hpool
    subst heq
    obtain ⟨h1, h2, h3⟩ := hprod
    refine ⟨by simpa [poolView, Coin.amountIn, hts.ne_iris, sub_eq_add_neg] using h2,
      by simpa [poolView, Coin.amountIn, hts.ne_iris.symm] using h1, ?_⟩
    simp only [poolView, Coin.amountIn, hts.ne_iris, hts.ne_iris.symm, if_true, if_false]
    linarith

lemma grows_of_exactInput (hfee : validateFee env.fee) (hpos : (poolView env b t).Positive)
    (hs : Swappable s) (ho : Swappable o) (hcoll : NoCollision env t s o) (hds : 0 ≤ ds)
    (hr : 0 ≤ r) (hsender : sender ≠ poolAddr env t)
    (hcalc : calculateWithExactInput env b ⟨s, ds⟩ o = .ok r)
    (h : swapCoins env b sender recipient ⟨s, ds⟩ ⟨o, r⟩ = .ok b') :
    Grows (poolView env b t) (poolView env b' t) := by
  obtain ⟨hnum, hle⟩ := feeFactor_bounds hfee
  refine grows_of_leg hpos hs ho hcoll hds hr hsender h (fun uid huid _ _ => ?_)
  obtain ⟨uid', huid', hin, hout, hprice⟩ := eq_of_calculateWithExactInput hcalc
  have hsame : uid' = uid := by simpa [huid'] using huid
  subst hsame hprice
  exact ⟨by linarith, by linarith [(inputPrice_bounds hin hout hnum hle hds).2],
    product_le_inputPrice hin hout hnum hle hds⟩

lemma getUniId_comm (h : getUniId s o = .ok uid) : getUniId o s = .ok uid := by
  simp only [getUniId] at h ⊢
  split_ifs at h with heq hne hs
  · simp at h
  · simp at h
  · rw [if_neg (fun he => heq he.symm), if_neg (fun hn => hne hn.symm),
      if_neg (fun ho => heq (hs.trans ho.symm))]
    exact h
  · rw [if_neg (fun he => heq he.symm), if_neg (fun hn => hne hn.symm),
      if_pos (by_contra fun ho => hne ⟨hs, ho⟩)]
    exact h

/-- Price of an exact output keeps the product of the pool. -/
lemma product_of_exactOutput (hfee : validateFee env.fee)
    (hbo : 0 ≤ dbo) (hcalc : calculateWithExactOutput env b ⟨o, dbo⟩ s = .ok r)
    (huid : getUniId s o = .ok uid) : 0 < b.balance (getReservePoolAddr env uid) s + r ∧
      0 < b.balance (getReservePoolAddr env uid) o - dbo ∧
      b.balance (getReservePoolAddr env uid) s * b.balance (getReservePoolAddr env uid) o ≤
        (b.balance (getReservePoolAddr env uid) s + r) *
          (b.balance (getReservePoolAddr env uid) o - dbo) := by
  obtain ⟨hnum, hle⟩ := feeFactor_bounds hfee
  obtain ⟨uid', huid', hin, hlt, hprice⟩ := eq_of_calculateWithExactOutput hcalc
  have hsame : uid' = uid := by simpa [getUniId_comm huid'] using huid
  subst hsame hprice
  exact ⟨by linarith [outputPrice_pos hin hnum hle hbo hlt], by linarith,
    product_le_outputPrice hin hnum hle hbo hlt⟩

lemma balance_swapCoins_other (hsender : sender ≠ poolAddr env t)
    (h : swapCoins env b sender recipient sold bought = .ok b')
    (huid : getUniId sold.denom bought.denom = .ok uid)
    (hpool : getReservePoolAddr env uid ≠ poolAddr env t)
    (hrec : poolAddr env t ≠ recipient.getD sender) (d : String) :
    b'.balance (poolAddr env t) d = b.balance (poolAddr env t) d := by
  obtain ⟨uid', huid', hbal⟩ := balance_swapCoins h
  rw [huid, Except.ok.injEq] at huid'
  subst huid'
  rw [hbal, if_neg hsender.symm, if_neg hpool.symm, if_neg hpool.symm, if_neg hrec]
  ring

end

section
variable {env : Env} {b b' : Bank} {t : String} {msg : MsgSwapOrder} {s o : String}

lemma swappable_of_validateBasic (hv : msg.validateBasic = .ok ()) :
    Swappable msg.input.coin.denom ∧ Swappable msg.output.coin.denom ∧
      0 < msg.input.coin.amount ∧ 0 < msg.output.coin.amount ∧
      msg.input.coin.denom ≠ msg.output.coin.denom := by
  simp only [MsgSwapOrder.validateBasic, bind_ok, require_ok, Coin.isValid, Coin.isPositive,
    Bool.and_eq_true, decide_eq_true_eq, Bool.not_eq_true'] at hv
  obtain ⟨_, hin, _, hinUni, _, hout, _, houtUni, _, hne, _⟩ := hv
  exact ⟨⟨hin.1.2, hinUni⟩, ⟨hout.1.2, houtUni⟩, hin.2, hout.2, by simpa using hne⟩

lemma swappable_iris : Swappable irisAtto := ⟨by decide, by decide⟩

lemma NoCollision.iris_right (h : NoCollision env t s o) : NoCollision env t s irisAtto := by
  intro t' ht'
  refine h t' ?_
  simp only [mem_filter, mem_cons, not_mem_nil, or_false, ne_eq, decide_not,
    Bool.not_eq_true', decide_eq_false_iff_not] at ht' ⊢
  exact ⟨Or.inl (ht'.1.resolve_right ht'.2), ht'.2⟩

lemma NoCollision.iris_left (h : NoCollision env t s o) : NoCollision env t irisAtto o :=
  h.symm.iris_right.symm

lemma grows_of_handleSwap (hfee : validateFee env.fee) (hv : msg.validateBasic = .ok ())
    (hpos : (poolView env b t).Positive) (hsender : msg.input.address ≠ poolAddr env t)
    (hcoll : NoCollision env t msg.input.coin.denom msg.output.coin.denom)
    (h : handleSwap env b msg = .ok b') : Grows (poolView env b t) (poolView env b' t) := by
  obtain ⟨hin, hout, hinPos, houtPos, hne⟩ := swappable_of_validateBasic hv
  cases trades_of_handleSwap h with
  | @doubleExactOutput b₁ native sold _ hnative hnpos hsoldCalc hsold _ h1 h2 =>
    have hgrow1 : Grows (poolView env b t) (poolView env b₁ t) :=
      grows_of_leg hpos hin swappable_iris hcoll.iris_right hsold hnpos hsender h1
        (fun uid huid _ _ => product_of_exactOutput hfee hnpos hsoldCalc huid)
    have hpos1 : (poolView env b₁ t).Positive :=
      ⟨hgrow1.x_pos, hgrow1.y_pos, hgrow1.shares ▸ hpos.2.2⟩
    refine hgrow1.trans (grows_of_leg hpos1 swappable_iris hout hcoll.iris_left hnpos houtPos.le
      hsender h2 (fun uid huid hpool hrec => ?_))
    -- the price was computed before the first leg, which does not touch this pool
    have hprod := product_of_exactOutput hfee houtPos.le hnative huid
    have hother : ∀ d, b₁.balance (poolAddr env t) d = b.balance (poolAddr env t) d := by
      obtain ⟨uid1, huid1, _⟩ := balance_swapCoins h1
      refine balance_swapCoins_other hsender h1 huid1 (fun hpool1 => hne ?_) hrec
      rcases sides_of_getUniId hin swappable_iris huid1 with ⟨hi, ht, _⟩ | ⟨_, hti, rfl⟩
      · exact absurd rfl ht.ne_iris
      · rcases sides_of_getUniId swappable_iris hout huid with ⟨_, hto, rfl⟩ | ⟨ho, ht, _⟩
        · have h1' := hcoll _ (by simp [hti.ne_iris]) hpool1
          have h2' := hcoll _ (by simp [hto.ne_iris]) hpool
          exact h1'.trans h2'.symm
        · exact absurd rfl ht.ne_iris
    rw [hpool] at hprod ⊢
    rw [hother, hother]
    exact hprod
  | exactOutput _ hcalc hsold h1 =>
    exact grows_of_leg hpos hin hout hcoll hsold houtPos.le hsender h1
      (fun uid huid _ _ => product_of_exactOutput hfee houtPos.le hcalc huid)
  | @doubleExactInput b₁ native bought _ hnative hnpos h1 hbought hbpos _ h2 =>
    have hgrow1 : Grows (poolView env b t) (poolView env b₁ t) :=
      grows_of_exactInput hfee hpos hin swappable_iris hcoll.iris_right hinPos.le hnpos hsender
        hnative h1
    have hpos1 : (poolView env b₁ t).Positive :=
      ⟨hgrow1.x_pos, hgrow1.y_pos, hgrow1.shares ▸ hpos.2.2⟩
    exact hgrow1.trans (grows_of_exactInput hfee hpos1 swappable_iris hout hcoll.iris_left hnpos
      hbpos hsender hbought h2)
  | exactInput _ hcalc hbpos h1 =>
    exact grows_of_exactInput hfee hpos hin hout hcoll hinPos.le hbpos hsender hcalc h1

end

section
variable {env : Env} {b b' : Bank} {t : String} {sender : Address} {irisCoin : Coin}
  {mint x y l : ℤ}

lemma poolView_eq_of_balance
    (h : ∀ d, b'.balance (poolAddr env t) d = b.balance (poolAddr env t) d) :
    poolView env b' t = poolView env b t := by simp only [poolView, h]

lemma grows_refl {p : Reserves} (hp : p.Positive) : Grows p p := ⟨hp.1, hp.2.1, le_rfl, rfl⟩

lemma balance_addLiquidity {token : Coin} {uid : String}
    (h : addLiquidity env b sender irisCoin token uid mint = .ok b') :
    ∃ u, getUniDenom uid = .ok u ∧ 0 ≤ mint ∧ ∀ a d, b'.balance a d = b.balance a d
      - (if a = sender then irisCoin.amountIn d + token.amountIn d else 0)
      + (if a = getReservePoolAddr env uid then irisCoin.amountIn d + token.amountIn d else 0)
      + (if a = getReservePoolAddr env uid then (⟨u, mint⟩ : Coin).amountIn d else 0)
      + (if a = sender then (⟨u, mint⟩ : Coin).amountIn d else 0) := by
  simp only [addLiquidity, bind_ok, newCoin_ok] at h
  obtain ⟨dep, hdep, b₁, h1, u, hu, _, ⟨rfl, hmint⟩, mintToken, hm, b₂, h2, h3⟩ := h
  refine ⟨u, hu, hmint, fun a d => ?_⟩
  rw [balance_addCoins h3, balance_addCoins h2, balance_sendCoins h1,
    denomSum_newCoins_pair hdep, denomSum_newCoins_singleton hm]

lemma balance_removeLiquidity {pool : Address} {uni token : Coin}
    (h : removeLiquidity b pool sender uni irisCoin token = .ok b') (a : Address) (d : String) :
    b'.balance a d = b.balance a d - (if a = pool then uni.amountIn d else 0)
      - (if a = sender then uni.amountIn d else 0)
      - (if a = pool then irisCoin.amountIn d + token.amountIn d else 0)
      + (if a = sender then irisCoin.amountIn d + token.amountIn d else 0) := by
  simp only [removeLiquidity, bind_ok] at h
  obtain ⟨delta, hdelta, b₁, h1, b₂, h2, paid, hpaid, h3⟩ := h
  rw [balance_sendCoins h3, balance_subtractCoins h2, balance_subtractCoins h1,
    denomSum_newCoins_pair hpaid, denomSum_newCoins_singleton hdelta]

lemma eq_of_liquidityAmounts {msg : MsgAddLiquidity} {token : Coin}
    (hl : l ≠ 0) (h : liquidityAmounts msg x y l = .ok (mint, token)) :
    mint = l * msg.exactIrisAmt / x ∧
      token = ⟨msg.maxToken.denom, y * msg.exactIrisAmt / x + 1⟩ := by
  simp only [liquidityAmounts, if_neg hl, bind_ok, newCoin_ok, pure_eq_ok, Prod.mk.injEq] at h
  obtain ⟨_, h1, m, h2, _, _, _, h3, _, h4, _, h5, _, ⟨rfl, _⟩, _, _, rfl, rfl⟩ := h
  obtain ⟨rfl, _⟩ := eq_of_mul_ok h1
  obtain ⟨rfl, _⟩ := eq_of_div_ok h2
  obtain ⟨rfl, _⟩ := eq_of_mul_ok h3
  obtain ⟨rfl, _⟩ := eq_of_div_ok h4
  obtain ⟨rfl, _⟩ := add_eq_ok.mp h5
  exact ⟨rfl, rfl⟩

lemma denom_of_liquidityAmounts {msg : MsgAddLiquidity} {token : Coin}
    (h : liquidityAmounts msg x y l = .ok (mint, token)) : token.denom = msg.maxToken.denom := by
  unfold liquidityAmounts at h
  split_ifs at h
  · simp only [bind_ok, newCoin_ok, pure_eq_ok, Prod.mk.injEq] at h
    obtain ⟨_, ⟨rfl, _⟩, _, rfl⟩ := h
    rfl
  · simp only [bind_ok, newCoin_ok, pure_eq_ok, Prod.mk.injEq] at h
    obtain ⟨_, _, _, _, _, _, _, _, _, _, _, _, _, ⟨rfl, _⟩, _, _, _, rfl⟩ := h
    rfl

lemma token_of_validateBasic {msg : MsgAddLiquidity} (hv : msg.validateBasic = .ok ()) :
    IsToken msg.maxToken.denom ∧ 0 < msg.exactIrisAmt ∧ 0 < msg.maxToken.amount := by
  simp only [MsgAddLiquidity.validateBasic, bind_ok, require_ok, Coin.isValid,
    Coin.isPositive, Bool.and_eq_true, decide_eq_true_eq, Bool.not_eq_true'] at hv
  obtain ⟨_, hvalid, _, hiris, _, huni, _, hdx, _⟩ := hv
  exact ⟨⟨hvalid.1.2, hiris, huni⟩, hdx, hvalid.2⟩

/-- Amounts a deposit moves into the pool of its token. -/
lemma eq_of_handleAddLiquidity {msg : MsgAddLiquidity} (hv : msg.validateBasic = .ok ())
    (h : handleAddLiquidity env b msg = .ok b') : ∃ mint amount : ℤ,
      liquidityAmounts msg (poolView env b msg.maxToken.denom).x
        (poolView env b msg.maxToken.denom).y (poolView env b msg.maxToken.denom).shares =
          .ok (mint, ⟨msg.maxToken.denom, amount⟩) ∧
      addLiquidity env b msg.sender ⟨irisAtto, msg.exactIrisAmt⟩ ⟨msg.maxToken.denom, amount⟩
        (uniId msg.maxToken.denom) mint = .ok b' := by
  have htoken := (token_of_validateBasic hv).1
  simp only [handleAddLiquidity, bind_ok, getUniId_iris_left htoken, Except.ok.injEq,
    newCoin_ok, amountOf_getReservePool] at h
  obtain ⟨_, rfl, u, hu, _, ⟨rfl, _⟩, ⟨mint, token⟩, hamounts, _, _, hadd⟩ := h
  obtain rfl := eq_of_getUniDenom htoken hu
  obtain ⟨denom, amount⟩ := token
  obtain rfl : denom = msg.maxToken.denom := denom_of_liquidityAmounts hamounts
  exact ⟨mint, amount, hamounts, hadd⟩

lemma poolView_addLiquidity {token : String} {dx dy : ℤ}
    (htoken : IsToken token) (hsender : sender ≠ poolAddr env token)
    (h : addLiquidity env b sender ⟨irisAtto, dx⟩ ⟨token, dy⟩ (uniId token) mint = .ok b') :
    0 ≤ mint ∧ poolView env b' token =
      ⟨(poolView env b token).x + dx, (poolView env b token).y + dy,
        (poolView env b token).shares + mint⟩ := by
  obtain ⟨u, hu, hmint, hbal⟩ := balance_addLiquidity h
  obtain rfl := eq_of_getUniDenom htoken hu
  refine ⟨hmint, ?_⟩
  have htokenUni : uniDenom token ≠ token := uniDenom_ne htoken.not_uni
  have hirisUni : uniDenom token ≠ irisAtto := uniDenom_ne (by decide)
  simp only [poolView, hbal, if_neg hsender.symm]
  simp only [poolAddr, if_true, Coin.amountIn, htoken.ne_iris, htoken.ne_iris.symm, htokenUni,
    htokenUni.symm, hirisUni, hirisUni.symm, if_false]
  simp only [Reserves.mk.injEq]
  refine ⟨by ring, by ring, by ring⟩

lemma poolView_addLiquidity_other {token : String} {coin : Coin}
    (hsender : sender ≠ poolAddr env t) (hpool : poolAddr env token ≠ poolAddr env t)
    (h : addLiquidity env b sender irisCoin coin (uniId token) mint = .ok b') :
    poolView env b' t = poolView env b t := by
  obtain ⟨u, _, _, hbal⟩ := balance_addLiquidity h
  refine poolView_eq_of_balance (fun d => ?_)
  rw [hbal, if_neg hsender.symm, if_neg (fun he => hpool he.symm),
    if_neg (fun he => hpool he.symm), if_neg hsender.symm]
  ring

lemma step_of_handleAddLiquidity {msg : MsgAddLiquidity} (hv : msg.validateBasic = .ok ())
    (hpos : (poolView env b t).Positive) (hsender : msg.sender ≠ poolAddr env t)
    (hcoll : poolAddr env msg.maxToken.denom = poolAddr env t → msg.maxToken.denom = t)
    (h : handleAddLiquidity env b msg = .ok b') :
    Reserves.Step (poolView env b t) (poolView env b' t) ∧ (poolView env b' t).Positive := by
  obtain ⟨htoken, hdx, _⟩ := token_of_validateBasic hv
  obtain ⟨mint, amount, hamounts, hadd⟩ := eq_of_handleAddLiquidity hv h
  by_cases hpool : poolAddr env msg.maxToken.denom = poolAddr env t
  · obtain rfl := hcoll hpool
    obtain ⟨hmint, hview⟩ := poolView_addLiquidity htoken hsender hadd
    obtain ⟨hx, hy, hl⟩ := hpos
    obtain ⟨hm, htok⟩ := eq_of_liquidityAmounts hl.ne' hamounts
    have hamount : amount = (poolView env b msg.maxToken.denom).y * msg.exactIrisAmt /
        (poolView env b msg.maxToken.denom).x + 1 := congrArg Coin.amount htok
    have hmx : mint * (poolView env b msg.maxToken.denom).x ≤
        (poolView env b msg.maxToken.denom).shares * msg.exactIrisAmt := by
      rw [hm]
      exact Int.ediv_mul_le _ hx.ne'
    have hask := (Int.lt_ediv_add_one_mul_self
      ((poolView env b msg.maxToken.denom).y * msg.exactIrisAmt) hx).le
    rw [← hamount] at hask
    have hfloor : 0 ≤ (poolView env b msg.maxToken.denom).y * msg.exactIrisAmt /
        (poolView env b msg.maxToken.denom).x :=
      Int.ediv_nonneg (mul_nonneg hy.le hdx.le) hx.le
    rw [hview]
    exact ⟨Reserves.Step.deposit hdx.le hmint hmx hask, by simp only; linarith,
      by simp only; linarith, by simp only; linarith⟩
  · rw [poolView_addLiquidity_other hsender hpool hadd]
    exact ⟨(grows_refl hpos).step, hpos⟩

/-- Amounts a withdrawal pays out of the pool of its token. -/
lemma eq_of_handleRemoveLiquidity {msg : MsgRemoveLiquidity} {t' : String}
    (ht' : t' = trimPrefix msg.withdrawLiquidity.denom formatUniABSPrefix)
    (hu : checkUniDenom msg.withdrawLiquidity.denom = .ok ())
    (h : handleRemoveLiquidity env b msg = .ok b') :
    msg.withdrawLiquidity.amount ≤ (poolView env b t').shares ∧
      removeLiquidity b (poolAddr env t') msg.sender msg.withdrawLiquidity
        ⟨irisAtto, msg.withdrawLiquidity.amount * (poolView env b t').x /
          (poolView env b t').shares⟩ ⟨t', msg.withdrawLiquidity.amount * (poolView env b t').y /
          (poolView env b t').shares⟩ = .ok b' := by
  have hname := getCoinNameByDenom_uniDenom hu
  have huni := (uniDenom_of_checkUniDenom hu).1
  rw [← ht'] at hname huni
  rw [handleRemoveLiquidity, hname] at h
  cases hpool : getReservePool env b (uniId t') with
  | none => simp [hpool, getCoinMinDenomFromUniDenom, hu] at h
  | some pool =>
    have hbal : ∀ d, b.balance (poolAddr env t') d = pool.amountOf d :=
      balance_of_getReservePool hpool
    simp only [getCoinMinDenomFromUniDenom, hu, hpool, ok_bind, pure_ok, ← ht', bind_ok,
      require_ok, decide_eq_true_eq, newCoin_ok] at h
    obtain ⟨_, _, _, _, _, hw, _, h1, _, h2, _, h3, _, h4, _, ⟨rfl, _⟩, _, ⟨rfl, _⟩, _, _, _, _,
      _, _, h⟩ := h
    obtain ⟨rfl, _⟩ := eq_of_mul_ok h1
    obtain ⟨rfl, _⟩ := eq_of_div_ok h2
    obtain ⟨rfl, _⟩ := eq_of_mul_ok h3
    obtain ⟨rfl, _⟩ := eq_of_div_ok h4
    simp only [poolView, hbal, ← huni]
    exact ⟨hw, h⟩

/-- A successful withdrawal, seen from the pool of `t`. -/
lemma step_of_handleRemoveLiquidity {msg : MsgRemoveLiquidity} (hiris : t ≠ irisAtto)
    (hnot : hasPrefix t formatUniABSPrefix = false) (hv : msg.validateBasic = .ok ())
    (hpos : (poolView env b t).Positive)
    (hsender : msg.sender ≠ poolAddr env t)
    (hcoll : poolAddr env (trimPrefix msg.withdrawLiquidity.denom formatUniABSPrefix) =
      poolAddr env t → trimPrefix msg.withdrawLiquidity.denom formatUniABSPrefix = t)
    (hleft : 0 < (poolView env b' t).shares) (h : handleRemoveLiquidity env b msg = .ok b') :
    Reserves.Step (poolView env b t) (poolView env b' t) ∧ (poolView env b' t).Positive := by
  simp only [MsgRemoveLiquidity.validateBasic, bind_ok, require_ok] at hv
  obtain ⟨_, _, _, _, ⟨⟩, hu, _⟩ := hv
  have huni := (uniDenom_of_checkUniDenom hu).1
  obtain ⟨hw, hremove⟩ := eq_of_handleRemoveLiquidity rfl hu h
  have hbal := balance_removeLiquidity hremove
  by_cases hpool : poolAddr env (trimPrefix msg.withdrawLiquidity.denom formatUniABSPrefix) =
      poolAddr env t
  · have htoken := hcoll hpool
    rw [htoken] at huni hw hbal
    obtain ⟨hx, hy, hl⟩ := hpos
    set p := poolView env b t with hp
    set w := msg.withdrawLiquidity.amount with hwdef
    have hview : poolView env b' t =
        ⟨p.x - w * p.x / p.shares, p.y - w * p.y / p.shares, p.shares - w⟩ := by
      have htUni : uniDenom t ≠ t := uniDenom_ne hnot
      have hirisUni : uniDenom t ≠ irisAtto := uniDenom_ne (by decide)
      simp only [poolView, hbal, if_neg hsender.symm, if_true]
      simp only [Coin.amountIn, huni, hiris, hiris.symm, htUni, htUni.symm, hirisUni,
        hirisUni.symm, if_false, if_true, Reserves.mk.injEq]
      refine ⟨?_, ?_, ?_⟩
      · rw [hp]; simp only [poolView]; ring
      · rw [hp]; simp only [poolView]; ring
      · rw [hp]; simp only [poolView]; ring
    rw [hview] at hleft ⊢
    have hwl : w < p.shares := by simpa using hleft
    have hdx : w * p.x / p.shares * p.shares ≤ w * p.x := Int.ediv_mul_le _ hl.ne'
    have hdy : w * p.y / p.shares * p.shares ≤ w * p.y := Int.ediv_mul_le _ hl.ne'
    have hltx : w * p.x / p.shares < p.x :=
      Int.ediv_lt_of_lt_mul hl (by rw [mul_comm p.x]; exact mul_lt_mul_of_pos_right hwl hx)
    have hlty : w * p.y / p.shares < p.y :=
      Int.ediv_lt_of_lt_mul hl (by rw [mul_comm p.y]; exact mul_lt_mul_of_pos_right hwl hy)
    exact ⟨Reserves.Step.withdraw hw hdx hdy, sub_pos.mpr hltx, sub_pos.mpr hlty, hleft⟩
  · have heq : poolView env b' t = poolView env b t := by
      refine poolView_eq_of_balance (fun d => ?_)
      rw [hbal, if_neg hsender.symm, if_neg (fun he => hpool he.symm),
        if_neg (fun he => hpool he.symm), if_neg hsender.symm]
      ring
    rw [heq]
    exact ⟨(grows_refl hpos).step, hpos⟩

end

section
variable {env : Env} {b b' : Bank} {t : String}

lemma PoolStep.step (hfee : validateFee env.fee) (ht : IsToken t) (h : PoolStep env t b b')
    (hpos : (poolView env b t).Positive) (hleft : 0 < (poolView env b' t).shares) :
    Reserves.Step (poolView env b t) (poolView env b' t) ∧ (poolView env b' t).Positive := by
  obtain ⟨msg, hv, hsender, hcoll, hok⟩ := h
  cases msg with
  | swap msg =>
    have hgrows := grows_of_handleSwap hfee hv hpos hsender hcoll hok
    exact ⟨hgrows.step, hgrows.x_pos, hgrows.y_pos, hleft⟩
  | add msg =>
    exact step_of_handleAddLiquidity hv hpos hsender
      (hcoll _ (mem_singleton.mpr rfl)) hok
  | remove msg =>
    exact step_of_handleRemoveLiquidity ht.ne_iris ht.not_uni hv hpos hsender
      (hcoll _ (mem_singleton.mpr rfl)) hleft hok

/-- A run of successful messages in which the pool of `t` never runs out of vouchers. -/
def PoolRun (env : Env) (t : String) : Bank → Bank → Prop :=
  Relation.ReflTransGen fun b b' => PoolStep env t b b' ∧ 0 < (poolView env b' t).shares

lemma PoolRun.valueLE (hfee : validateFee env.fee) (ht : IsToken t)
    (hpos : (poolView env b t).Positive) (h : PoolRun env t b b') :
    (poolView env b' t).Positive ∧ ValueLE (poolView env b t) (poolView env b' t) := by
  induction h with
  | refl => exact ⟨hpos, ValueLE.refl _⟩
  | tail _ hstep ih =>
    obtain ⟨hmid, hle⟩ := ih
    obtain ⟨hmove, hpos'⟩ := hstep.1.step hfee ht hmid hstep.2
    exact ⟨hpos', hle.trans hpos.2.2 hmid.2.2 (hmove.valueLE hmid)⟩

/-- Between two moments at which the pool of `t` has vouchers throughout, the value of a voucher
does not fall; the two price functions keep the product of the reserves they are given. -/
theorem voucher_value_le (hfee : validateFee env.fee) (ht : IsToken t)
    (hpos : (poolView env b t).Positive) : (∀ b', PoolRun env t b b' →
      (poolView env b t).x * (poolView env b t).y * (poolView env b' t).shares ^ 2 ≤
        (poolView env b' t).x * (poolView env b' t).y * (poolView env b t).shares ^ 2) ∧
    (∀ {dx x y r : ℤ}, 0 ≤ dx → 0 < x → 0 < y → getInputPrice dx x y env.fee = .ok r →
      x * y ≤ (x + dx) * (y - r)) ∧
    (∀ {dy x y r : ℤ}, 0 ≤ dy → 0 < x → dy < y → getOutputPrice dy x y env.fee = .ok r →
      x * y ≤ (x + r) * (y - dy)) := by
  obtain ⟨hnum, hle⟩ := feeFactor_bounds hfee
  refine ⟨fun b' hrun => (hrun.valueLE hfee ht hpos).2, ?_, ?_⟩
  · intro dx x y r hdx hx hy h
    rw [eq_of_getInputPrice h]
    exact product_le_inputPrice hx hy hnum hle hdx
  · intro dy x y r hdy hx hlt h
    rw [eq_of_getOutputPrice h]
    exact product_le_outputPrice hx hnum hle hdy hlt

end

/-- Account 1 holds all vouchers of a pool with a hundred of each side. -/
def soleProviderBank : Bank where
  accounts := Store.empty
    |>.set 1 ⟨[⟨"uni:btc-min", 100⟩], by decide, by decide⟩
    |>.set 0x69b812591c735ec5763c705fab8c383292a83f90
      ⟨[⟨"btc-min", 100⟩, ⟨"iris-atto", 100⟩, ⟨"uni:btc-min", 100⟩], by decide, by decide⟩
  totalLoosenToken := ⟨[⟨"iris-atto", 100⟩], by decide, by decide⟩
  totalSupply := Store.empty

def withdrawVouchers (amount : ℤ) : Msg :=
  .remove ⟨0, ⟨"uni:btc-min", amount⟩, 0, 1, 1⟩

def provideAnew : Msg :=
  .add ⟨⟨"btc-min", 1⟩, 100, 0, 1, 1⟩

lemma poolStep_of_returns {b b' : Bank} {msg : Msg} (hv : msg.validateBasic = .ok ())
    (hsender : msg.sender = 1) (htokens : msg.tokens = ["btc-min"])
    (h : msg.handle sampleEnv b = .ok b') : PoolStep sampleEnv "btc-min" b b' := by
  refine ⟨msg, hv, ?_, ?_, h⟩
  · rw [hsender]
    decide
  · intro t' ht' _
    rw [htokens] at ht'
    exact mem_singleton.mp ht'

/-- Provider of a pool leaves and comes back with another exchange rate. -/
theorem emptied_pool_loses_value : ∃ b₁ b₂, PoolStep sampleEnv "btc-min" soleProviderBank b₁ ∧
      PoolStep sampleEnv "btc-min" b₁ b₂ ∧
      (poolView sampleEnv soleProviderBank "btc-min").Positive ∧
      (poolView sampleEnv b₂ "btc-min").Positive ∧
      ¬ ValueLE (poolView sampleEnv soleProviderBank "btc-min")
        (poolView sampleEnv b₂ "btc-min") := by
  obtain ⟨b₁, h1, hnext⟩ := of_returns
    (p := fun b₁ => returns (fun b₂ => decide (poolView sampleEnv b₂ "btc-min" = ⟨100, 1, 100⟩))
      (provideAnew.handle sampleEnv b₁))
    (x := (withdrawVouchers 100).handle sampleEnv soleProviderBank) (by decide +kernel)
  obtain ⟨b₂, h2, hview⟩ := of_returns hnext
  refine ⟨b₁, b₂, poolStep_of_returns (by decide +kernel) rfl (by decide +kernel) h1,
    poolStep_of_returns (by decide +kernel) rfl (by decide +kernel) h2, ?_⟩
  rw [of_decide_eq_true hview]
  simp only [Positive, ValueLE]
  decide +kernel

/-- After half of the vouchers are withdrawn, a voucher is worth as much as before. -/
theorem half_withdrawn_keeps_value : ∃ b', PoolRun sampleEnv "btc-min" soleProviderBank b' ∧
      (poolView sampleEnv b' "btc-min").shares = 50 ∧
      100 * 100 * (poolView sampleEnv b' "btc-min").shares ^ 2 ≤
        (poolView sampleEnv b' "btc-min").x * (poolView sampleEnv b' "btc-min").y * 100 ^ 2 := by
  obtain ⟨b', h, hview⟩ := of_returns
    (p := fun b' => decide ((poolView sampleEnv b' "btc-min").shares = 50))
    (x := (withdrawVouchers 50).handle sampleEnv soleProviderBank) (by decide +kernel)
  have hshares := of_decide_eq_true hview
  have hrun : PoolRun sampleEnv "btc-min" soleProviderBank b' :=
    .single ⟨poolStep_of_returns (by decide +kernel) rfl (by decide +kernel) h, by
      rw [hshares]
      decide⟩
  exact ⟨b', hrun, hshares, (voucher_value_le (by decide +kernel)
    ⟨by decide +kernel, by decide, by decide⟩ ⟨by decide +kernel, by decide +kernel,
      by decide +kernel⟩).1 b' hrun⟩

end Irishub.Coinswap
