import Irishub.Bank.Keeper
import Irishub.Types.IrisCoins

/-!
# Totals over all accounts

`sumOf b d` is the amount of `d` held by all accounts and `circulating b d` the
amount held by all accounts except the burning address. Transfers keep the
first; they keep the second too unless they go to or come from the burning
address, and iris tokens that arrive there are taken off the loose token counter.

`Bank.Sound` is the invariant of the iris tokens that follows: the counter covers
what circulates, and the total is in the range of an `sdk.Int`. In a sound bank a
transfer of iris coins that the sender holds succeeds.
-/

namespace Irishub
open Lib Store Coins SdkInt StoredCoins

namespace StoredCoins
variable {s : StoredCoins} {cs : Coins}

lemma merge_ok (hcs : cs.Sorted) (f : Fault)
    (hrange : ∀ c ∈ cs, InRange (s.amountOf c.denom + c.amount))
    (hnn : ∀ d, 0 ≤ s.amountOf d + denomSum d cs) : ∃ r, s.merge cs hcs f = .ok r := by
  obtain ⟨r, hr⟩ : ∃ r, safeAdd s.coins cs = .ok r := by
    refine safeAdd_ok s.coins (fun a ha c hc hac => ?_)
    have h := hrange c hc
    rw [amountOf_eq, ← hac, denomSum_of_mem s.sorted ha] at h
    exact h
  have hneg : isAnyNegative r = false := by
    refine (isAnyNegative_eq_false (s.sorted.safeAdd hcs hr)).mpr (fun d => ?_)
    rw [denomSum_safeAdd d hr, ← amountOf_eq]
    exact hnn d
  unfold merge
  split
  · rename_i e he
    rw [hr] at he
    simp at he
  · rename_i r' hr'
    rw [hr] at hr'
    simp only [Except.ok.injEq] at hr'
    subst hr'
    rw [dif_pos hneg]
    exact ⟨_, rfl⟩

lemma add_ok (hiris : cs.IrisOnly) (hcs : cs.Sorted)
    (hrange : InRange (s.amountOf irisAtto + cs.iris)) : ∃ r, s.add cs hcs = .ok r := by
  refine merge_ok hcs _ (fun c hc => ?_) (fun d => ?_)
  · rw [irisOnly_amount_eq hiris.shape hc]
    exact hrange
  · rw [denomSum_of_irisOnly hiris]
    have := s.amountOf_nonneg d
    have := hiris.nonneg
    split_ifs <;> omega

lemma inRange_of_add {c : Coin} {r : StoredCoins} (hc : InRange c.amount)
    (h : s.add [c] (sorted_singleton c) = .ok r) : InRange (s.amountOf c.denom + c.amount) := by
  rw [amountOf_eq]
  unfold add merge at h
  split at h
  · cases h
  · rename_i hsum
    exact inRange_of_safeAdd s.sorted hc hsum

lemma sub_ok (hiris : cs.IrisOnly) (hcs : cs.Sorted) (f : Fault)
    (hrange : InRange (s.amountOf irisAtto - cs.iris)) (hle : cs.iris ≤ s.amountOf irisAtto) :
    ∃ r, s.sub cs hcs f = .ok r := by
  refine merge_ok hcs.negative f (fun c hc => ?_) (fun d => ?_)
  · rw [irisOnly_amount_eq hiris.shape_negative hc, iris_negative, ← sub_eq_add_neg]
    exact hrange
  · rw [denomSum_negative, denomSum_of_irisOnly hiris]
    have := s.amountOf_nonneg d
    split_ifs with hd
    · rw [hd]
      omega
    · omega

end StoredCoins

namespace Bank

/-- Amount of `d` held by all accounts. -/
def sumOf (b : Bank) (d : String) : ℤ := Store.total (fun _ cs => cs.amountOf d) b.accounts

/-- Amount of `d` held by all accounts except the burning address. -/
def circulating (b : Bank) (d : String) : ℤ :=
  Store.total (fun a cs => if a = burnedCoinsAccAddr then 0 else cs.amountOf d) b.accounts

section
variable {b : Bank} {addr : Address}

lemma total_setCoins (f : Address → StoredCoins → ℤ) (hf : ∀ a, f a .empty = 0)
    (b : Bank) (addr : Address) (cs : StoredCoins) : total f (b.setCoins addr cs).accounts =
      total f b.accounts + f addr cs - f addr (b.getCoins addr) := by
  have hold : contribution f b.accounts addr = f addr (b.getCoins addr) := by
    unfold contribution getCoins
    cases b.accounts.get addr with
    | none => exact (hf addr).symm
    | some cs => rfl
  rw [setCoins, total_set, hold]

lemma sumOf_setCoins (b : Bank) (addr : Address) (cs : StoredCoins) (d : String) :
    (b.setCoins addr cs).sumOf d = b.sumOf d + cs.amountOf d - b.balance addr d :=
  total_setCoins (fun _ cs => cs.amountOf d) (fun _ => rfl) b addr cs

lemma circulating_setCoins (b : Bank) (addr : Address) (cs : StoredCoins) (d : String) :
    (b.setCoins addr cs).circulating d = b.circulating d +
      if addr = burnedCoinsAccAddr then 0 else cs.amountOf d - b.balance addr d := by
  have h := total_setCoins (fun a cs => if a = burnedCoinsAccAddr then 0 else cs.amountOf d)
    (fun a => by simp) b addr cs
  unfold circulating
  rw [h]
  split_ifs
  · ring
  · rw [balance]
    ring

lemma balance_le_sumOf (b : Bank) (a : Address) (d : String) : b.balance a d ≤ b.sumOf d := by
  unfold balance getCoins
  cases h : b.accounts.get a with
  | none =>
    rw [Option.getD_none, amountOf_empty]
    exact total_nonneg (fun _ cs _ => cs.amountOf_nonneg d)
  | some cs =>
    exact le_total (f := fun _ cs => cs.amountOf d) (fun _ cs _ => cs.amountOf_nonneg d) h

lemma balance_le_circulating (b : Bank) {a : Address} (ha : a ≠ burnedCoinsAccAddr)
    (d : String) : b.balance a d ≤ b.circulating d := by
  have hnn : ∀ (k : Address) (cs : StoredCoins), b.accounts.get k = some cs →
      0 ≤ if k = burnedCoinsAccAddr then 0 else cs.amountOf d := by
    intro k cs _
    split_ifs
    · exact le_rfl
    · exact cs.amountOf_nonneg d
  unfold balance getCoins
  cases h : b.accounts.get a with
  | none =>
    rw [Option.getD_none, amountOf_empty]
    exact total_nonneg hnn
  | some cs =>
    have hle := le_total hnn h
    rw [if_neg ha] at hle
    exact hle

lemma sumOf_eq_circulating_add (b : Bank) (d : String) :
    b.sumOf d = b.circulating d + b.balance burnedCoinsAccAddr d := by
  have hrest := total_sub_contribution_congr
    (f := fun _ (cs : StoredCoins) => cs.amountOf d)
    (g := fun a cs => if a = burnedCoinsAccAddr then 0 else cs.amountOf d) (s := b.accounts)
    (k := burnedCoinsAccAddr) (fun k cs hk => (if_neg hk).symm)
  have hburned : contribution (fun _ (cs : StoredCoins) => cs.amountOf d) b.accounts
      burnedCoinsAccAddr = b.balance burnedCoinsAccAddr d := by
    unfold contribution balance getCoins
    cases b.accounts.get burnedCoinsAccAddr with
    | none | some cs => rfl
  have hzero : contribution
      (fun a (cs : StoredCoins) => if a = burnedCoinsAccAddr then 0 else cs.amountOf d) b.accounts
      burnedCoinsAccAddr = 0 := by
    unfold contribution
    cases b.accounts.get burnedCoinsAccAddr with
    | none | some cs => rfl
  unfold sumOf circulating
  omega

lemma circulating_le_sumOf (b : Bank) (d : String) : b.circulating d ≤ b.sumOf d := by
  have hsum := b.sumOf_eq_circulating_add d
  have hnn := b.balance_nonneg burnedCoinsAccAddr d
  omega

end

section
variable {b b' : Bank} {addr fromAddr toAddr : Address} {amt : Coins}

lemma sumOf_subtractCoins (h : b.subtractCoins addr amt = .ok b') (d : String) :
    b'.sumOf d = b.sumOf d - denomSum d amt := by
  obtain ⟨_, newCoins, hnew, rfl⟩ := subtractCoins_eq_ok h
  rw [sumOf_setCoins, amountOf_sub hnew, balance]
  ring

lemma circulating_subtractCoins (h : b.subtractCoins addr amt = .ok b')
    (haddr : addr ≠ burnedCoinsAccAddr) (d : String) :
    b'.circulating d = b.circulating d - denomSum d amt := by
  obtain ⟨_, newCoins, hnew, rfl⟩ := subtractCoins_eq_ok h
  rw [circulating_setCoins, if_neg haddr, amountOf_sub hnew, balance]
  ring

lemma denomSum_nonneg_of_subtractCoins (h : b.subtractCoins addr amt = .ok b') {d : String} :
    0 ≤ denomSum d amt := by
  unfold subtractCoins at h
  split_ifs at h with hv
  · refine denomSum_nonneg (fun c hc => ?_)
    have hc := (sorted_of_isValid hv).2 c hc
    simp only [Coin.isValid, Bool.and_eq_true, decide_eq_true_eq] at hc
    exact hc.1
  · simp at h

lemma subtractCoins_totalLoosenToken (h : b.subtractCoins addr amt = .ok b') :
    b'.totalLoosenToken = b.totalLoosenToken := by
  obtain ⟨_, _, _, rfl⟩ := subtractCoins_eq_ok h
  rfl

lemma addCoins_cases (h : b.addCoins addr amt = .ok b') :
    ∃ (hs : amt.Sorted) (newCoins : StoredCoins), (b.getCoins addr).add amt hs = .ok newCoins ∧
      (addr = burnedCoinsAccAddr ∧ (b.setCoins addr newCoins).burnArrived
          (afterSafeAdd (b.getCoins addr).coins amt) = .ok b' ∨
        addr ≠ burnedCoinsAccAddr ∧ b' = b.setCoins addr newCoins) := by
  unfold addCoins at h
  by_cases hv : amt.isValid = true
  · rw [dif_pos hv] at h
    obtain ⟨newCoins, hnew, h⟩ := bind_ok.mp h
    refine ⟨_, newCoins, hnew, ?_⟩
    simp only at h
    split_ifs at h with hburn
    · exact Or.inl ⟨hburn, h⟩
    · simp only [Except.ok.injEq] at h
      exact Or.inr ⟨hburn, h.symm⟩
  · rw [dif_neg hv] at h
    simp at h

lemma addCoins_accounts (h : b.addCoins addr amt = .ok b') :
    ∃ (hs : amt.Sorted) (newCoins : StoredCoins), (b.getCoins addr).add amt hs = .ok newCoins ∧
      b'.accounts = (b.setCoins addr newCoins).accounts := by
  obtain ⟨hs, newCoins, hnew, hb'⟩ := addCoins_cases h
  refine ⟨hs, newCoins, hnew, ?_⟩
  rcases hb' with ⟨_, hb'⟩ | ⟨_, rfl⟩
  · exact burnArrived_accounts hb'
  · rfl

lemma sumOf_addCoins (h : b.addCoins addr amt = .ok b') (d : String) :
    b'.sumOf d = b.sumOf d + denomSum d amt := by
  obtain ⟨_, newCoins, hnew, hacc⟩ := addCoins_accounts h
  have hset := sumOf_setCoins b addr newCoins d
  unfold sumOf at hset ⊢
  rw [hacc, hset, amountOf_add hnew, balance]
  ring

lemma circulating_addCoins (h : b.addCoins addr amt = .ok b') (d : String) :
    b'.circulating d = b.circulating d +
      if addr = burnedCoinsAccAddr then 0 else denomSum d amt := by
  obtain ⟨_, newCoins, hnew, hacc⟩ := addCoins_accounts h
  have hset := circulating_setCoins b addr newCoins d
  unfold circulating at hset ⊢
  rw [hacc, hset, amountOf_add hnew, balance]
  split_ifs <;> ring

lemma sumOf_sendCoins (h : b.sendCoins fromAddr toAddr amt = .ok b') (d : String) :
    b'.sumOf d = b.sumOf d := by
  obtain ⟨b1, h1, h2⟩ := bind_ok.mp h
  rw [sumOf_addCoins h2, sumOf_subtractCoins h1]
  ring

end

section
variable {b b' : Bank} {addr fromAddr toAddr : Address} {amt : Coins} {x : ℤ} {coin : Coin}

def loosen (b : Bank) : ℤ := b.totalLoosenToken.amountOf irisAtto

lemma loosen_decreaseTotalLoosenToken (hx : 0 ≤ x)
    (h : b.decreaseTotalLoosenToken [⟨irisAtto, x⟩] = .ok b') : b'.loosen = b.loosen - x := by
  simp only [decreaseTotalLoosenToken, reduceCtorEq, if_false, getCoin, List.find?_cons,
    decide_true] at h
  split_ifs at h with hpos
  · have hx0 : x = 0 := by
      simp only [Coin.isPositive, decide_eq_false_iff_not, not_lt] at hpos
      omega
    simp only [Except.ok.injEq] at h
    rw [← h, hx0, sub_zero]
  · obtain ⟨total, htotal, h⟩ := bind_ok.mp h
    cases h
    have hsub := amountOf_sub htotal irisAtto
    simpa [loosen, Coin.amountIn] using hsub

lemma loosen_increaseTotalLoosenToken (hx : 0 ≤ x)
    (h : b.increaseTotalLoosenToken [⟨irisAtto, x⟩] = .ok b') : b'.loosen = b.loosen + x := by
  simp only [increaseTotalLoosenToken, reduceCtorEq, if_false, getCoin, List.find?_cons,
    decide_true] at h
  split_ifs at h with hpos
  · have hx0 : x = 0 := by
      simp only [Coin.isPositive, decide_eq_false_iff_not, not_lt] at hpos
      omega
    simp only [Except.ok.injEq] at h
    rw [← h, hx0, add_zero]
  · obtain ⟨total, htotal, h⟩ := bind_ok.mp h
    cases h
    have hadd := amountOf_add htotal irisAtto
    simpa [loosen, Coin.amountIn] using hadd

lemma decreaseTotalSupply_totalLoosenToken
    (h : b.decreaseTotalSupply coin = .ok b') : b'.totalLoosenToken = b.totalLoosenToken := by
  obtain ⟨_, rfl⟩ := decreaseTotalSupply_ok h
  rfl

lemma loosen_burnOne (hnn : 0 ≤ coin.amount)
    (h : (if coin.denom = irisAtto then b.decreaseTotalLoosenToken [coin]
      else b.ignoreError (b.decreaseTotalSupply coin)) = .ok b') :
    b'.loosen = b.loosen - coin.amountIn irisAtto := by
  split_ifs at h with hiris
  · obtain ⟨denom, x⟩ := coin
    subst hiris
    rw [loosen_decreaseTotalLoosenToken hnn h]
    simp [Coin.amountIn]
  · rw [Coin.amountIn_of_ne hiris, sub_zero, loosen, loosen]
    unfold ignoreError at h
    split at h
    · cases h
      rfl
    · rw [decreaseTotalSupply_totalLoosenToken h]

lemma loosen_burnArrived (hnn : ∀ c ∈ amt, 0 ≤ c.amount) (h : b.burnArrived amt = .ok b') :
    b'.loosen = b.loosen - denomSum irisAtto amt := by
  unfold burnArrived at h
  induction amt generalizing b with
  | nil =>
    simp only [List.foldlM_nil, pure_eq_ok] at h
    rw [h, denomSum_nil, sub_zero]
  | cons coin amt ih =>
    rw [List.foldlM_cons] at h
    obtain ⟨b1, h1, h⟩ := bind_ok.mp h
    rw [ih (fun c hc => hnn c (List.mem_cons_of_mem _ hc)) h,
      loosen_burnOne (hnn coin (by simp)) h1, denomSum_cons]
    ring

lemma loosen_addCoins (hamt : addr = burnedCoinsAccAddr → amt.Steady)
    (h : b.addCoins addr amt = .ok b') : b'.loosen = b.loosen -
      if addr = burnedCoinsAccAddr then denomSum irisAtto amt else 0 := by
  have hnn : ∀ c ∈ amt, 0 ≤ c.amount := by
    unfold addCoins at h
    by_cases hv : amt.isValid = true
    · intro c hc
      have hc := (sorted_of_isValid hv).2 c hc
      simp only [Coin.isValid, Bool.and_eq_true, decide_eq_true_eq] at hc
      exact hc.1
    · rw [dif_neg hv] at h
      simp at h
  obtain ⟨hs, newCoins, hnew, hb'⟩ := addCoins_cases h
  rcases hb' with ⟨haddr, hb'⟩ | ⟨haddr, rfl⟩
  · rw [hamt haddr] at hb'
    rw [if_pos haddr, loosen_burnArrived hnn hb']
    rfl
  · rw [if_neg haddr, sub_zero]
    rfl

lemma burnArrived_ok (hamt : amt.IrisOnly) (hle : amt.iris ≤ b.loosen)
    (hmax : b.loosen < 2 ^ 255) : ∃ b', b.burnArrived amt = .ok b' := by
  rcases hamt with rfl | ⟨x, hx, rfl⟩
  · exact ⟨b, rfl⟩
  · rw [iris_single] at hle
    simp only [burnArrived, List.foldlM_cons, List.foldlM_nil, if_true,
      decreaseTotalLoosenToken, reduceCtorEq, if_false, getCoin, List.find?_cons, decide_true]
    split_ifs with hpos
    · exact ⟨b, rfl⟩
    · obtain ⟨r, hr⟩ := sub_ok (s := b.totalLoosenToken) (IrisOnly.single hx)
        (sorted_singleton _) (.panic .totalLooseTokenNegative)
        (by rw [inRange_iff, iris_single]; unfold loosen at hle hmax; constructor <;> omega)
        (by rw [iris_single]; exact hle)
      rw [hr]
      exact ⟨_, rfl⟩

/-- Counter covers the circulating iris tokens; the counter and the total are in range. -/
structure Sound (b : Bank) : Prop where
  covered : b.circulating irisAtto ≤ b.loosen
  range : b.sumOf irisAtto < 2 ^ 255
  loosen_range : b.loosen < 2 ^ 255

lemma Sound.sendCoins (hb : b.Sound) (hfrom : fromAddr ≠ burnedCoinsAccAddr)
    (hsteady : toAddr = burnedCoinsAccAddr → amt.Steady)
    (h : b.sendCoins fromAddr toAddr amt = .ok b') : b'.Sound := by
  have hsum := sumOf_sendCoins h irisAtto
  obtain ⟨b1, h1, h2⟩ := bind_ok.mp h
  have hcirc := circulating_subtractCoins h1 hfrom irisAtto
  have hcirc' := circulating_addCoins h2 irisAtto
  have hloosen : b1.loosen = b.loosen := by rw [loosen, loosen, subtractCoins_totalLoosenToken h1]
  have hloosen' := loosen_addCoins hsteady h2
  have hamt : 0 ≤ denomSum irisAtto amt := denomSum_nonneg_of_subtractCoins h1
  have hcovered := hb.covered
  have hmax := hb.loosen_range
  refine ⟨?_, by rw [hsum]; exact hb.range, ?_⟩
  · split_ifs at hcirc' hloosen' <;> omega
  · split_ifs at hloosen' <;> omega

end

section
variable {b : Bank} {addr fromAddr toAddr : Address} {amt : Coins}

lemma subtractCoins_ok (hb : b.Sound) (hamt : amt.IrisOnly)
    (hle : amt.iris ≤ b.balance addr irisAtto) : ∃ b', b.subtractCoins addr amt = .ok b' := by
  have hbal := balance_le_sumOf b addr irisAtto
  have hmax := hb.range
  have hnn := hamt.nonneg
  obtain ⟨r, hr⟩ := sub_ok (s := b.getCoins addr) hamt
    (sorted_of_isValid hamt.isValid).1 (.error .errInsufficientCoins)
    (by rw [inRange_iff]; unfold balance at hle hbal; constructor <;> omega) hle
  exact ⟨_, by simp only [subtractCoins, hamt.isValid, dite_true, hr, ok_bind]; rfl⟩

lemma addCoins_ok (b : Bank) (addr : Address) (hamt : amt.IrisOnly)
    (hrange : b.balance addr irisAtto + amt.iris < 2 ^ 255) (hloosen : amt.iris ≤ b.loosen)
    (hmax : b.loosen < 2 ^ 255) : ∃ b', b.addCoins addr amt = .ok b' := by
  have hnn := hamt.nonneg
  have hbal := b.balance_nonneg addr irisAtto
  obtain ⟨r, hr⟩ := add_ok (s := b.getCoins addr) hamt
    (sorted_of_isValid hamt.isValid).1
    (by rw [inRange_iff]; unfold balance at hrange hbal; constructor <;> omega)
  simp only [addCoins, hamt.isValid, dite_true, hr, ok_bind]
  split_ifs with hburn
  · rw [hamt.steady]
    exact burnArrived_ok hamt hloosen hmax
  · exact ⟨_, rfl⟩

lemma sendCoins_ok (hb : b.Sound) (hfrom : fromAddr ≠ burnedCoinsAccAddr) (hamt : amt.IrisOnly)
    (hle : amt.iris ≤ b.balance fromAddr irisAtto) :
    ∃ b', b.sendCoins fromAddr toAddr amt = .ok b' := by
  obtain ⟨b1, h1⟩ := subtractCoins_ok hb hamt hle
  have hsum := sumOf_subtractCoins h1 irisAtto
  have hbal := balance_le_sumOf b1 toAddr irisAtto
  have hcirc := balance_le_circulating b hfrom irisAtto
  have hloosen : b1.loosen = b.loosen := by rw [loosen, loosen, subtractCoins_totalLoosenToken h1]
  have hiris : denomSum irisAtto amt = amt.iris := rfl
  obtain ⟨b', h'⟩ := addCoins_ok b1 toAddr hamt (by have := hb.range; omega)
    (by have := hb.covered; omega) (by rw [hloosen]; exact hb.loosen_range)
  exact ⟨b', bind_ok.mpr ⟨b1, h1, h'⟩⟩

end

section
variable {b : Bank} {addr fromAddr toAddr : Address} {amt : Coins}

lemma denomSum_of_isValid (hvalid : amt.isValid = true) {c : Coin} (hc : c ∈ amt) :
    denomSum c.denom amt = c.amount ∧ 0 ≤ c.amount := by
  obtain ⟨hsorted, hall⟩ := sorted_of_isValid hvalid
  have hcoin := hall c hc
  simp only [Coin.isValid, Bool.and_eq_true, decide_eq_true_eq] at hcoin
  exact ⟨denomSum_of_mem hsorted hc, hcoin.1⟩

lemma subtractCoins_ok_of_le (hvalid : amt.isValid = true)
    (hle : ∀ d, denomSum d amt ≤ b.balance addr d) (hrange : ∀ d, b.balance addr d < 2 ^ 255) :
    ∃ b', b.subtractCoins addr amt = .ok b' := by
  have hsorted := (sorted_of_isValid hvalid).1
  obtain ⟨r, hr⟩ :
      ∃ r, (b.getCoins addr).sub amt hsorted (.error .errInsufficientCoins) = .ok r := by
    refine merge_ok hsorted.negative _ (fun c hc => ?_) (fun d => ?_)
    · obtain ⟨c', hc', rfl⟩ := List.mem_map.mp hc
      obtain ⟨hsum, hnn⟩ := denomSum_of_isValid hvalid hc'
      have hle' := hle c'.denom
      have hmax := hrange c'.denom
      rw [hsum] at hle'
      rw [inRange_iff]
      unfold balance at hle' hmax
      simp only
      constructor <;> omega
    · rw [denomSum_negative]
      have hle' := hle d
      unfold balance at hle'
      omega
  exact ⟨_, by simp only [subtractCoins, hvalid, dite_true, hr, ok_bind]; rfl⟩

lemma addCoins_ok_of_lt (hvalid : amt.isValid = true) (haddr : addr ≠ burnedCoinsAccAddr)
    (hrange : ∀ d, b.balance addr d + denomSum d amt < 2 ^ 255) :
    ∃ b', b.addCoins addr amt = .ok b' := by
  have hsorted := (sorted_of_isValid hvalid).1
  obtain ⟨r, hr⟩ : ∃ r, (b.getCoins addr).add amt hsorted = .ok r := by
    refine merge_ok hsorted _ (fun c hc => ?_) (fun d => ?_)
    · obtain ⟨hsum, hnn⟩ := denomSum_of_isValid hvalid hc
      have hmax := hrange c.denom
      have hbal := b.balance_nonneg addr c.denom
      rw [hsum] at hmax
      rw [inRange_iff]
      unfold balance at hmax hbal
      constructor <;> omega
    · refine add_nonneg (amountOf_nonneg _ _) (denomSum_nonneg (fun c hc => ?_))
      exact (denomSum_of_isValid hvalid hc).2
  simp only [addCoins, hvalid, dite_true, hr, ok_bind, if_neg haddr]
  exact ⟨_, rfl⟩

lemma sendCoins_ok_of_le (hvalid : amt.isValid = true)
    (hle : ∀ d, denomSum d amt ≤ b.balance fromAddr d) (hto : toAddr ≠ burnedCoinsAccAddr)
    (hrange : ∀ d, b.sumOf d < 2 ^ 255) : ∃ b', b.sendCoins fromAddr toAddr amt = .ok b' := by
  obtain ⟨b1, h1⟩ := subtractCoins_ok_of_le hvalid hle
    (fun d => (balance_le_sumOf b fromAddr d).trans_lt (hrange d))
  obtain ⟨b', h'⟩ := addCoins_ok_of_lt (b := b1) hvalid hto (fun d => by
    have hbal := balance_le_sumOf b1 toAddr d
    have hsum := sumOf_subtractCoins h1 d
    have hmax := hrange d
    omega)
  exact ⟨b', bind_ok.mpr ⟨b1, h1, h'⟩⟩

end

section
variable {b : Bank} {addr fromAddr toAddr : Address} {amt : Coins}

lemma addCoin_isPanic (c d : Coin) : Sat Fault.IsPanic (fun _ => True) (c.add d) := by
  unfold Coin.add SdkInt.add SdkInt.checked
  split_ifs <;> exact trivial

lemma mergeHead_isPanic (a : Coin) (as : Coins) {next : Coins → Outcome Coins}
    (hnext : ∀ bs, Sat Fault.IsPanic (fun _ => True) (next bs)) (bs : Coins) :
    Sat Fault.IsPanic (fun _ => True) (mergeHead a as next bs) := by
  induction bs with
  | nil => exact trivial
  | cons c bs ih =>
    rw [mergeHead]
    split_ifs with hlt heq
    · exact (hnext _).bind (fun _ _ => trivial)
    · exact (addCoin_isPanic a c).bind (fun _ _ => (hnext bs).bind (fun _ _ => trivial))
    · exact ih.bind (fun _ _ => trivial)

lemma safeAdd_isPanic (as bs : Coins) : Sat Fault.IsPanic (fun _ => True) (safeAdd as bs) := by
  induction as generalizing bs with
  | nil => exact trivial
  | cons a as ih => exact mergeHead_isPanic a as ih bs

lemma merge_fault {E : Fault → Prop} (hE : ∀ f, Fault.IsPanic f → E f) (s : StoredCoins)
    {cs : Coins} (hcs : cs.Sorted) {f : Fault}
    (hf : (∃ d, s.amountOf d + denomSum d cs < 0) → E f) :
    Sat E (fun _ => True) (s.merge cs hcs f) := by
  unfold StoredCoins.merge
  split
  · rename_i e he
    exact hE e ((safeAdd_isPanic s.coins cs).of_error he)
  · rename_i r hr
    split_ifs with hneg
    · exact trivial
    · refine hf ?_
      by_contra hall
      push Not at hall
      refine hneg ((isAnyNegative_eq_false (s.sorted.safeAdd hcs hr)).mpr (fun d => ?_))
      rw [denomSum_safeAdd d hr, ← amountOf_eq]
      exact hall d

lemma decreaseTotalLoosenToken_isPanic (b : Bank) (cs : Coins) :
    Sat Fault.IsPanic (fun _ => True) (b.decreaseTotalLoosenToken cs) := by
  unfold decreaseTotalLoosenToken
  split_ifs with hnil
  · exact trivial
  · split
    · exact trivial
    · split_ifs with hpos
      · exact trivial
      · refine Sat.bind (P := fun _ => True) (merge_fault (fun _ h => h) _ _ (fun _ => ?_))
          (fun _ _ => trivial)
        exact trivial

lemma ignoreError_isPanic (b : Bank) (r : Outcome Bank) :
    Sat Fault.IsPanic (fun _ => True) (b.ignoreError r) := by
  unfold ignoreError
  split
  · exact trivial
  · rename_i h
    cases r with
    | ok b' => exact trivial
    | error e =>
      cases e with
      | panic p => exact trivial
      | error e => exact (h e rfl).elim

lemma addCoins_isPanic (b : Bank) (addr : Address) (amt : Coins) :
    Sat Fault.IsPanic (fun _ => True) (b.addCoins addr amt) := by
  unfold addCoins
  by_cases hvalid : amt.isValid = true
  · rw [dif_pos hvalid]
    refine Sat.bind (P := fun _ => True) (merge_fault (fun _ h => h) _ _ (fun _ => ?_))
      (fun newCoins _ => ?_)
    · exact trivial
    simp only
    split_ifs with hburn
    · refine Sat.foldlM _ _ trivial (fun coin _ b' _ => ?_)
      split_ifs
      · exact decreaseTotalLoosenToken_isPanic b' [coin]
      · exact ignoreError_isPanic b' _
    · exact trivial
  · rw [dif_neg hvalid]
    exact trivial

lemma sendCoins_isPanic (hle : ∀ d, denomSum d amt ≤ b.balance fromAddr d) :
    Sat Fault.IsPanic (fun _ => True) (b.sendCoins fromAddr toAddr amt) := by
  refine Sat.bind (P := fun _ => True) ?_ (fun b' _ => addCoins_isPanic b' toAddr amt)
  unfold subtractCoins
  split_ifs with hvalid
  · refine (merge_fault (fun _ h => h) _ _ (fun hneg => ?_)).bind (fun _ _ => trivial)
    obtain ⟨d, hd⟩ := hneg
    rw [denomSum_negative] at hd
    have hle' := hle d
    unfold balance at hle'
    omega
  · exact trivial

end
end Bank
end Irishub
