import Irishub.Bank.Msg

/-!
# Recorded supplies

The supply of a token is recorded apart from the balances. `b.Recorded d x` says
that the record of `d` exceeds what circulates by `x`. Taking coins out of an
account raises `x` by their amount and giving them to an account lowers it by as
much, also at the burning address, where the record is lowered instead of the
circulation. A transfer therefore keeps `x`.

The record of a denomination is found by a key, which several denominations may
share. `Tracked` says that no other denomination that is held has the key of
`d`; the denominations in `V` are vouchers, which have no records.
-/

namespace Irishub
open Lib Store Coin List

namespace Bank
variable {b b' b'' : Bank} {addr fromAddr toAddr : Address} {amt : Coins} {d : String} {x : ℤ}

section
variable {d' : String} {y : ℤ} {coin : Coin}

/-- Record of `d` exceeds the circulating amount by `x`. -/
def Recorded (b : Bank) (d : String) (x : ℤ) : Prop :=
  b.getTotalSupply d = some ⟨d, b.circulating d + x⟩

/-- No coin in `amt` besides those of `d` is recorded under the key of `d`. -/
def KeyApart (d : String) (amt : Coins) : Prop :=
  ∀ c ∈ amt, 0 < c.amount → c.denom ≠ irisAtto →
    totalSupplyStoreKey c.denom = totalSupplyStoreKey d → c.denom = d

lemma keyApart_single (h : d ≠ d' → totalSupplyStoreKey d ≠ totalSupplyStoreKey d')
    (y : ℤ) : KeyApart d [⟨d', y⟩] := by
  intro c hc _ _ hkey
  rw [mem_singleton.mp hc] at hkey ⊢
  by_contra hne
  exact h (Ne.symm hne) hkey.symm

lemma subtractCoins_totalSupply (h : b.subtractCoins addr amt = .ok b') :
    b'.totalSupply = b.totalSupply := by
  obtain ⟨_, _, _, rfl⟩ := subtractCoins_eq_ok h
  rfl

lemma Recorded.of_eq (h : b.Recorded d x) (hsupply : b'.getTotalSupply d = b.getTotalSupply d)
    (hcirc : b'.circulating d + y = b.circulating d + x) : b'.Recorded d y := by
  rw [Recorded, hsupply, hcirc]
  exact h

lemma recorded_setTotalSupply (b : Bank) (d : String) (x : ℤ) :
    (b.setTotalSupply ⟨d, b.circulating d + x⟩).Recorded d x := by
  rw [Recorded, getTotalSupply, setTotalSupply, get_set_self]
  rfl

lemma Recorded.setTotalSupply (h : b.Recorded d x)
    (hkey : totalSupplyStoreKey d ≠ totalSupplyStoreKey d') (y : ℤ) :
    (b.setTotalSupply ⟨d', y⟩).Recorded d x := by
  have hcirc : (b.setTotalSupply ⟨d', y⟩).circulating d + x = b.circulating d + x := rfl
  refine h.of_eq ?_ hcirc
  rw [getTotalSupply, Bank.setTotalSupply, get_set_ne _ _ hkey, getTotalSupply]

lemma Recorded.subtractCoins (h : b.Recorded d x) (haddr : addr ≠ burnedCoinsAccAddr)
    (hsub : b.subtractCoins addr amt = .ok b') : b'.Recorded d (x + Coins.denomSum d amt) := by
  refine h.of_eq ?_ ?_
  · rw [getTotalSupply, subtractCoins_totalSupply hsub, getTotalSupply]
  · rw [circulating_subtractCoins hsub haddr d]
    ring

lemma subCoin_isPanic (c c' : Coin) : Sat Fault.IsPanic (fun _ => True) (c.sub c') := by
  unfold Coin.sub SdkInt.sub SdkInt.checked
  split_ifs with hdenom hlen
  · exact trivial
  · exact trivial
  · show Sat _ _ (Coin.newCoin _ _)
    unfold Coin.newCoin
    split_ifs <;> exact trivial

lemma decreaseTotalSupply_cases (h : b.ignoreError (b.decreaseTotalSupply coin) = .ok b') :
    b' = b ∧ (hasSuffix coin.denom minDenomSuffix = false ∨ coin.isPositive = false ∨
        b.getTotalSupply coin.denom = none) ∨
      ∃ total, b.getTotalSupply coin.denom = some total ∧ total.denom = coin.denom ∧
        0 < coin.amount ∧ b' = b.setTotalSupply ⟨coin.denom, total.amount - coin.amount⟩ := by
  unfold decreaseTotalSupply at h
  split_ifs at h with hsuffix hpos
  · cases h
    exact Or.inl ⟨rfl, Or.inl hsuffix⟩
  · cases h
    exact Or.inl ⟨rfl, Or.inr (Or.inl hpos)⟩
  · cases hget : b.getTotalSupply coin.denom with
    | none =>
      rw [hget] at h
      cases h
      exact Or.inl ⟨rfl, Or.inr (Or.inr rfl)⟩
    | some total =>
      simp only [hget] at h
      have hamount : 0 < coin.amount := by simpa [Coin.isPositive] using hpos
      cases hsub : total.sub coin with
      | error e =>
        -- a panic is not ignored
        have hpanic := (subCoin_isPanic total coin).of_error hsub
        rw [hsub, error_bind] at h
        cases e with
        | panic p => cases h
        | error e => exact hpanic.elim
      | ok rest =>
        obtain ⟨hdenom, rfl⟩ := eq_of_sub_ok hsub
        rw [hsub, ok_bind] at h
        by_cases hneg : 0 ≤ total.amount - coin.amount
        · simp only [assert, hneg, decide_true, if_true, ok_bind, pure_ok] at h
          cases h
          refine Or.inr ⟨total, rfl, hdenom, hamount, ?_⟩
          rw [hdenom]
        · simp only [assert, hneg, decide_false, Bool.false_eq_true, if_false] at h
          cases h

lemma getTotalSupply_burnOne (hiris : d ≠ irisAtto)
    (hsuffix : hasSuffix d minDenomSuffix = true) (hnn : 0 ≤ coin.amount)
    (hapart : KeyApart d [coin]) (hrec : b.getTotalSupply d = some ⟨d, y⟩)
    (h : (if coin.denom = irisAtto then b.decreaseTotalLoosenToken [coin]
      else b.ignoreError (b.decreaseTotalSupply coin)) = .ok b') :
    b'.getTotalSupply d = some ⟨d, y - coin.amountIn d⟩ := by
  have hsame : coin.amountIn d = 0 → b'.totalSupply = b.totalSupply →
      b'.getTotalSupply d = some ⟨d, y - coin.amountIn d⟩ := by
    intro hzero htotal
    rw [hzero, sub_zero, getTotalSupply, htotal]
    exact hrec
  split_ifs at h with hcoin
  · refine hsame (amountIn_of_ne ?_) (decreaseTotalLoosenToken_totalSupply h)
    rw [hcoin]
    exact hiris.symm
  · rcases decreaseTotalSupply_cases h with ⟨rfl, hskip⟩ | ⟨total, htotal, hdenom, hpos, rfl⟩
    · refine hsame ?_ rfl
      rcases hskip with hno | hzero | hnone
      · refine amountIn_of_ne (fun heq => ?_)
        rw [heq, hsuffix] at hno
        cases hno
      · refine amountIn_of_zero ?_ d
        simp only [Coin.isPositive, decide_eq_false_iff_not, not_lt] at hzero
        omega
      · refine amountIn_of_ne (fun heq => ?_)
        rw [heq, hrec] at hnone
        cases hnone
    · by_cases heq : coin.denom = d
      · rw [heq, hrec, Option.some.injEq] at htotal
        rw [getTotalSupply, setTotalSupply, heq, ← htotal, get_set_self, Coin.amountIn, if_pos heq]
      · have hkey : totalSupplyStoreKey d ≠ totalSupplyStoreKey coin.denom := fun hkey =>
          heq (hapart coin (by simp) hpos hcoin hkey.symm)
        rw [amountIn_of_ne heq, sub_zero, getTotalSupply, setTotalSupply, get_set_ne _ _ hkey]
        exact hrec

lemma getTotalSupply_burnArrived (hiris : d ≠ irisAtto)
    (hsuffix : hasSuffix d minDenomSuffix = true) (hnn : ∀ c ∈ amt, 0 ≤ c.amount)
    (hapart : KeyApart d amt) (hrec : b.getTotalSupply d = some ⟨d, y⟩)
    (h : b.burnArrived amt = .ok b') :
    b'.getTotalSupply d = some ⟨d, y - Coins.denomSum d amt⟩ := by
  unfold burnArrived at h
  induction amt generalizing b y with
  | nil =>
    cases h
    rw [Coins.denomSum_nil, sub_zero]
    exact hrec
  | cons coin amt ih =>
    rw [foldlM_cons] at h
    obtain ⟨b1, h1, h⟩ := bind_ok.mp h
    obtain ⟨hcoin, hrest⟩ := forall_mem_cons.mp hnn
    have hone : KeyApart d [coin] := fun c hc =>
      hapart c (by rw [mem_singleton.mp hc]; exact mem_cons_self)
    have hstep := getTotalSupply_burnOne hiris hsuffix hcoin hone hrec h1
    rw [ih hrest (fun c hc => hapart c (mem_cons_of_mem _ hc)) hstep h,
      Coins.denomSum_cons, sub_sub]

lemma Recorded.addCoins (h : b.Recorded d x) (hiris : d ≠ irisAtto)
    (hsuffix : hasSuffix d minDenomSuffix = true)
    (hburn : addr = burnedCoinsAccAddr → amt.Steady ∧ KeyApart d amt)
    (hadd : b.addCoins addr amt = .ok b') : b'.Recorded d (x - Coins.denomSum d amt) := by
  have hcirc := circulating_addCoins hadd d
  have hvalid := isValid_of_addCoins hadd
  obtain ⟨hs, newCoins, hnew, hb'⟩ := addCoins_cases hadd
  rcases hb' with ⟨haddr, hb'⟩ | ⟨haddr, rfl⟩
  · obtain ⟨hsteady, hapart⟩ := hburn haddr
    rw [hsteady] at hb'
    rw [if_pos haddr, add_zero] at hcirc
    have hset : (b.setCoins addr newCoins).getTotalSupply d = some ⟨d, b.circulating d + x⟩ := h
    have hrec := getTotalSupply_burnArrived hiris hsuffix
      (fun c hc => (denomSum_of_isValid hvalid hc).2) hapart hset hb'
    rw [Recorded, hrec, hcirc, add_sub_assoc]
  · have hsupply : (b.setCoins addr newCoins).getTotalSupply d = b.getTotalSupply d := rfl
    refine h.of_eq hsupply ?_
    rw [hcirc, if_neg haddr]
    ring

end

/-- Only iris coins may be zero, no account has only such a coin, and the records are within the
range of an `sdk.Int`. -/
structure Fits (b : Bank) : Prop where
  filled : ∀ a, (b.getCoins a).coins ≠ [] → ∃ c ∈ (b.getCoins a).coins, c.amount ≠ 0
  nonzero : ∀ a, ∀ c ∈ (b.getCoins a).coins, c.denom ≠ irisAtto → c.amount ≠ 0
  bounded : ∀ k c, b.totalSupply.get k = some c → c.amount < 2 ^ 255

lemma nonzero_merge {s r : StoredCoins} {cs : Coins} {hcs : cs.Sorted} {f : Fault}
    (h : s.merge cs hcs f = .ok r) : ∀ c ∈ r.coins, c.amount ≠ 0 := by
  unfold StoredCoins.merge at h
  split at h
  · simp at h
  · rename_i r' hr
    split_ifs at h
    cases h
    exact Coins.nonzero_safeAdd hr

lemma Fits.of_setCoins (h : b.Fits) {cs : StoredCoins} (hcs : ∀ c ∈ cs.coins, c.amount ≠ 0)
    (haccounts : b'.accounts = (b.setCoins addr cs).accounts) (hsupply : b.SupplyLE b') :
    b'.Fits := by
  have hget : ∀ a, b'.getCoins a = if a = addr then cs else b.getCoins a := by
    intro a
    rw [← getCoins_setCoins, getCoins, haccounts]
    rfl
  refine ⟨fun a hne => ?_, fun a c hc hiris => ?_, fun k c hc => ?_⟩
  · rw [hget] at hne ⊢
    split_ifs at hne ⊢
    · obtain ⟨c, hc⟩ := exists_mem_of_ne_nil _ hne
      exact ⟨c, hc, hcs c hc⟩
    · exact h.filled a hne
  · rw [hget] at hc
    split_ifs at hc
    · exact hcs c hc
    · exact h.nonzero a c hc hiris
  · obtain ⟨c0, hc0, hle⟩ := hsupply k c hc
    exact lt_of_le_of_lt hle (h.bounded k c0 hc0)

lemma Fits.subtractCoins (h : b.Fits) (hsub : b.subtractCoins addr amt = .ok b') : b'.Fits := by
  have hsupply := subtractCoins_supplyLE hsub
  unfold Bank.subtractCoins at hsub
  split_ifs at hsub
  · obtain ⟨newCoins, hnew, hr⟩ := bind_ok.mp hsub
    cases hr
    exact h.of_setCoins (nonzero_merge hnew) rfl hsupply
  · simp at hsub

lemma Fits.addCoins (h : b.Fits) (hadd : b.addCoins addr amt = .ok b') : b'.Fits := by
  obtain ⟨hs, newCoins, hnew, hb'⟩ := addCoins_cases hadd
  have haccounts : b'.accounts = (b.setCoins addr newCoins).accounts := by
    rcases hb' with ⟨_, hb'⟩ | ⟨_, rfl⟩
    · exact burnArrived_accounts hb'
    · rfl
  exact h.of_setCoins (nonzero_merge hnew) haccounts (addCoins_supplyLE hadd)

lemma Fits.sendCoins (h : b.Fits) (hsend : b.sendCoins fromAddr toAddr amt = .ok b') : b'.Fits := by
  obtain ⟨b1, h1, h2⟩ := bind_ok.mp hsend
  exact (h.subtractCoins h1).addCoins h2

lemma Fits.setTotalSupply (h : b.Fits) {c : Coin} (hc : SdkInt.InRange c.amount) :
    (b.setTotalSupply c).Fits := by
  refine ⟨h.filled, h.nonzero, fun k c' hc' => ?_⟩
  rw [Bank.setTotalSupply, get_set] at hc'
  split_ifs at hc'
  · cases hc'
    exact (SdkInt.inRange_iff.mp hc).2
  · exact h.bounded k c' hc'

lemma Fits.increaseTotalSupply (h : b.Fits) {coin : Coin}
    (hincrease : b.increaseTotalSupply coin = .ok b') : b'.Fits := by
  unfold Bank.increaseTotalSupply at hincrease
  split_ifs at hincrease
  · simp at hincrease
  · cases hincrease
    exact h
  · split at hincrease
    · simp at hincrease
    · obtain ⟨sum, hsum, hr⟩ := bind_ok.mp hincrease
      cases hr
      exact h.setTotalSupply (eq_of_add_ok hsum).2.2

section
variable {V : String → Prop}

/-- Record of `d` is not shared with another denomination that is held. -/
structure Tracked (V : String → Prop) (b : Bank) (d : String) : Prop where
  ne_iris : d ≠ irisAtto
  suffix : hasSuffix d minDenomSuffix = true
  voucher : ∀ u, V u → totalSupplyStoreKey u ≠ totalSupplyStoreKey d
  apart : ∀ d', 0 < b.sumOf d' → ¬V d' → d' ≠ irisAtto →
    totalSupplyStoreKey d' = totalSupplyStoreKey d → d' = d

/-- Totals other than of vouchers and the records that are tracked are as before. -/
structure Keeps (V : String → Prop) (b b' : Bank) : Prop where
  sum : ∀ d, ¬V d → b'.sumOf d = b.sumOf d
  recorded : ∀ d x, b.Tracked V d → b.Recorded d x → b'.Recorded d x
  fits : b.Fits → b'.Fits

lemma Keeps.refl (b : Bank) : Keeps V b b := ⟨fun _ _ => rfl, fun _ _ _ h => h, id⟩

lemma Keeps.tracked (h : Keeps V b b') (hd : b.Tracked V d) : b'.Tracked V d where
  ne_iris := hd.ne_iris
  suffix := hd.suffix
  voucher := hd.voucher
  apart d' hpos hV := hd.apart d' (by rw [← h.sum d' hV]; exact hpos) hV

lemma Keeps.trans (h : Keeps V b b') (h' : Keeps V b' b'') : Keeps V b b'' where
  sum d hV := (h'.sum d hV).trans (h.sum d hV)
  recorded d x hd hrec := h'.recorded d x (h.tracked hd) (h.recorded d x hd hrec)
  fits hb := h'.fits (h.fits hb)

lemma Tracked.keyApart (hd : b.Tracked V d)
    (hheld : ∀ c ∈ amt, 0 < c.amount → 0 < b.sumOf c.denom) : KeyApart d amt := by
  intro c hc hpos hiris hkey
  by_cases hV : V c.denom
  · exact absurd hkey (hd.voucher c.denom hV)
  · exact hd.apart c.denom (hheld c hc hpos) hV hiris hkey

lemma sumOf_pos_of_subtractCoins (h : b.subtractCoins addr amt = .ok b') {c : Coin}
    (hc : c ∈ amt) (hpos : 0 < c.amount) : 0 < b.sumOf c.denom := by
  have hsum := sumOf_subtractCoins h c.denom
  have hnn : 0 ≤ b'.sumOf c.denom :=
    (b'.balance_nonneg addr c.denom).trans (balance_le_sumOf b' addr _)
  rw [(denomSum_of_isValid (isValid_of_subtractCoins h) hc).1] at hsum
  omega

/-- A transfer that reaches the burning address only with coins the addition does not edit. -/
lemma keeps_sendCoins (hfrom : fromAddr ≠ burnedCoinsAccAddr)
    (hsteady : toAddr = burnedCoinsAccAddr → amt.Steady)
    (h : b.sendCoins fromAddr toAddr amt = .ok b') : Keeps V b b' where
  sum d _ := sumOf_sendCoins h d
  recorded d x hd hrec := by
    obtain ⟨b1, h1, h2⟩ := bind_ok.mp h
    have hapart : KeyApart d amt :=
      hd.keyApart (fun c hc hpos => sumOf_pos_of_subtractCoins h1 hc hpos)
    have hrec' := (hrec.subtractCoins hfrom h1).addCoins hd.ne_iris hd.suffix
      (fun haddr => ⟨hsteady haddr, hapart⟩) h2
    rw [add_sub_cancel_right] at hrec'
    exact hrec'
  fits hb := hb.sendCoins h

lemma keeps_addCoins (haddr : addr ≠ burnedCoinsAccAddr)
    (hamt : ∀ d, ¬V d → Coins.denomSum d amt = 0) (h : b.addCoins addr amt = .ok b') :
    Keeps V b b' where
  sum d hV := by rw [sumOf_addCoins h d, hamt d hV, add_zero]
  recorded d x hd hrec := by
    have hV : ¬V d := fun hV => hd.voucher d hV rfl
    have hrec' := hrec.addCoins hd.ne_iris hd.suffix (fun heq => absurd heq haddr) h
    rw [hamt d hV, sub_zero] at hrec'
    exact hrec'
  fits hb := hb.addCoins h

lemma keeps_subtractCoins (haddr : addr ≠ burnedCoinsAccAddr)
    (hamt : ∀ d, ¬V d → Coins.denomSum d amt = 0) (h : b.subtractCoins addr amt = .ok b') :
    Keeps V b b' where
  sum d hV := by rw [sumOf_subtractCoins h d, hamt d hV, sub_zero]
  recorded d x hd hrec := by
    have hV : ¬V d := fun hV => hd.voucher d hV rfl
    have hrec' := hrec.subtractCoins haddr h
    rw [hamt d hV, add_zero] at hrec'
    exact hrec'
  fits hb := hb.subtractCoins h

end

section
variable {V : String → Prop}

lemma Recorded.subtractAll {xs : List Input} (h : b.Recorded d x)
    (hsigned : ∀ y ∈ xs, y.address ≠ burnedCoinsAccAddr)
    (hrun : xs.foldlM (fun b y => b.subtractCoins y.address y.coins) b = .ok b') :
    b'.Recorded d (x + totalOf d xs) := by
  induction xs generalizing b x with
  | nil =>
    cases hrun
    rw [totalOf, map_nil, sum_nil, add_zero]
    exact h
  | cons y xs ih =>
    obtain ⟨hy, hrest⟩ := forall_mem_cons.mp hsigned
    rw [foldlM_cons] at hrun
    obtain ⟨b1, h1, hrun⟩ := bind_ok.mp hrun
    have hrec := ih (h.subtractCoins hy h1) hrest hrun
    rw [totalOf, map_cons, sum_cons, ← add_assoc]
    exact hrec

lemma Recorded.addAll {xs : List Output} (h : b.Recorded d x) (hiris : d ≠ irisAtto)
    (hsuffix : hasSuffix d minDenomSuffix = true)
    (hburn : ∀ y ∈ xs, y.address = burnedCoinsAccAddr → y.coins.Steady ∧ KeyApart d y.coins)
    (hrun : xs.foldlM (fun b y => b.addCoins y.address y.coins) b = .ok b') :
    b'.Recorded d (x - totalOf d xs) := by
  induction xs generalizing b x with
  | nil =>
    cases hrun
    rw [totalOf, map_nil, sum_nil, sub_zero]
    exact h
  | cons y xs ih =>
    obtain ⟨hy, hrest⟩ := forall_mem_cons.mp hburn
    rw [foldlM_cons] at hrun
    obtain ⟨b1, h1, hrun⟩ := bind_ok.mp hrun
    have hrec := ih (h.addCoins hiris hsuffix hy h1) hrest hrun
    rw [totalOf, map_cons, sum_cons, ← sub_sub]
    exact hrec

lemma le_totalOf {xs : List InOut} (hvalid : ∀ y ∈ xs, y.coins.isValid = true) {y : InOut}
    (hy : y ∈ xs) (d : String) : Coins.denomSum d y.coins ≤ totalOf d xs := by
  refine single_le_sum (fun z hz => ?_) _ (mem_map_of_mem hy)
  obtain ⟨y', hy', rfl⟩ := mem_map.mp hz
  exact Coins.denomSum_nonneg (fun c hc => (denomSum_of_isValid (hvalid y' hy') hc).2)

lemma keeps_deliverSend {msg : MsgSend} (hsigned : ∀ y ∈ msg.inputs, y.address ≠ burnedCoinsAccAddr)
    (hsteady : ∀ y ∈ msg.outputs, y.address = burnedCoinsAccAddr → y.coins.Steady)
    (h : b.deliverSend msg = .ok b') : Keeps V b b' where
  sum d _ := sumOf_deliverSend h d
  recorded d x hd hrec := by
    obtain ⟨hmoved, htotal⟩ := deliverSend_ok h
    obtain ⟨b1, h1, h2⟩ := bind_ok.mp hmoved
    have hvalid := isValid_of_foldlM (f := Bank.addCoins)
      (fun _ _ _ _ h => isValid_of_addCoins h) h2
    have hheld : ∀ y ∈ msg.outputs, ∀ c ∈ y.coins, 0 < c.amount → 0 < b.sumOf c.denom := by
      intro y hy c hc hpos
      have hle := le_totalOf hvalid hy c.denom
      have hsum := sumOf_subtractAll h1 c.denom
      have hnn : 0 ≤ b1.sumOf c.denom :=
        (b1.balance_nonneg 0 c.denom).trans (balance_le_sumOf b1 0 _)
      rw [(denomSum_of_isValid (hvalid y hy) hc).1, ← htotal c.denom] at hle
      omega
    have hrec' := (hrec.subtractAll hsigned h1).addAll hd.ne_iris hd.suffix
      (fun y hy haddr => ⟨hsteady y hy haddr, hd.keyApart (hheld y hy)⟩) h2
    rw [htotal d, add_sub_cancel_right] at hrec'
    exact hrec'
  fits hb := by
    obtain ⟨b1, h1, h2⟩ := bind_ok.mp (deliverSend_ok h).1
    exact invariant_of_foldlM (fun _ _ _ ht h => ht.addCoins h) h2
      (invariant_of_foldlM (fun _ _ _ ht h => ht.subtractCoins h) h1 hb)

lemma loosen_addAll {xs : List Output}
    (hsteady : ∀ y ∈ xs, y.address = burnedCoinsAccAddr → y.coins.Steady)
    (hrun : xs.foldlM (fun b y => b.addCoins y.address y.coins) b = .ok b') :
    b'.loosen = b.loosen - amountAt burnedCoinsAccAddr irisAtto xs := by
  induction xs generalizing b with
  | nil =>
    cases hrun
    simp [amountAt]
  | cons y xs ih =>
    obtain ⟨hy, hrest⟩ := forall_mem_cons.mp hsteady
    rw [foldlM_cons] at hrun
    obtain ⟨b1, h1, hrun⟩ := bind_ok.mp hrun
    rw [ih hrest hrun, loosen_addCoins hy h1, amountAt, amountAt, map_cons, sum_cons]
    simp only [eq_comm (a := burnedCoinsAccAddr)]
    ring

lemma subtractAll_totalLoosenToken {xs : List Input}
    (hrun : xs.foldlM (fun b y => b.subtractCoins y.address y.coins) b = .ok b') :
    b'.totalLoosenToken = b.totalLoosenToken :=
  invariant_of_foldlM (I := fun t => t.totalLoosenToken = b.totalLoosenToken)
    (fun _ _ _ ht h => (subtractCoins_totalLoosenToken h).trans ht) hrun rfl

lemma loosen_deliverSend {msg : MsgSend}
    (hsigned : ∀ y ∈ msg.inputs, y.address ≠ burnedCoinsAccAddr)
    (hsteady : ∀ y ∈ msg.outputs, y.address = burnedCoinsAccAddr → y.coins.Steady)
    (h : b.deliverSend msg = .ok b') : b'.loosen = b.loosen -
      (b'.balance burnedCoinsAccAddr irisAtto - b.balance burnedCoinsAccAddr irisAtto) := by
  obtain ⟨hmoved, _⟩ := deliverSend_ok h
  have hbal := balance_inputOutputCoins hmoved burnedCoinsAccAddr irisAtto
  rw [amountAt_eq_zero hsigned] at hbal
  obtain ⟨b1, h1, h2⟩ := bind_ok.mp hmoved
  have hloosen : b1.loosen = b.loosen := by rw [loosen, loosen, subtractAll_totalLoosenToken h1]
  rw [loosen_addAll hsteady h2, hloosen]
  omega

lemma loosen_deliverBurn {msg : MsgBurn} (hsigned : msg.owner ≠ burnedCoinsAccAddr)
    (hsteady : msg.coins.Steady) (h : b.deliverBurn msg = .ok b') : b'.loosen = b.loosen -
      (b'.balance burnedCoinsAccAddr irisAtto - b.balance burnedCoinsAccAddr irisAtto) := by
  obtain ⟨_, _, hsend⟩ := bind_ok.mp h
  have hbal := balance_sendCoins hsend burnedCoinsAccAddr irisAtto
  rw [if_neg hsigned.symm, if_pos rfl] at hbal
  obtain ⟨b1, h1, h2⟩ := bind_ok.mp hsend
  have hloosen : b1.loosen = b.loosen := by rw [loosen, loosen, subtractCoins_totalLoosenToken h1]
  rw [loosen_addCoins (fun _ => hsteady) h2, if_pos rfl, hloosen]
  omega

end
end Bank
end Irishub
