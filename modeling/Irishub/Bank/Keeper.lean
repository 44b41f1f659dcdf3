import Irishub.Lib.Store
import Irishub.Types.Coin

/-!
# The bank

Accounts, the total of loose iris tokens and the total supplies of the other
tokens (`bank/keeper.go`, `auth/keeper.go`). Of an account only its coins are
kept here; account numbers, sequences and keys are not read by these functions.
-/

namespace Irishub
open Lib

abbrev Address := ℕ

/-- `auth.BurnedCoinsAccAddr`, the truncated SHA-256 hash of its name. -/
def burnedCoinsAccAddr : Address := 0x79faf5c1ef3a437e0d2bdc192a05403fd603832d

/-- `auth.CommunityTaxCoinsAccAddr`, the truncated SHA-256 hash of its name. -/
def communityTaxCoinsAccAddr : Address := 0x38d6e2bee615650411b8e43b61680aad257a16c9

/-- Coins as accounts hold them. -/
structure StoredCoins where
  coins : Coins
  sorted : coins.Sorted
  nonneg : ∀ c ∈ coins, 0 ≤ c.amount

namespace StoredCoins
variable {cs : Coins} {s r : StoredCoins} {f : Fault} {hcs : cs.Sorted}

instance : DecidableEq StoredCoins := fun s t =>
  decidable_of_iff (s.coins = t.coins) (by cases s; cases t; simp)

def empty : StoredCoins := ⟨[], List.Pairwise.nil, by simp⟩

instance : Inhabited StoredCoins := ⟨empty⟩

/-- Amount of `d`. -/
def amountOf (s : StoredCoins) (d : String) : ℤ := Coins.amountOf s.coins d

lemma amountOf_eq (s : StoredCoins) (d : String) : s.amountOf d = Coins.denomSum d s.coins :=
  Coins.amountOf_eq_denomSum s.sorted

lemma amountOf_nonneg (s : StoredCoins) (d : String) : 0 ≤ s.amountOf d := by
  rw [amountOf_eq]
  exact Coins.denomSum_nonneg s.nonneg

@[simp] lemma amountOf_empty (d : String) : empty.amountOf d = 0 := rfl

lemma nonneg_of_isAnyNegative (h : Coins.isAnyNegative cs = false) : ∀ c ∈ cs, 0 ≤ c.amount := by
  intro c hc
  simp only [Coins.isAnyNegative, List.any_eq_false, decide_eq_true_eq, not_lt] at h
  exact h c hc

/-- Merge of stored and valid coins, with the fault `f` if an amount becomes negative. -/
def merge (s : StoredCoins) (cs : Coins) (hcs : cs.Sorted) (f : Fault) : Outcome StoredCoins :=
  match h : Coins.safeAdd s.coins cs with
  | .error e => .error e
  | .ok r =>
    if hneg : Coins.isAnyNegative r = false then
      .ok ⟨r, s.sorted.safeAdd hcs h, nonneg_of_isAnyNegative hneg⟩
    else .error f

/-- `Coins.Add` on stored coins. -/
def add (s : StoredCoins) (cs : Coins) (hcs : cs.Sorted) : Outcome StoredCoins :=
  merge s cs hcs (.panic .negativeCoinAmount)

/-- `Coins.SafeSub` on stored coins, with the fault raised when it reports a negative amount. -/
def sub (s : StoredCoins) (cs : Coins) (hcs : cs.Sorted) (f : Fault) : Outcome StoredCoins :=
  merge s (Coins.negative cs) hcs.negative f

lemma amountOf_merge (h : merge s cs hcs f = .ok r) (d : String) :
    r.amountOf d = s.amountOf d + Coins.denomSum d cs := by
  unfold merge at h
  split at h
  · simp at h
  · rename_i r' hr
    split_ifs at h with hneg
    · cases h
      rw [amountOf_eq, amountOf_eq]
      exact Coins.denomSum_safeAdd d hr

lemma amountOf_add (h : s.add cs hcs = .ok r) (d : String) :
    r.amountOf d = s.amountOf d + Coins.denomSum d cs :=
  amountOf_merge h d

lemma amountOf_sub (h : s.sub cs hcs f = .ok r) (d : String) :
    r.amountOf d = s.amountOf d - Coins.denomSum d cs := by
  rw [amountOf_merge h d, Coins.denomSum_negative]
  ring

end StoredCoins

/-- Account store. -/
structure Bank where
  accounts : Store Address StoredCoins
  totalLoosenToken : StoredCoins
  totalSupply : Store String Coin
  deriving DecidableEq

namespace Bank

def getCoins (b : Bank) (addr : Address) : StoredCoins := (b.accounts.get addr).getD .empty

def setCoins (b : Bank) (addr : Address) (cs : StoredCoins) : Bank :=
  { b with accounts := b.accounts.set addr cs }

def increaseTotalLoosenToken (b : Bank) (cs : Coins) : Outcome Bank :=
  if cs = [] then .ok b
  else
    match Coins.getCoin cs irisAtto with
    | none => raise .invalidCoins
    | some deltaCoin =>
      if deltaCoin.isPositive = false then .ok b
      else do
        let total ← b.totalLoosenToken.add [deltaCoin] (Coins.sorted_singleton deltaCoin)
        return { b with totalLoosenToken := total }

def decreaseTotalLoosenToken (b : Bank) (cs : Coins) : Outcome Bank :=
  if cs = [] then .ok b
  else
    match Coins.getCoin cs irisAtto with
    | none => raise .invalidCoins
    | some deltaCoin =>
      if deltaCoin.isPositive = false then .ok b
      else do
        let total ← b.totalLoosenToken.sub [deltaCoin] (Coins.sorted_singleton deltaCoin)
          (.panic .totalLooseTokenNegative)
        return { b with totalLoosenToken := total }

def getTotalSupply (b : Bank) (denom : String) : Option Coin :=
  b.totalSupply.get (totalSupplyStoreKey denom)

def setTotalSupply (b : Bank) (totalSupply : Coin) : Bank :=
  { b with totalSupply := b.totalSupply.set (totalSupplyStoreKey totalSupply.denom) totalSupply }

def increaseTotalSupply (b : Bank) (coin : Coin) : Outcome Bank :=
  if hasSuffix coin.denom minDenomSuffix = false then fail .errInvalidCoins
  else if coin.isPositive = false then .ok b
  else
    match b.getTotalSupply coin.denom with
    | none => fail .errInvalidCoins
    | some totalSupply => do
      let totalSupply ← totalSupply.add coin
      return b.setTotalSupply totalSupply

def decreaseTotalSupply (b : Bank) (coin : Coin) : Outcome Bank :=
  if hasSuffix coin.denom minDenomSuffix = false then fail .errInvalidCoins
  else if coin.isPositive = false then .ok b
  else
    match b.getTotalSupply coin.denom with
    | none => fail .errInvalidCoins
    | some totalSupply => do
      let totalSupply ← totalSupply.sub coin
      assert (0 ≤ totalSupply.amount) .totalSupplyNegative
      return b.setTotalSupply totalSupply

def ignoreError (b : Bank) : Outcome Bank → Outcome Bank
  | .error (.error _) => .ok b
  | r => r

/-- Loop of `addCoins` over coins that arrive at the burning address. -/
def burnArrived (b : Bank) (amt : Coins) : Outcome Bank :=
  amt.foldlM (fun b coin =>
    if coin.denom = irisAtto then b.decreaseTotalLoosenToken [coin]
    else b.ignoreError (b.decreaseTotalSupply coin)) b

/-- `addCoins`. The loop over `amt` reads the array of `amt` after the addition. -/
def addCoins (b : Bank) (addr : Address) (amt : Coins) : Outcome Bank :=
  if h : amt.isValid = true then do
    let oldCoins := b.getCoins addr
    let newCoins ← oldCoins.add amt (Coins.sorted_of_isValid h).1
    let b := b.setCoins addr newCoins
    if addr = burnedCoinsAccAddr then b.burnArrived (Coins.afterSafeAdd oldCoins.coins amt)
    else .ok b
  else raise .invalidCoins

def subtractCoins (b : Bank) (addr : Address) (amt : Coins) : Outcome Bank :=
  if h : amt.isValid = true then do
    let newCoins ← (b.getCoins addr).sub amt (Coins.sorted_of_isValid h).1
      (.error .errInsufficientCoins)
    return b.setCoins addr newCoins
  else raise .invalidCoins

def sendCoins (b : Bank) (fromAddr toAddr : Address) (amt : Coins) : Outcome Bank := do
  let b ← b.subtractCoins fromAddr amt
  b.addCoins toAddr amt

def burnCoins (b : Bank) (fromAddr : Address) (amt : Coins) : Outcome Bank :=
  b.sendCoins fromAddr burnedCoinsAccAddr amt

/-- Amount of `d` held by `a`. -/
def balance (b : Bank) (a : Address) (d : String) : ℤ := (b.getCoins a).amountOf d

section
variable {b b' : Bank} {cs amt : Coins} {coin : Coin} {addr : Address}

lemma balance_nonneg (b : Bank) (a : Address) (d : String) : 0 ≤ b.balance a d :=
  StoredCoins.amountOf_nonneg _ _

lemma getCoins_setCoins (addr a : Address) (cs : StoredCoins) :
    (b.setCoins addr cs).getCoins a = if a = addr then cs else b.getCoins a := by
  unfold getCoins setCoins
  rw [Store.get_set]
  split_ifs <;> rfl

lemma decreaseTotalLoosenToken_ok (h : b.decreaseTotalLoosenToken cs = .ok b') :
    ∃ total, b' = { b with totalLoosenToken := total } := by
  unfold decreaseTotalLoosenToken at h
  split_ifs at h with hnil
  · cases h
    exact ⟨_, rfl⟩
  · split at h
    · simp at h
    · split_ifs at h with hpos
      · cases h
        exact ⟨_, rfl⟩
      · obtain ⟨total, _, hr⟩ := bind_ok.mp h
        cases hr
        exact ⟨total, rfl⟩

lemma decreaseTotalSupply_ok (h : b.decreaseTotalSupply coin = .ok b') :
    ∃ supply, b' = { b with totalSupply := supply } := by
  unfold decreaseTotalSupply at h
  split_ifs at h with hsuf hpos
  · simp at h
  · cases h
    exact ⟨_, rfl⟩
  · split at h
    · simp at h
    · obtain ⟨total, _, h⟩ := bind_ok.mp h
      obtain ⟨_, _, h⟩ := bind_ok.mp h
      cases h
      exact ⟨_, rfl⟩

lemma subtractCoins_eq_ok (h : b.subtractCoins addr amt = .ok b') :
    ∃ hs newCoins, (b.getCoins addr).sub amt hs (.error .errInsufficientCoins) = .ok newCoins ∧
      b' = b.setCoins addr newCoins := by
  unfold subtractCoins at h
  split_ifs at h with hv
  · obtain ⟨newCoins, hnew, h⟩ := bind_ok.mp h
    cases h
    exact ⟨_, newCoins, hnew, rfl⟩
  · simp at h

lemma decreaseTotalLoosenToken_accounts
    (h : b.decreaseTotalLoosenToken cs = .ok b') : b'.accounts = b.accounts := by
  obtain ⟨_, rfl⟩ := decreaseTotalLoosenToken_ok h
  rfl

lemma increaseTotalLoosenToken_accounts
    (h : b.increaseTotalLoosenToken cs = .ok b') : b'.accounts = b.accounts := by
  unfold increaseTotalLoosenToken at h
  split_ifs at h with hnil
  · cases h
    rfl
  · split at h
    · simp at h
    · split_ifs at h with hpos
      · cases h
        rfl
      · obtain ⟨total, _, hr⟩ := bind_ok.mp h
        cases hr
        rfl

lemma decreaseTotalSupply_accounts
    (h : b.decreaseTotalSupply coin = .ok b') : b'.accounts = b.accounts := by
  obtain ⟨_, rfl⟩ := decreaseTotalSupply_ok h
  rfl

lemma ignoreError_accounts {r : Outcome Bank} (h : b.ignoreError r = .ok b')
    (hr : ∀ b'', r = .ok b'' → b''.accounts = b.accounts) : b'.accounts = b.accounts := by
  unfold ignoreError at h
  split at h
  · cases h
    rfl
  · exact hr b' h

lemma burnArrived_accounts (h : b.burnArrived amt = .ok b') : b'.accounts = b.accounts := by
  have hloop : Sat AnyFault (fun s => s.accounts = b.accounts) (b.burnArrived amt) := by
    refine Sat.foldlM amt b rfl (fun coin _ s hs => Sat.of_forall (fun s' hs' => ?_))
    split_ifs at hs' with hiris
    · rw [decreaseTotalLoosenToken_accounts hs', hs]
    · rw [ignoreError_accounts hs' (fun _ hr => decreaseTotalSupply_accounts hr), hs]
  exact hloop.of_ok h

lemma balance_addCoins (h : b.addCoins addr amt = .ok b') (a : Address) (d : String) :
    b'.balance a d = b.balance a d + if a = addr then Coins.denomSum d amt else 0 := by
  unfold addCoins at h
  by_cases hv : amt.isValid = true
  · rw [dif_pos hv] at h
    obtain ⟨newCoins, hnew, h⟩ := bind_ok.mp h
    have hacc : b'.accounts = (b.setCoins addr newCoins).accounts := by
      simp only at h
      split_ifs at h with hburn
      · exact burnArrived_accounts h
      · cases h
        rfl
    have hget : b'.getCoins a = (b.setCoins addr newCoins).getCoins a := by
      unfold getCoins
      rw [hacc]
    unfold balance
    rw [hget, getCoins_setCoins]
    split_ifs with ha
    · subst ha
      exact StoredCoins.amountOf_add hnew d
    · ring
  · rw [dif_neg hv] at h
    simp at h

lemma balance_subtractCoins (h : b.subtractCoins addr amt = .ok b') (a : Address) (d : String) :
    b'.balance a d = b.balance a d - if a = addr then Coins.denomSum d amt else 0 := by
  obtain ⟨_, newCoins, hnew, rfl⟩ := subtractCoins_eq_ok h
  unfold balance
  rw [getCoins_setCoins]
  split_ifs with ha
  · subst ha
    exact StoredCoins.amountOf_sub hnew d
  · ring

lemma balance_sendCoins {fromAddr toAddr : Address}
    (h : b.sendCoins fromAddr toAddr amt = .ok b') (a : Address) (d : String) :
    b'.balance a d = b.balance a d - (if a = fromAddr then Coins.denomSum d amt else 0) +
      if a = toAddr then Coins.denomSum d amt else 0 := by
  obtain ⟨b1, h1, h2⟩ := bind_ok.mp h
  rw [balance_addCoins h2, balance_subtractCoins h1]

end

section

def SupplyLE (b b' : Bank) : Prop :=
  ∀ k c', b'.totalSupply.get k = some c' → ∃ c, b.totalSupply.get k = some c ∧ c'.amount ≤ c.amount

variable {b b' b'' : Bank} {amt : Coins} {addr : Address}

lemma SupplyLE.refl (b : Bank) : SupplyLE b b := fun _ c' h => ⟨c', h, le_rfl⟩

lemma SupplyLE.trans (h1 : SupplyLE b b') (h2 : SupplyLE b' b'') : SupplyLE b b'' := by
  intro k c'' h
  obtain ⟨c', h', hle'⟩ := h2 k c'' h
  obtain ⟨c, h, hle⟩ := h1 k c' h'
  exact ⟨c, h, hle'.trans hle⟩

lemma SupplyLE.of_eq (h : b'.totalSupply = b.totalSupply) : SupplyLE b b' := by
  intro k c' hc'
  rw [h] at hc'
  exact ⟨c', hc', le_rfl⟩

lemma decreaseTotalLoosenToken_totalSupply {cs : Coins}
    (h : b.decreaseTotalLoosenToken cs = .ok b') : b'.totalSupply = b.totalSupply := by
  obtain ⟨_, rfl⟩ := decreaseTotalLoosenToken_ok h
  rfl

lemma decreaseTotalSupply_supplyLE {coin : Coin} (h : b.decreaseTotalSupply coin = .ok b') :
    SupplyLE b b' := by
  unfold decreaseTotalSupply at h
  split_ifs at h with hsuf hpos
  · simp at h
  · cases h
    exact .refl b
  · split at h
    · simp at h
    · rename_i total htotal
      obtain ⟨rest, hrest, h⟩ := bind_ok.mp h
      obtain ⟨_, _, h⟩ := bind_ok.mp h
      simp only [pure_eq_ok] at h
      obtain ⟨hdenom, rfl⟩ := Coin.eq_of_sub_ok hrest
      subst h
      have hamount : 0 < coin.amount := by simpa [Coin.isPositive] using hpos
      intro k c' hc'
      simp only [setTotalSupply, Store.get_set] at hc'
      split_ifs at hc' with hk
      · simp only [Option.some.injEq] at hc'
        subst hc' hk
        refine ⟨total, ?_, by simp only; linarith⟩
        rw [hdenom]
        exact htotal
      · exact ⟨c', hc', le_rfl⟩

lemma burnArrived_supplyLE (h : b.burnArrived amt = .ok b') : SupplyLE b b' := by
  have hloop : Sat AnyFault (fun s => SupplyLE b s) (b.burnArrived amt) := by
    refine Sat.foldlM amt b (.refl b) (fun coin _ s hs => Sat.of_forall (fun s' hs' => ?_))
    refine hs.trans ?_
    split_ifs at hs' with hiris
    · exact .of_eq (decreaseTotalLoosenToken_totalSupply hs')
    · unfold ignoreError at hs'
      split at hs'
      · simp only [Except.ok.injEq] at hs'
        rw [← hs']
        exact .refl s
      · exact decreaseTotalSupply_supplyLE hs'
  exact hloop.of_ok h

lemma addCoins_supplyLE (h : b.addCoins addr amt = .ok b') : SupplyLE b b' := by
  unfold addCoins at h
  by_cases hv : amt.isValid = true
  · rw [dif_pos hv] at h
    obtain ⟨newCoins, _, h⟩ := bind_ok.mp h
    have hset : SupplyLE b (b.setCoins addr newCoins) := .of_eq rfl
    simp only at h
    split_ifs at h with hburn
    · exact hset.trans (burnArrived_supplyLE h)
    · cases h
      exact hset
  · rw [dif_neg hv] at h
    simp at h

lemma subtractCoins_supplyLE (h : b.subtractCoins addr amt = .ok b') : SupplyLE b b' := by
  obtain ⟨_, _, _, rfl⟩ := subtractCoins_eq_ok h
  exact .of_eq rfl

lemma sendCoins_supplyLE {fromAddr toAddr : Address}
    (h : b.sendCoins fromAddr toAddr amt = .ok b') : SupplyLE b b' := by
  obtain ⟨b1, h1, h2⟩ := bind_ok.mp h
  exact (subtractCoins_supplyLE h1).trans (addCoins_supplyLE h2)

lemma increaseTotalSupply_eq {denom : String} {amount : ℤ} (hpos : 0 < amount)
    (h : b.increaseTotalSupply ⟨denom, amount⟩ = .ok b') :
    ∃ total, b.getTotalSupply denom = some total ∧
      b' = b.setTotalSupply ⟨denom, total.amount + amount⟩ := by
  unfold increaseTotalSupply at h
  split_ifs at h with hsuf hpos'
  · simp at h
  · simp [Coin.isPositive, hpos] at hpos'
  · split at h
    · simp at h
    · rename_i total htotal
      obtain ⟨sum, hsum, h⟩ := bind_ok.mp h
      simp only [pure_eq_ok] at h
      obtain ⟨hdenom, rfl, _⟩ := Coin.eq_of_add_ok hsum
      rw [hdenom] at h
      exact ⟨total, htotal, h.symm⟩

end
end Bank
end Irishub
