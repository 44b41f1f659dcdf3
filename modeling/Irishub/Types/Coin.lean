import Irishub.Types.Denom
import Irishub.Types.Int
import Mathlib.Algebra.Order.BigOperators.Group.List
import Mathlib.Data.List.Sort
import Mathlib.Tactic.Linarith

/-!
# Coins

`Coin` and `Coins` of `types/coin.go`. A set of coins is a list, and the
operations below are the ones the source runs on that list: the merge of
`safeAdd`, the binary search of `AmountOf`, the checks of `IsValid`.

`denomSum d cs` is the amount of `d` in `cs` counted over the whole list. The
merge adds these sums on any two lists; on a list with strictly increasing
denominations the binary search returns them. `StoredCoins` are the coins an
account can hold: strictly increasing denominations and no negative amount.
-/

namespace Irishub
open Lib List

structure Coin where
  denom : String
  amount : ℤ
  deriving DecidableEq

namespace Coin
variable {c r : Coin}

def isValid (c : Coin) : Bool := 0 ≤ c.amount && isCoinMinDenomValid c.denom

def isPositive (c : Coin) : Bool := 0 < c.amount

def isValidIrisAtto (c : Coin) : Bool := c.denom == irisAtto && c.isPositive

/-- `NewCoin`, which panics on a negative amount. -/
def newCoin (denom : String) (amount : ℤ) : Outcome Coin :=
  if amount < 0 then raise .negativeCoinAmount else .ok ⟨denom, amount⟩

def add (c d : Coin) : Outcome Coin :=
  if c.denom ≠ d.denom then raise .invalidCoinDenominations
  else do
    let amount ← SdkInt.add c.amount d.amount
    return ⟨c.denom, amount⟩

def sub (c d : Coin) : Outcome Coin :=
  if c.denom ≠ d.denom then raise .invalidCoinDenominations
  else do
    let amount ← SdkInt.sub c.amount d.amount
    newCoin c.denom amount

@[simp] lemma newCoin_ok {denom : String} {amount : ℤ} :
    newCoin denom amount = .ok c ↔ c = ⟨denom, amount⟩ ∧ 0 ≤ amount :=
  if_raise_ok not_le.symm

/-- Amount of `d` in a single coin. -/
def amountIn (c : Coin) (d : String) : ℤ := if c.denom = d then c.amount else 0

lemma amountIn_of_zero (h : c.amount = 0) (d : String) : c.amountIn d = 0 := by simp [amountIn, h]

lemma amountIn_nonneg (h : 0 ≤ c.amount) (d : String) : 0 ≤ c.amountIn d := by
  rw [amountIn]
  split_ifs
  · exact h
  · exact le_rfl

lemma amountIn_of_ne {d : String} (h : c.denom ≠ d) : c.amountIn d = 0 := if_neg h

lemma amountIn_mk_of_ne {d d' : String} (h : d ≠ d') (x : ℤ) : (⟨d', x⟩ : Coin).amountIn d = 0 :=
  amountIn_of_ne h.symm

lemma amountIn_mk_self (d : String) (x : ℤ) : (⟨d, x⟩ : Coin).amountIn d = x := if_pos rfl

lemma amountIn_neg (c : Coin) (d : String) :
    (⟨c.denom, -c.amount⟩ : Coin).amountIn d = -c.amountIn d := by
  simp only [amountIn]
  split_ifs
  · rfl
  · ring

lemma amountIn_add (denom d : String) (x y : ℤ) : (⟨denom, x + y⟩ : Coin).amountIn d =
      (⟨denom, x⟩ : Coin).amountIn d + (⟨denom, y⟩ : Coin).amountIn d := by
  simp only [amountIn]
  split_ifs
  · rfl
  · ring

lemma eq_of_add_ok {d : Coin} (h : c.add d = .ok r) :
    c.denom = d.denom ∧ r = ⟨c.denom, c.amount + d.amount⟩ ∧ SdkInt.InRange r.amount := by
  unfold add at h
  split_ifs at h with hd
  · simp at h
  · obtain ⟨a, ha, hr⟩ := bind_ok.mp h
    obtain ⟨rfl, hrange⟩ := SdkInt.add_eq_ok.mp ha
    simp only [pure_eq_ok] at hr
    exact ⟨not_not.mp hd, hr.symm, by rw [← hr]; exact hrange⟩

lemma eq_of_sub_ok {d : Coin} (h : c.sub d = .ok r) :
    c.denom = d.denom ∧ r = ⟨c.denom, c.amount - d.amount⟩ := by
  unfold sub at h
  split_ifs at h with hd
  · simp at h
  · obtain ⟨a, ha, hr⟩ := bind_ok.mp h
    obtain ⟨rfl, _⟩ := SdkInt.sub_eq_ok.mp ha
    exact ⟨not_not.mp hd, (newCoin_ok.mp hr).1⟩

end Coin

abbrev Coins := List Coin

namespace Coins

def removeZeroCoins (cs : Coins) : Coins := cs.filter (fun c => c.amount ≠ 0)

def consNonzero (c : Coin) (cs : Coins) : Coins := if c.amount = 0 then cs else c :: cs

/-- Inner part of `safeAdd`: the head `a` of the first set meets the second set; `next`
continues with the rest of the first set. -/
def mergeHead (a : Coin) (as : Coins) (next : Coins → Outcome Coins) : Coins → Outcome Coins
  | [] => .ok (removeZeroCoins (a :: as))
  | b :: bs =>
    if a.denom < b.denom then do
      let sum ← next (b :: bs)
      return consNonzero a sum
    else if a.denom = b.denom then do
      let res ← a.add b
      let sum ← next bs
      return consNonzero res sum
    else do
      let sum ← mergeHead a as next bs
      return consNonzero b sum

/-- `safeAdd`: merge two sets, adding the amounts of equal denominations. -/
def safeAdd : Coins → Coins → Outcome Coins
  | [], bs => .ok (removeZeroCoins bs)
  | a :: as, bs => mergeHead a as (safeAdd as) bs

/-- Array of a slice after `removeZeroCoins` ran on it. Each zero coin is overwritten by the
coins behind it; the place that becomes free at the end keeps its coin, and `freed` are these
places. -/
def overwriteZeroCoins : Coins → Coins → Coins
  | [], freed => freed
  | c :: cs, freed =>
    if c.amount = 0 then overwriteZeroCoins cs (cs.getLastD c :: freed)
    else c :: overwriteZeroCoins cs freed

/-- Inner part of `afterSafeAdd`, with the branches of `mergeHead`. -/
def afterMergeHead (a : Coin) (next : Coins → Coins) : Coins → Coins
  | [] => []
  | b :: bs =>
    if a.denom < b.denom then next (b :: bs)
    else if a.denom = b.denom then b :: next bs
    else b :: afterMergeHead a next bs

/-- Array of the second set after `safeAdd`, which removes the zero coins of its rest in
place once the first set is used up. -/
def afterSafeAdd : Coins → Coins → Coins
  | [], bs => overwriteZeroCoins bs []
  | a :: as, bs => afterMergeHead a (afterSafeAdd as) bs

def isAnyNegative (cs : Coins) : Bool := cs.any (fun c => c.amount < 0)

def negative (cs : Coins) : Coins := cs.map (fun c => ⟨c.denom, -c.amount⟩)

def add (cs ds : Coins) : Outcome Coins := do
  let sum ← safeAdd cs ds
  assert (!isAnyNegative sum) .negativeCoinAmount
  return sum

def safeSub (cs ds : Coins) : Outcome (Coins × Bool) := do
  let diff ← safeAdd cs (negative ds)
  return (diff, isAnyNegative diff)

def sub (cs ds : Coins) : Outcome Coins := do
  let (diff, hasNeg) ← safeSub cs ds
  assert (!hasNeg) .negativeCoinAmount
  return diff

/-- Loop of `IsValid` after the first coin. -/
def isValidFrom (lowDenom : String) : Coins → Bool
  | [] => true
  | c :: cs => c.isValid && lowDenom < c.denom && isValidFrom c.denom cs

def isValid : Coins → Bool
  | [] => true
  | c :: cs => c.isValid && isValidFrom c.denom cs

def sort (cs : Coins) : Coins := cs.insertionSort (fun c d => c.denom ≤ d.denom)

def isEqual (cs ds : Coins) : Bool := cs.length = ds.length ∧ sort cs = sort ds

def isAllPositive (cs : Coins) : Bool := !cs.isEmpty && cs.all Coin.isPositive

def isValidIrisAtto : Coins → Bool
  | [c] => c.isValidIrisAtto
  | _ => false

def newCoins (cs : Coins) : Outcome Coins :=
  let sorted := (removeZeroCoins cs).insertionSort (fun c d => c.denom ≤ d.denom)
  if isValid sorted then .ok sorted else raise .invalidCoinSet

/-- Binary search of `AmountOf`; `fuel` bounds the number of halvings. -/
def amountOfAux (denom : String) : ℕ → Coins → ℤ
  | 0, _ => 0
  | fuel + 1, cs =>
    match cs with
    | [] => 0
    | [c] => if c.denom = denom then c.amount else 0
    | cs =>
      let midIdx := cs.length / 2
      match cs[midIdx]? with
      | none => 0
      | some coin =>
        if denom < coin.denom then amountOfAux denom fuel (cs.take midIdx)
        else if denom = coin.denom then coin.amount
        else amountOfAux denom fuel (cs.drop (midIdx + 1))

def amountOf (cs : Coins) (denom : String) : ℤ := amountOfAux denom cs.length cs

def isZero (cs : Coins) : Bool := cs.all (fun c => c.amount = 0)

def isAllGTE (cs ds : Coins) : Bool :=
  if isZero ds then true
  else if isZero cs then false
  else ds.all (fun d => d.amount ≤ amountOf cs d.denom)

def getCoin (cs : Coins) (denom : String) : Option Coin := cs.find? (fun c => c.denom = denom)

section

/-- Amount of `d` in `cs`, counted over the whole list. -/
def denomSum (d : String) (cs : Coins) : ℤ :=
  (cs.map (fun c => c.amountIn d)).sum

variable (d : String) {as : Coins}

@[simp] lemma denomSum_nil : denomSum d [] = 0 := rfl

@[simp] lemma denomSum_cons (c : Coin) (cs : Coins) :
    denomSum d (c :: cs) = c.amountIn d + denomSum d cs := by simp [denomSum]

@[simp] lemma denomSum_consNonzero (c : Coin) (cs : Coins) :
    denomSum d (consNonzero c cs) = denomSum d (c :: cs) := by
  by_cases hc : c.amount = 0
  · simp [consNonzero, hc, Coin.amountIn_of_zero hc]
  · simp [consNonzero, hc]

@[simp] lemma denomSum_removeZeroCoins (cs : Coins) :
    denomSum d (removeZeroCoins cs) = denomSum d cs := by
  induction cs with
  | nil => rfl
  | cons c cs ih =>
    by_cases hc : c.amount = 0
    · simpa [removeZeroCoins, hc, Coin.amountIn_of_zero hc] using ih
    · simpa [removeZeroCoins, hc] using ih

@[simp] lemma denomSum_negative (cs : Coins) : denomSum d (negative cs) = -denomSum d cs := by
  induction cs with
  | nil => rfl
  | cons c cs ih =>
    have hneg : negative (c :: cs) = ⟨c.denom, -c.amount⟩ :: negative cs := rfl
    rw [hneg, denomSum_cons, denomSum_cons, Coin.amountIn_neg, ih]
    ring

lemma denomSum_perm {cs ds : Coins} (h : cs.Perm ds) : denomSum d cs = denomSum d ds :=
  (h.map _).sum_eq

lemma denomSum_mergeHead {a : Coin} {next : Coins → Outcome Coins}
    (hnext : ∀ bs r, next bs = .ok r → denomSum d r = denomSum d as + denomSum d bs) :
    ∀ {bs r : Coins}, mergeHead a as next bs = .ok r →
      denomSum d r = denomSum d (a :: as) + denomSum d bs := by
  intro bs
  induction bs with
  | nil =>
    intro r h
    simp only [mergeHead, Except.ok.injEq] at h
    subst h
    simp
  | cons b bs ih =>
    intro r h
    simp only [mergeHead] at h
    split_ifs at h with hlt heq
    · obtain ⟨sum, hsum, hr⟩ := bind_ok.mp h
      cases hr
      simp only [denomSum_consNonzero, denomSum_cons, hnext _ _ hsum]
      ring
    · obtain ⟨res, hres, h⟩ := bind_ok.mp h
      obtain ⟨sum, hsum, hr⟩ := bind_ok.mp h
      cases hr
      obtain ⟨_, rfl, _⟩ := Coin.eq_of_add_ok hres
      have hb : b = ⟨a.denom, b.amount⟩ := by rw [heq]
      rw [hb]
      simp only [denomSum_consNonzero, denomSum_cons, hnext _ _ hsum, Coin.amountIn_add]
      ring
    · obtain ⟨sum, hsum, hr⟩ := bind_ok.mp h
      cases hr
      simp only [denomSum_consNonzero, denomSum_cons, ih hsum]
      ring

lemma denomSum_safeAdd {bs r : Coins} (h : safeAdd as bs = .ok r) :
    denomSum d r = denomSum d as + denomSum d bs := by
  induction as generalizing bs r with
  | nil =>
    simp only [safeAdd, Except.ok.injEq] at h
    subst h
    simp
  | cons a as ih => exact denomSum_mergeHead d (fun _ _ hn => ih hn) h

end

section
variable {as : Coins} {P : Coin → Prop} {cs bs r : Coins}

lemma forall_consNonzero {c : Coin} (hc : P c)
    (h : ∀ c' ∈ cs, c'.amount ≠ 0 ∧ P c') : ∀ c' ∈ consNonzero c cs, c'.amount ≠ 0 ∧ P c' := by
  unfold consNonzero
  split_ifs with hzero
  · exact h
  · exact forall_mem_cons.mpr ⟨⟨hzero, hc⟩, h⟩

lemma forall_removeZeroCoins (h : ∀ c ∈ cs, P c) :
    ∀ c ∈ removeZeroCoins cs, c.amount ≠ 0 ∧ P c := by
  intro c hc
  obtain ⟨hmem, hzero⟩ := mem_filter.mp hc
  exact ⟨by simpa using hzero, h c hmem⟩

lemma forall_mergeHead (hadd : ∀ c : Coin, SdkInt.InRange c.amount → P c)
    {a : Coin} (has : ∀ c ∈ a :: as, P c) {next : Coins → Outcome Coins}
    (hnext : ∀ bs r, (∀ b ∈ bs, P b) → next bs = .ok r → ∀ c ∈ r, c.amount ≠ 0 ∧ P c) :
    ∀ {bs r : Coins}, (∀ b ∈ bs, P b) → mergeHead a as next bs = .ok r →
      ∀ c ∈ r, c.amount ≠ 0 ∧ P c := by
  intro bs
  induction bs with
  | nil =>
    intro r _ h
    simp only [mergeHead, Except.ok.injEq] at h
    rw [← h]
    exact forall_removeZeroCoins has
  | cons b bs ih =>
    intro r hbs h
    have htail := (forall_mem_cons.mp hbs).2
    simp only [mergeHead] at h
    split_ifs at h
    · obtain ⟨sum, hsum, hr⟩ := bind_ok.mp h
      cases hr
      exact forall_consNonzero (has a (by simp)) (hnext _ _ hbs hsum)
    · obtain ⟨res, hres, h⟩ := bind_ok.mp h
      obtain ⟨sum, hsum, hr⟩ := bind_ok.mp h
      cases hr
      exact forall_consNonzero (hadd _ (Coin.eq_of_add_ok hres).2.2) (hnext _ _ htail hsum)
    · obtain ⟨sum, hsum, hr⟩ := bind_ok.mp h
      cases hr
      exact forall_consNonzero (hbs b (by simp)) (ih htail hsum)

lemma forall_safeAdd (hadd : ∀ c : Coin, SdkInt.InRange c.amount → P c)
    (has : ∀ a ∈ as, P a) (hbs : ∀ b ∈ bs, P b) (h : safeAdd as bs = .ok r) :
    ∀ c ∈ r, c.amount ≠ 0 ∧ P c := by
  induction as generalizing bs r with
  | nil =>
    simp only [safeAdd, Except.ok.injEq] at h
    rw [← h]
    exact forall_removeZeroCoins hbs
  | cons a as ih =>
    exact forall_mergeHead hadd has
      (fun _ _ hbs hn => ih (forall_mem_cons.mp has).2 hbs hn) hbs h

lemma nonzero_safeAdd (h : safeAdd as bs = .ok r) : ∀ c ∈ r, c.amount ≠ 0 :=
  fun c hc => (forall_safeAdd (P := fun _ => True) (fun _ _ => trivial) (fun _ _ => trivial)
    (fun _ _ => trivial) h c hc).1

end

section
variable {bs : Coins}

lemma overwriteZeroCoins_of_nonzero {cs : Coins} (h : ∀ c ∈ cs, c.amount ≠ 0) :
    overwriteZeroCoins cs [] = cs := by
  induction cs with
  | nil => rfl
  | cons c cs ih =>
    rw [overwriteZeroCoins, if_neg (h c (by simp)), ih (fun c' hc' => h c' (mem_cons_of_mem _ hc'))]

lemma afterMergeHead_eq_self {a : Coin} {next : Coins → Coins}
    (hnext : ∀ cs, cs <:+ bs → next cs = cs) : afterMergeHead a next bs = bs := by
  induction bs with
  | nil => rfl
  | cons b bs ih =>
    have htail := hnext bs (suffix_cons b bs)
    rw [afterMergeHead, hnext (b :: bs) suffix_rfl, htail,
      ih (fun cs hcs => hnext cs (hcs.trans (suffix_cons b bs)))]
    simp

lemma afterSafeAdd_eq_self (as : Coins)
    (h : ∀ cs, cs <:+ bs → overwriteZeroCoins cs [] = cs) : afterSafeAdd as bs = bs := by
  induction as generalizing bs with
  | nil => exact h bs suffix_rfl
  | cons a as ih =>
    exact afterMergeHead_eq_self (fun cs hcs => ih (fun ds hds => h ds (hds.trans hcs)))

def Steady (bs : Coins) : Prop := ∀ as, afterSafeAdd as bs = bs

lemma Steady.of_nonzero (h : ∀ c ∈ bs, c.amount ≠ 0) : Steady bs := fun as =>
  afterSafeAdd_eq_self as (fun _ hcs =>
    overwriteZeroCoins_of_nonzero (fun c hc => h c (hcs.subset hc)))

lemma Steady.of_length_le (h : bs.length ≤ 1) : Steady bs := by
  refine fun as => afterSafeAdd_eq_self as (fun cs hcs => ?_)
  match cs, hcs.length_le.trans h with
  | [], _ => rfl
  | [c], _ => by_cases hc : c.amount = 0 <;> simp [overwriteZeroCoins, hc]

end

section
variable {c a : Coin} {cs as r : Coins} {x d denom : String}

def Sorted (cs : Coins) : Prop := cs.Pairwise (fun c c' => c.denom < c'.denom)

instance (cs : Coins) : Decidable (Sorted cs) := inferInstanceAs (Decidable (List.Pairwise _ _))

/-- All denominations lie above `x`. -/
def Above (x : String) (cs : Coins) : Prop := ∀ c ∈ cs, x < c.denom

lemma sorted_cons : Sorted (c :: cs) ↔ Above c.denom cs ∧ Sorted cs := pairwise_cons

lemma sorted_singleton (c : Coin) : Sorted [c] := pairwise_singleton _ c

lemma Above.removeZeroCoins (h : Above x cs) : Above x (removeZeroCoins cs) :=
  fun c hc => h c (mem_of_mem_filter hc)

lemma Sorted.removeZeroCoins (h : Sorted cs) : Sorted (removeZeroCoins cs) := Pairwise.filter _ h

lemma Above.consNonzero (hc : x < c.denom) (h : Above x cs) : Above x (consNonzero c cs) := by
  unfold Coins.consNonzero
  split_ifs
  · exact h
  · intro c' hc'
    rcases mem_cons.mp hc' with rfl | hc'
    · exact hc
    · exact h c' hc'

lemma Sorted.consNonzero (hc : Above c.denom cs) (h : Sorted cs) : Sorted (consNonzero c cs) := by
  unfold Coins.consNonzero
  split_ifs
  · exact h
  · exact sorted_cons.mpr ⟨hc, h⟩

lemma Sorted.negative (h : Sorted cs) : Sorted (negative cs) := pairwise_map.mpr h

lemma above_trans {y : String} (hxy : x < y) (h : Above y cs) : Above x cs :=
  fun c hc => hxy.trans (h c hc)

lemma above_cons : Above x (c :: cs) ↔ x < c.denom ∧ Above x cs := forall_mem_cons

lemma sorted_mergeHead {next : Coins → Outcome Coins} (has : Sorted (a :: as))
    (hnext : ∀ bs r, Sorted bs → next bs = .ok r →
      Sorted r ∧ ∀ x, Above x as → Above x bs → Above x r) :
    ∀ {bs r : Coins}, Sorted bs → mergeHead a as next bs = .ok r →
      Sorted r ∧ ∀ x, Above x (a :: as) → Above x bs → Above x r := by
  obtain ⟨haas, hsas⟩ := sorted_cons.mp has
  intro bs
  induction bs with
  | nil =>
    intro r _ h
    simp only [mergeHead, Except.ok.injEq] at h
    subst h
    exact ⟨has.removeZeroCoins, fun x hx _ => hx.removeZeroCoins⟩
  | cons b bs ih =>
    intro r hbs h
    obtain ⟨hbbs, hsbs⟩ := sorted_cons.mp hbs
    simp only [mergeHead] at h
    split_ifs at h with hlt heq
    · obtain ⟨sum, hsum, hr⟩ := bind_ok.mp h
      cases hr
      obtain ⟨hs, habove⟩ := hnext _ _ hbs hsum
      have hab : Above a.denom (b :: bs) := above_cons.mpr ⟨hlt, above_trans hlt hbbs⟩
      refine ⟨hs.consNonzero (habove _ haas hab), fun x hxa hxb => ?_⟩
      obtain ⟨hx, hxas⟩ := above_cons.mp hxa
      exact (habove x hxas hxb).consNonzero hx
    · obtain ⟨res, hres, h⟩ := bind_ok.mp h
      obtain ⟨sum, hsum, hr⟩ := bind_ok.mp h
      cases hr
      obtain ⟨_, rfl, _⟩ := Coin.eq_of_add_ok hres
      obtain ⟨hs, habove⟩ := hnext _ _ hsbs hsum
      refine ⟨hs.consNonzero (habove _ haas (by rw [heq]; exact hbbs)), fun x hxa hxb => ?_⟩
      obtain ⟨hx, hxas⟩ := above_cons.mp hxa
      exact (habove x hxas (above_cons.mp hxb).2).consNonzero hx
    · obtain ⟨sum, hsum, hr⟩ := bind_ok.mp h
      cases hr
      obtain ⟨hs, habove⟩ := ih hsbs hsum
      have hlt' : b.denom < a.denom := lt_of_le_of_ne (not_lt.mp hlt) (fun he => heq he.symm)
      have hba : Above b.denom (a :: as) := above_cons.mpr ⟨hlt', above_trans hlt' haas⟩
      refine ⟨hs.consNonzero (habove _ hba hbbs), fun x hxa hxb => ?_⟩
      obtain ⟨hx, hxbs⟩ := above_cons.mp hxb
      exact (habove x hxa hxbs).consNonzero hx

lemma sorted_safeAdd_aux (has : Sorted as) : ∀ {bs r : Coins}, Sorted bs → safeAdd as bs = .ok r →
      Sorted r ∧ ∀ x, Above x as → Above x bs → Above x r := by
  induction as with
  | nil =>
    intro bs r hbs h
    simp only [safeAdd, Except.ok.injEq] at h
    subst h
    exact ⟨hbs.removeZeroCoins, fun x _ hx => hx.removeZeroCoins⟩
  | cons a as ih => exact sorted_mergeHead has (fun _ _ hbs hn => ih (sorted_cons.mp has).2 hbs hn)

lemma Sorted.safeAdd {bs : Coins} (has : Sorted as) (hbs : Sorted bs)
    (h : safeAdd as bs = .ok r) : Sorted r :=
  (sorted_safeAdd_aux has hbs h).1

lemma sorted_of_isValidFrom (h : isValidFrom x cs = true) :
    Above x cs ∧ Sorted cs ∧ ∀ c ∈ cs, c.isValid = true := by
  induction cs generalizing x with
  | nil => exact ⟨by simp [Above], Pairwise.nil, by simp⟩
  | cons c cs ih =>
    simp only [isValidFrom, Bool.and_eq_true, decide_eq_true_eq] at h
    obtain ⟨habove, hsorted, hvalid⟩ := ih h.2
    refine ⟨above_cons.mpr ⟨h.1.2, above_trans h.1.2 habove⟩, sorted_cons.mpr ⟨habove, hsorted⟩, ?_⟩
    intro c' hc'
    rcases mem_cons.mp hc' with rfl | hc'
    · exact h.1.1
    · exact hvalid c' hc'

lemma sorted_of_isValid (h : isValid cs = true) : Sorted cs ∧ ∀ c ∈ cs, c.isValid = true := by
  cases cs with
  | nil => exact ⟨Pairwise.nil, by simp⟩
  | cons c cs =>
    simp only [isValid, Bool.and_eq_true] at h
    obtain ⟨habove, hsorted, hvalid⟩ := sorted_of_isValidFrom h.2
    refine ⟨sorted_cons.mpr ⟨habove, hsorted⟩, ?_⟩
    intro c' hc'
    rcases mem_cons.mp hc' with rfl | hc'
    · exact h.1
    · exact hvalid c' hc'

lemma denomSum_nonneg (h : ∀ c ∈ cs, 0 ≤ c.amount) : 0 ≤ denomSum d cs := by
  refine sum_nonneg (fun x hx => ?_)
  obtain ⟨c, hc, rfl⟩ := mem_map.mp hx
  exact Coin.amountIn_nonneg (h c hc) d

lemma denomSum_eq_zero (h : ∀ c ∈ cs, c.denom ≠ d) : denomSum d cs = 0 := by
  refine sum_eq_zero (fun x hx => ?_)
  obtain ⟨c, hc, rfl⟩ := mem_map.mp hx
  exact Coin.amountIn_of_ne (h c hc)

lemma denomSum_of_isZero (h : isZero cs = true) (d : String) : denomSum d cs = 0 := by
  refine sum_eq_zero (fun x hx => ?_)
  obtain ⟨c, hc, rfl⟩ := mem_map.mp hx
  refine Coin.amountIn_of_zero ?_ d
  simpa using all_eq_true.mp h c hc

lemma denomSum_append (d : String) (cs ds : Coins) :
    denomSum d (cs ++ ds) = denomSum d cs + denomSum d ds := by simp [denomSum]

lemma amountOfAux_eq_denomSum : ∀ {fuel : ℕ} {cs : Coins}, cs.length ≤ fuel → Sorted cs →
      amountOfAux denom fuel cs = denomSum denom cs := by
  intro fuel
  induction fuel with
  | zero =>
    intro cs hlen _
    have hnil : cs = [] := length_eq_zero_iff.mp (by omega)
    subst hnil
    rfl
  | succ fuel ih =>
    intro cs hlen hs
    match cs, hlen, hs with
    | [], _, _ => rfl
    | [c], _, _ => simp [amountOfAux, Coin.amountIn]
    | c :: c' :: cs, hlen, hs =>
      -- the list is cut around the middle coin
      generalize hl : c :: c' :: cs = l at hlen hs
      have hmid : l.length / 2 < l.length := by
        rw [← hl]
        simp only [length_cons]
        omega
      have hget : l[l.length / 2]? = some l[l.length / 2] := getElem?_eq_getElem hmid
      have hsplit : l.take (l.length / 2) ++ l[l.length / 2] :: l.drop (l.length / 2 + 1) = l := by
        rw [getElem_cons_drop, take_append_drop]
      generalize l[l.length / 2] = coin at hget hsplit
      have hs' := hs
      rw [← hsplit] at hs'
      obtain ⟨hsl, hsr, hlr⟩ := pairwise_append.mp hs'
      obtain ⟨habove, hsr'⟩ := pairwise_cons.mp hsr
      have hsum : denomSum denom l = denomSum denom (l.take (l.length / 2)) + (coin.amountIn denom +
            denomSum denom (l.drop (l.length / 2 + 1))) := by
        conv_lhs => rw [← hsplit, denomSum_append, denomSum_cons]
      have hstep : amountOfAux denom (fuel + 1) l =
          if denom < coin.denom then amountOfAux denom fuel (l.take (l.length / 2))
          else if denom = coin.denom then coin.amount
          else amountOfAux denom fuel (l.drop (l.length / 2 + 1)) := by
        rw [← hl] at hget ⊢
        simp only [amountOfAux, hget]
      rw [hstep, hsum]
      rcases lt_trichotomy denom coin.denom with hlt | heq | hgt
      · have hright : denomSum denom (l.drop (l.length / 2 + 1)) = 0 :=
          denomSum_eq_zero (fun x hx he => (hlt.trans (habove x hx)).ne he.symm)
        rw [if_pos hlt, Coin.amountIn_of_ne hlt.ne', hright, ih (by rw [length_take]; omega) hsl]
        ring
      · have hleft : denomSum denom (l.take (l.length / 2)) = 0 :=
          denomSum_eq_zero (fun x hx he => (hlr x hx coin (by simp)).ne (he.trans heq))
        have hright : denomSum denom (l.drop (l.length / 2 + 1)) = 0 :=
          denomSum_eq_zero (fun x hx he => (habove x hx).ne (heq.symm.trans he.symm))
        rw [if_neg (heq ▸ lt_irrefl denom), if_pos heq, Coin.amountIn, if_pos heq.symm, hleft,
          hright]
        ring
      · have hleft : denomSum denom (l.take (l.length / 2)) = 0 :=
          denomSum_eq_zero (fun x hx he => ((hlr x hx coin (by simp)).trans hgt).ne he)
        rw [if_neg hgt.not_gt, if_neg hgt.ne', Coin.amountIn_of_ne hgt.ne, hleft,
          ih (by rw [length_drop]; omega) hsr']
        ring

lemma amountOf_eq_denomSum (h : Sorted cs) : amountOf cs denom = denomSum denom cs :=
  amountOfAux_eq_denomSum le_rfl h

lemma denomSum_of_isEqual {ds : Coins} (h : isEqual cs ds = true) (d : String) :
    denomSum d cs = denomSum d ds := by
  simp only [isEqual, Bool.decide_and, Bool.and_eq_true, decide_eq_true_eq] at h
  have hcs := denomSum_perm d (perm_insertionSort (fun c c' : Coin => c.denom ≤ c'.denom) cs)
  have hds := denomSum_perm d (perm_insertionSort (fun c c' : Coin => c.denom ≤ c'.denom) ds)
  have hsort := congrArg (denomSum d) h.2
  unfold sort at hsort
  rw [← hcs, hsort, hds]

lemma not_sorted_overwriteZeroCoins (hcs : cs ≠ []) (c : Coin) (freed : Coins) :
    ¬Sorted (overwriteZeroCoins cs (cs.getLastD c :: freed)) := by
  induction cs generalizing c freed with
  | nil => exact absurd rfl hcs
  | cons b bs ih =>
    intro hsorted
    by_cases hbs : bs = []
    · subst hbs
      have hdup : overwriteZeroCoins [b] ([b].getLastD c :: freed) =
          b :: (if b.amount = 0 then b :: freed else b :: freed) := by
        by_cases hb : b.amount = 0 <;> simp [overwriteZeroCoins, hb]
      rw [hdup, ite_self, sorted_cons] at hsorted
      exact lt_irrefl _ (hsorted.1 b (by simp))
    · have hlast : (b :: bs).getLastD c = bs.getLastD b := by
        cases bs with
        | nil => exact absurd rfl hbs
        | cons b' bs => simp [getLastD]
      rw [hlast, overwriteZeroCoins] at hsorted
      split_ifs at hsorted with hb
      · exact ih hbs b _ hsorted
      · exact ih hbs b freed (sorted_cons.mp hsorted).2

lemma overwriteZeroCoins_of_sorted (h : Sorted (overwriteZeroCoins cs [])) :
    overwriteZeroCoins cs [] = cs := by
  induction cs with
  | nil => rfl
  | cons c cs ih =>
    rw [overwriteZeroCoins] at h ⊢
    split_ifs at h ⊢ with hc
    · by_cases hcs : cs = []
      · subst hcs
        rfl
      · exact absurd h (not_sorted_overwriteZeroCoins hcs c [])
    · rw [ih (sorted_cons.mp h).2]

lemma afterMergeHead_of_sorted {next : Coins → Coins}
    (hnext : ∀ bs, Sorted (next bs) → next bs = bs) :
    ∀ {bs : Coins}, Sorted (afterMergeHead a next bs) → afterMergeHead a next bs = bs := by
  intro bs
  induction bs with
  | nil =>
    intro _
    rfl
  | cons b bs ih =>
    intro h
    rw [afterMergeHead] at h ⊢
    split_ifs at h ⊢ with hlt heq
    · exact hnext _ h
    · rw [hnext _ (sorted_cons.mp h).2]
    · rw [ih (sorted_cons.mp h).2]

lemma afterSafeAdd_of_sorted :
    ∀ {bs : Coins}, Sorted (afterSafeAdd as bs) → afterSafeAdd as bs = bs := by
  induction as with
  | nil =>
    intro bs h
    exact overwriteZeroCoins_of_sorted h
  | cons a as ih =>
    intro bs h
    exact afterMergeHead_of_sorted (fun _ hbs => ih hbs) h

lemma newCoins_ok (h : newCoins cs = .ok r) :
    isValid r = true ∧ ∀ d, denomSum d r = denomSum d cs := by
  unfold newCoins at h
  simp only at h
  split_ifs at h with hv
  · cases h
    refine ⟨hv, fun d => ?_⟩
    rw [denomSum_perm d (perm_insertionSort _ _), denomSum_removeZeroCoins]
  · simp at h

lemma nonzero_of_newCoins (h : newCoins cs = .ok r) : ∀ c ∈ r, c.amount ≠ 0 := by
  unfold newCoins at h
  simp only at h
  split_ifs at h with hv
  · cases h
    intro c hc
    have hmem := (perm_insertionSort _ _).mem_iff.mp hc
    simpa [removeZeroCoins] using (mem_filter.mp hmem).2
  · simp at h

end
end Coins
end Irishub
