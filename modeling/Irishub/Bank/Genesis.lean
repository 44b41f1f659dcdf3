import Irishub.Bank.Supplies
import Irishub.Coinswap.Types

/-!
# The accounts of a genesis file

`ExportAppStateAndValidators` writes every account that has coins, with these
coins (`app/v2/export.go`), and `InitChainer` loads them again: the iris coins of
an account are added up and put behind its other coins, also if there are none
(`convertToMinDenomCoins`), and the sorted list is stored. `InitTotalSupply`
then records for every other denomination, vouchers apart, the sum over all
accounts. The account at the burning address is one of them.

Account numbers and sequences are left out, and the texts of the coins are kept
as coins.
-/

namespace Irishub.Bank
open Lib Store Coins SdkInt StoredCoins Coin List

abbrev GenesisAccount := Address × Coins

def fileAccounts (b : Bank) : List GenesisAccount :=
  (b.accounts.entries.filter (fun e => decide (e.2.coins ≠ []))).map (fun e => (e.1, e.2.coins))

/-- Amount of `d` that a list of genesis accounts gives to `a`. -/
def genesisBalance (accounts : List GenesisAccount) (a : Address) (d : String) : ℤ :=
  (accounts.map (fun e => if e.1 = a then Coins.denomSum d e.2 else 0)).sum

lemma sum_fileAccounts (b : Bank) (f : Address → Coins → ℤ) (hf : ∀ a, f a [] = 0) :
    (b.fileAccounts.map (fun e => f e.1 e.2)).sum =
      total (fun a cs => f a cs.coins) b.accounts := by
  rw [fileAccounts, total, map_map]
  induction b.accounts.entries with
  | nil => rfl
  | cons e entries ih =>
    rw [map_cons, sum_cons, ← ih, filter_cons]
    split_ifs with hcoins
    · rfl
    · have hnil : e.2.coins = [] := by simpa using hcoins
      rw [hnil, hf, zero_add]

lemma genesisBalance_fileAccounts (b : Bank) (a : Address) (d : String) :
    genesisBalance b.fileAccounts a d = b.balance a d := by
  rw [genesisBalance, sum_fileAccounts b (fun k cs => if k = a then denomSum d cs else 0)
    (fun k => by simp)]
  have hother := total_sub_contribution_congr
    (f := fun k (cs : StoredCoins) => if k = a then denomSum d cs.coins else 0)
    (g := fun _ _ => 0) (s := b.accounts) (k := a) (fun k _ hk => if_neg hk)
  have hzero : total (fun _ (_ : StoredCoins) => (0 : ℤ)) b.accounts = 0 := by simp [total]
  rw [hzero, contribution, contribution] at hother
  rw [balance, getCoins]
  cases hget : b.accounts.get a with
  | none =>
    rw [hget] at hother
    simpa using hother
  | some cs =>
    rw [hget] at hother
    simp only [Option.elim_some, if_true, sub_zero] at hother
    rw [Option.getD_some, amountOf_eq]
    omega

/-- Coins that `convertToMinDenomCoins` has collected, and the amount of iris. -/
def convertCoin (acc : Coins × ℤ) (c : Coin) : Outcome (Coins × ℤ) :=
  if c.denom = irisAtto then do return (acc.1, ← SdkInt.add acc.2 c.amount)
  else do return (acc.1 ++ [← Coin.newCoin c.denom c.amount], acc.2)

def convertToMinDenomCoins (coins : Coins) : Outcome Coins := do
  let (accountCoins, irisAmount) ← coins.foldlM convertCoin ([], 0)
  let accountCoins := accountCoins ++ [⟨irisAtto, irisAmount⟩]
  assert (!Coins.isZero accountCoins) .accountWithoutToken
  return accountCoins

def setGenesisAccount (b : Bank) (addr : Address) (coins : StoredCoins) : Outcome Bank := do
  let b ← if addr = burnedCoinsAccAddr then .ok b else b.increaseTotalLoosenToken coins.coins
  return b.setCoins addr coins

/-- Loop of `InitChainer` over the accounts. A list with a negative amount or two coins of one
denomination, which is stored by the source, is not modelled. -/
def loadAccount (b : Bank) (acc : GenesisAccount) : Outcome Bank := do
  let coins ← convertToMinDenomCoins acc.2
  if h : (Coins.sort coins).Sorted ∧ ∀ c ∈ Coins.sort coins, 0 ≤ c.amount then
    b.setGenesisAccount acc.1 ⟨Coins.sort coins, h.1, h.2⟩
  else raise .invalidCoins

/-- Coins that `InitTotalSupply` adds up. -/
def isCounted (d : String) : Bool :=
  d ≠ irisAtto && d ≠ iris && !hasPrefix d Coinswap.formatUniABSPrefix

/-- Loop of `InitTotalSupply` over the coins of the accounts. -/
def countCoin (tsMap : Store String Coin) (coin : Coin) : Outcome (Store String Coin) :=
  if isCounted coin.denom then
    match tsMap.get coin.denom with
    | none => .ok (tsMap.set coin.denom coin)
    | some totalSupply => do return tsMap.set coin.denom (← coin.add totalSupply)
  else .ok tsMap

def allCoins (b : Bank) : Coins := b.accounts.entries.flatMap (fun e => e.2.coins)

/-- `InitTotalSupply`; the sums are recorded in the order of their denominations. -/
def initTotalSupply (b : Bank) : Outcome Bank := do
  let tsMap ← b.allCoins.foldlM countCoin Store.empty
  return tsMap.entries.foldl (fun b e => b.setTotalSupply e.2) b

def Listed (b : Bank) (d : String) : Prop := ∃ c ∈ b.allCoins, c.denom = d

section
variable {coins : Coins}

def converted (coins : Coins) : Coins :=
  coins.filter (fun c => c.denom ≠ irisAtto) ++ [⟨irisAtto, Coins.denomSum irisAtto coins⟩]

lemma foldlM_convertCoin : ∀ {coins : Coins} (others : Coins) {x : ℤ},
    (∀ c ∈ coins, 0 ≤ c.amount) → 0 ≤ x → InRange (x + denomSum irisAtto coins) →
    coins.foldlM convertCoin (others, x) =
      .ok (others ++ coins.filter (fun c => c.denom ≠ irisAtto), x + denomSum irisAtto coins)
  | [], others, x, _, _, _ => by simp
  | c :: coins, others, x, hnn, hx, hrange => by
    have hnn' : ∀ c' ∈ coins, 0 ≤ c'.amount := fun c' hc' => hnn c' (mem_cons_of_mem _ hc')
    have hc : 0 ≤ c.amount := hnn c (by simp)
    have hrest := denomSum_nonneg (d := irisAtto) hnn'
    rw [denomSum_cons] at hrange
    rw [foldlM_cons, convertCoin]
    by_cases hiris : c.denom = irisAtto
    · rw [amountIn, if_pos hiris] at hrange
      have hadd : add x c.amount = .ok (x + c.amount) := by
        rw [add_eq_ok]
        rw [inRange_iff] at hrange ⊢
        exact ⟨rfl, by omega, by omega⟩
      rw [if_pos hiris, hadd, ok_bind, pure_ok, ok_bind,
        foldlM_convertCoin others hnn' (by omega) (by rw [add_assoc]; exact hrange)]
      simp [hiris, amountIn, add_assoc]
    · rw [amountIn_of_ne hiris, zero_add] at hrange
      have hcoin : newCoin c.denom c.amount = .ok c := newCoin_ok.mpr ⟨rfl, hc⟩
      rw [if_neg hiris, hcoin, ok_bind, pure_ok, ok_bind,
        foldlM_convertCoin (others ++ [c]) hnn' hx hrange]
      simp [hiris, amountIn_of_ne hiris]

lemma denomSum_filter_ne (d : String) (coins : Coins) :
    denomSum d (coins.filter (fun c => c.denom ≠ irisAtto)) =
      if d = irisAtto then 0 else denomSum d coins := by
  split_ifs with hd
  · refine denomSum_eq_zero (fun c hc => ?_)
    rw [hd]
    simpa using (mem_filter.mp hc).2
  · induction coins with
    | nil => rfl
    | cons c coins ih =>
      rw [filter_cons, denomSum_cons]
      split_ifs with hc
      · rw [denomSum_cons, ih]
      · have hiris : c.denom = irisAtto := by simpa using hc
        rw [ih, amountIn_of_ne (fun heq => hd (heq.symm.trans hiris)), zero_add]

lemma denomSum_converted (d : String) (coins : Coins) :
    denomSum d (converted coins) = denomSum d coins := by
  rw [converted, denomSum_append, denomSum_filter_ne]
  split_ifs with hd
  · rw [hd]
    simp [amountIn]
  · rw [denomSum_cons, denomSum_nil, amountIn_mk_of_ne hd, add_zero, add_zero]

lemma nonneg_converted (hnn : ∀ c ∈ coins, 0 ≤ c.amount) : ∀ c ∈ converted coins, 0 ≤ c.amount := by
  intro c hc
  rcases mem_append.mp hc with hc | hc
  · exact hnn c (mem_filter.mp hc).1
  · rw [mem_singleton] at hc
    rw [hc]
    exact denomSum_nonneg hnn

lemma exists_denom_converted {d : String} (hd : d ≠ irisAtto) :
    (∃ c ∈ converted coins, c.denom = d) ↔ ∃ c ∈ coins, c.denom = d := by
  constructor
  · rintro ⟨c, hc, rfl⟩
    rcases mem_append.mp hc with hc | hc
    · exact ⟨c, (mem_filter.mp hc).1, rfl⟩
    · rw [mem_singleton] at hc
      exact absurd (by rw [hc]) hd
  · rintro ⟨c, hc, rfl⟩
    exact ⟨c, mem_append_left _ (mem_filter.mpr ⟨hc, decide_eq_true hd⟩), rfl⟩

lemma sorted_sort_converted (h : coins.Sorted) : (sort (converted coins)).Sorted := by
  have hnodup : ((converted coins).map denom).Nodup := by
    rw [converted, map_append, nodup_append']
    refine ⟨?_, by simp, ?_⟩
    · have hlt : ((coins.filter (fun c => c.denom ≠ irisAtto)).map denom).Pairwise (· < ·) :=
        pairwise_map.mpr (h.filter _)
      exact hlt.imp (fun hab => hab.ne)
    · simp only [map_cons, map_nil, disjoint_singleton, mem_map, mem_filter, decide_eq_true_eq]
      rintro ⟨c, ⟨_, hne⟩, heq⟩
      exact hne heq
  have hle : (sort (converted coins)).Pairwise (fun c c' => c.denom ≤ c'.denom) :=
    pairwise_insertionSort _ _
  have hne : (sort (converted coins)).Pairwise (fun c c' => c.denom ≠ c'.denom) := by
    have hperm : (sort (converted coins)).Perm (converted coins) := perm_insertionSort _ _
    exact pairwise_map.mp ((hperm.map denom).nodup_iff.mpr hnodup)
  exact (hle.and hne).imp (fun hab => lt_of_le_of_ne hab.1 hab.2)

end

section
variable {b b' : Bank} {addr : Address}

lemma increaseTotalLoosenToken_ok {cs : Coins} (hsorted : cs.Sorted) (hnn : ∀ c ∈ cs, 0 ≤ c.amount)
    (hmem : ∃ c ∈ cs, c.denom = irisAtto) (hrange : InRange (b.loosen + denomSum irisAtto cs)) :
    ∃ b', b.increaseTotalLoosenToken cs = .ok b' ∧ b'.accounts = b.accounts ∧
      b'.totalSupply = b.totalSupply ∧ b'.loosen = b.loosen + denomSum irisAtto cs := by
  obtain ⟨c, hget⟩ : ∃ c, getCoin cs irisAtto = some c := by
    refine Option.isSome_iff_exists.mp (find?_isSome.mpr ?_)
    obtain ⟨c, hc, hd⟩ := hmem
    exact ⟨c, hc, decide_eq_true hd⟩
  have hc : c ∈ cs := mem_of_find?_eq_some hget
  have hdenom : c.denom = irisAtto := of_decide_eq_true (find?_some hget :)
  have hsum := denomSum_of_mem hsorted hc
  rw [hdenom] at hsum
  have hcoin : c = ⟨irisAtto, c.amount⟩ := by rw [← hdenom]
  rw [hsum] at hrange ⊢
  rw [increaseTotalLoosenToken, if_neg (ne_nil_of_mem hc), hget]
  simp only
  split_ifs with hpos
  · have hzero : c.amount = 0 := by
      have := hnn c hc
      simp only [isPositive, decide_eq_false_iff_not, not_lt] at hpos
      omega
    exact ⟨b, rfl, rfl, rfl, by rw [hzero, add_zero]⟩
  · have hiris : IrisOnly [c] := by
      rw [hcoin]
      exact IrisOnly.single (hnn c hc)
    have hamount : Coins.iris [c] = c.amount := by
      rw [hcoin]
      exact iris_single _
    obtain ⟨total, htotal⟩ := add_ok hiris (sorted_singleton c)
      (s := b.totalLoosenToken) (by rw [hamount]; exact hrange)
    refine ⟨_, bind_ok.mpr ⟨total, htotal, rfl⟩, rfl, rfl, ?_⟩
    have hadd := amountOf_add htotal irisAtto
    rw [← Coins.iris, hamount] at hadd
    exact hadd

/-- A genesis account that can be loaded: it has the coins of an account, and a token. -/
structure Loadable (coins : Coins) : Prop where
  sorted : coins.Sorted
  nonneg : ∀ c ∈ coins, 0 ≤ c.amount
  nonzero : ∃ c ∈ coins, c.amount ≠ 0

lemma Loadable.convert {coins : Coins} (h : Loadable coins)
    (hrange : InRange (denomSum irisAtto coins)) :
    convertToMinDenomCoins coins = .ok (converted coins) := by
  have hnonzero : isZero (converted coins) = false := by
    obtain ⟨c, hc, hne⟩ := h.nonzero
    have hpos : 0 < c.amount := lt_of_le_of_ne (h.nonneg c hc) (Ne.symm hne)
    by_contra hzero
    rw [Bool.not_eq_false, isZero, all_eq_true] at hzero
    have hsum : denomSum c.denom (converted coins) = 0 := by
      rw [denomSum]
      refine sum_eq_zero (fun x hx => ?_)
      obtain ⟨c', hc', rfl⟩ := mem_map.mp hx
      exact amountIn_of_zero (by simpa using hzero c' hc') _
    rw [denomSum_converted, denomSum_of_mem h.sorted hc] at hsum
    omega
  rw [convertToMinDenomCoins,
    foldlM_convertCoin [] h.nonneg le_rfl (by rw [zero_add]; exact hrange),
    ok_bind, nil_append, zero_add]
  simp only
  rw [← converted, hnonzero]
  rfl

lemma Loadable.loadAccount {acc : GenesisAccount} (h : Loadable acc.2)
    (hrange : InRange (b.loosen + denomSum irisAtto acc.2)) :
    ∃ b' cs, b.loadAccount acc = .ok b' ∧ b'.accounts = b.accounts.set acc.1 cs ∧
      cs.coins.Perm (converted acc.2) ∧ b'.totalSupply = b.totalSupply ∧
      b'.loosen ≤ b.loosen + denomSum irisAtto acc.2 := by
  have hloosen : 0 ≤ b.loosen := b.totalLoosenToken.amountOf_nonneg _
  have hiris := denomSum_nonneg (d := irisAtto) h.nonneg
  have hconvert := h.convert (by rw [inRange_iff] at hrange ⊢; omega)
  have hperm : (sort (converted acc.2)).Perm (converted acc.2) := perm_insertionSort _ _
  have hsorted := sorted_sort_converted h.sorted
  have hnn : ∀ c ∈ sort (converted acc.2), 0 ≤ c.amount := fun c hc =>
    nonneg_converted h.nonneg c (hperm.mem_iff.mp hc)
  rw [Bank.loadAccount, hconvert, ok_bind, dif_pos ⟨hsorted, hnn⟩, setGenesisAccount]
  split_ifs
  · exact ⟨_, _, rfl, rfl, hperm, rfl, le_add_of_nonneg_right hiris⟩
  · have hsum : denomSum irisAtto (sort (converted acc.2)) = denomSum irisAtto acc.2 := by
      rw [denomSum_perm _ hperm, denomSum_converted]
    obtain ⟨b1, hb1, haccounts, hsupply, hloosen1⟩ :=
      increaseTotalLoosenToken_ok (b := b) hsorted hnn
      ⟨_, hperm.mem_iff.mpr (mem_append_right _ (mem_singleton.mpr rfl)), rfl⟩
      (by rw [hsum]; exact hrange)
    refine ⟨_, _, bind_ok.mpr ⟨b1, hb1, rfl⟩, by rw [setCoins, haccounts], hperm, hsupply, ?_⟩
    rw [hsum] at hloosen1
    exact hloosen1.le

lemma mem_allCoins {c : Coin} : c ∈ b.allCoins ↔ ∃ a, c ∈ (b.getCoins a).coins := by
  rw [allCoins, mem_flatMap]
  constructor
  · rintro ⟨⟨a, cs⟩, he, hc⟩
    refine ⟨a, ?_⟩
    rw [getCoins, mem_entries.mp he]
    exact hc
  · rintro ⟨a, hc⟩
    rw [getCoins] at hc
    cases hget : b.accounts.get a with
    | none =>
      rw [hget] at hc
      exact absurd hc (by simp [StoredCoins.empty])
    | some cs =>
      rw [hget] at hc
      exact ⟨(a, cs), mem_entries.mpr hget, hc⟩

lemma denomSum_allCoins (b : Bank) (d : String) : denomSum d b.allCoins = b.sumOf d := by
  rw [allCoins, sumOf, total]
  induction b.accounts.entries with
  | nil => rfl
  | cons e entries ih => rw [flatMap_cons, denomSum_append, ih, map_cons, sum_cons, amountOf_eq]

lemma Fits.listed_iff (h : b.Fits) {d : String} (hd : d ≠ irisAtto) :
    b.Listed d ↔ 0 < b.sumOf d := by
  constructor
  · rintro ⟨c, hc, rfl⟩
    obtain ⟨a, ha⟩ := mem_allCoins.mp hc
    have hpos : 0 < c.amount :=
      lt_of_le_of_ne ((b.getCoins a).nonneg c ha) (Ne.symm (h.nonzero a c ha hd))
    have hbalance : b.balance a c.denom = c.amount := by
      rw [balance, amountOf_eq, denomSum_of_mem (b.getCoins a).sorted ha]
    have hle := balance_le_sumOf b a c.denom
    omega
  · intro hpos
    by_contra hnot
    rw [← denomSum_allCoins, denomSum_eq_zero (fun c hc heq => hnot ⟨c, hc, heq⟩)] at hpos
    exact lt_irrefl _ hpos

lemma listed_setCoins (hempty : b.getCoins addr = .empty) (cs : StoredCoins)
    (d : String) : (b.setCoins addr cs).Listed d ↔ b.Listed d ∨ ∃ c ∈ cs.coins, c.denom = d := by
  simp only [Listed, mem_allCoins, getCoins_setCoins]
  constructor
  · rintro ⟨c, ⟨a, hc⟩, hcd⟩
    split_ifs at hc with ha
    · exact Or.inr ⟨c, hc, hcd⟩
    · exact Or.inl ⟨c, ⟨a, hc⟩, hcd⟩
  · rintro (⟨c, ⟨a, hc⟩, hcd⟩ | ⟨c, hc, hcd⟩)
    · refine ⟨c, ⟨a, ?_⟩, hcd⟩
      split_ifs with ha
      · rw [ha, hempty] at hc
        exact absurd hc (by simp [StoredCoins.empty])
      · exact hc
    · exact ⟨c, ⟨addr, by rw [if_pos rfl]; exact hc⟩, hcd⟩

lemma sumOf_setCoins_of_empty (hempty : b.getCoins addr = .empty)
    (cs : StoredCoins) (d : String) : (b.setCoins addr cs).sumOf d = b.sumOf d + cs.amountOf d := by
  have hbalance : b.balance addr d = 0 := by
    rw [balance, hempty]
    exact amountOf_empty d
  have hstep := sumOf_setCoins b addr cs d
  omega

lemma loadAccounts_ok : ∀ (accounts : List GenesisAccount) (b : Bank),
    (∀ acc ∈ accounts, Loadable acc.2 ∧ b.getCoins acc.1 = .empty) → (accounts.map Prod.fst).Nodup →
    InRange (b.loosen + (accounts.map (fun acc => denomSum irisAtto acc.2)).sum) →
    ∃ b', accounts.foldlM loadAccount b = .ok b' ∧ b'.totalSupply = b.totalSupply ∧
      (∀ d, b'.sumOf d = b.sumOf d + (accounts.map (fun acc => denomSum d acc.2)).sum) ∧
      ∀ d, d ≠ irisAtto → (b'.Listed d ↔ b.Listed d ∨ ∃ acc ∈ accounts, ∃ c ∈ acc.2, c.denom = d)
  | [], b, _, _, _ => ⟨b, rfl, rfl, fun d => by simp, fun d _ => by simp⟩
  | acc :: accounts, b, h, hnodup, hrange => by
    obtain ⟨hload, hempty⟩ := h acc (by simp)
    obtain ⟨hnotin, hnodup⟩ := nodup_cons.mp hnodup
    rw [map_cons, sum_cons] at hrange
    have hloosen : 0 ≤ b.loosen := b.totalLoosenToken.amountOf_nonneg _
    have hiris := denomSum_nonneg (d := irisAtto) hload.nonneg
    have hrest : 0 ≤ (accounts.map (fun acc => denomSum irisAtto acc.2)).sum := by
      refine sum_nonneg (fun x hx => ?_)
      obtain ⟨acc', hacc', rfl⟩ := mem_map.mp hx
      exact denomSum_nonneg (h acc' (mem_cons_of_mem _ hacc')).1.nonneg
    rw [inRange_iff] at hrange
    obtain ⟨b1, cs, hb1, haccounts, hperm, hsupply, hloosen1⟩ :=
      hload.loadAccount (b := b) (by rw [inRange_iff]; omega)
    have hcoins : ∀ a, b1.getCoins a = (b.setCoins acc.1 cs).getCoins a := fun a => by
      rw [getCoins, haccounts]
      rfl
    have hlisted1 : ∀ d, b1.Listed d ↔ (b.setCoins acc.1 cs).Listed d := fun d => by
      simp only [Listed, mem_allCoins, hcoins]
    have hloosen1' : 0 ≤ b1.loosen := b1.totalLoosenToken.amountOf_nonneg _
    obtain ⟨b', hb', hsupply', hsum, hlisted⟩ := loadAccounts_ok accounts b1
      (fun acc' hacc' => by
        have hne : acc'.1 ≠ acc.1 := fun heq => hnotin (heq ▸ mem_map_of_mem hacc')
        refine ⟨(h acc' (mem_cons_of_mem _ hacc')).1, ?_⟩
        rw [hcoins, getCoins_setCoins, if_neg hne]
        exact (h acc' (mem_cons_of_mem _ hacc')).2)
      hnodup (by rw [inRange_iff]; omega)
    refine ⟨b', ?_, hsupply'.trans hsupply, fun d => ?_, fun d hd => ?_⟩
    · rw [foldlM_cons, hb1]
      exact hb'
    · have hset : b1.sumOf d = (b.setCoins acc.1 cs).sumOf d := by
        rw [sumOf, haccounts]
        rfl
      rw [hsum, hset, sumOf_setCoins_of_empty hempty, amountOf_eq,
        denomSum_perm _ hperm, denomSum_converted, map_cons, sum_cons, add_assoc]
    · have hmem : (∃ c ∈ cs.coins, c.denom = d) ↔ ∃ c ∈ acc.2, c.denom = d :=
        (exists_congr (fun c => and_congr_left' hperm.mem_iff)).trans
          (exists_denom_converted hd)
      rw [hlisted d hd, hlisted1, listed_setCoins hempty, hmem, exists_mem_cons_iff, or_assoc]

end

section
variable {b b' : Bank} {d : String} {coins : Coins}

def Tally (coins : Coins) (tsMap : Store String Coin) : Prop :=
  ∀ d, tsMap.get d = if isCounted d = true ∧ ∃ c ∈ coins, c.denom = d
    then some ⟨d, Coins.denomSum d coins⟩ else none

lemma Tally.countCoin {tsMap : Store String Coin} (h : Tally coins tsMap) (c : Coin) :
    Sat (fun _ => isCounted c.denom = true ∧ ¬InRange (denomSum c.denom (coins ++ [c])))
      (Tally (coins ++ [c])) (countCoin tsMap c) := by
  have hsum : ∀ d, denomSum d (coins ++ [c]) = denomSum d coins + c.amountIn d := by
    intro d
    rw [denomSum_append, denomSum_cons, denomSum_nil, add_zero]
  have hother : ∀ d, d ≠ c.denom → tsMap.get d = if isCounted d = true ∧
      ∃ c' ∈ coins ++ [c], c'.denom = d then some ⟨d, denomSum d (coins ++ [c])⟩ else none := by
    intro d hd
    rw [h d, hsum, amountIn_of_ne (Ne.symm hd), add_zero]
    have hmem : (∃ c' ∈ coins ++ [c], c'.denom = d) ↔ ∃ c' ∈ coins, c'.denom = d := by
      simp [or_and_right, exists_or, Ne.symm hd]
    simp only [hmem]
  unfold Bank.countCoin
  split_ifs with hcounted
  · have hnew : ∀ m : Store String Coin,
        m = tsMap.set c.denom ⟨c.denom, denomSum c.denom (coins ++ [c])⟩ →
        Tally (coins ++ [c]) m := by
      rintro m rfl d
      rw [get_set]
      split_ifs with hd hmem hmem
      · rw [hd]
      · exact absurd ⟨hd ▸ hcounted, c, by simp, hd.symm⟩ hmem
      · rw [hother d hd, if_pos hmem]
      · rw [hother d hd, if_neg hmem]
    have hget := h c.denom
    rw [hcounted] at hget
    have hself := hsum c.denom
    rw [amountIn, if_pos rfl] at hself
    split
    · rename_i hnone
      refine hnew _ ?_
      rw [hnone] at hget
      have hzero : denomSum c.denom coins = 0 :=
        denomSum_eq_zero (fun c' hc' heq => by
          rw [if_pos ⟨rfl, c', hc', heq⟩] at hget
          cases hget)
      rw [hself, hzero, zero_add]
    · rename_i total htotal
      have hcoin : total = ⟨c.denom, denomSum c.denom coins⟩ := by
        rw [htotal] at hget
        split_ifs at hget
        exact Option.some.inj hget
      rw [hcoin]
      cases hadd : c.add ⟨c.denom, denomSum c.denom coins⟩ with
      | error f =>
        refine ⟨hcounted, fun hrange => ?_⟩
        rw [hself, add_comm] at hrange
        rw [Coin.add, if_neg (by simp), add_eq_ok.mpr ⟨rfl, hrange⟩] at hadd
        cases hadd
      | ok r =>
        refine hnew _ ?_
        rw [(eq_of_add_ok hadd).2.1, hself, add_comm]
  · intro d
    by_cases hd : d = c.denom
    · rw [hd, h c.denom, if_neg (by simp [hcounted]), if_neg (by simp [hcounted])]
    · exact hother d hd

lemma foldlM_countCoin (hnn : ∀ c ∈ coins, 0 ≤ c.amount) :
    Sat (fun _ => ∃ d, isCounted d = true ∧ ¬InRange (denomSum d coins))
      (Tally coins) (coins.foldlM countCoin empty) := by
  have hloop : Sat (fun _ => ∃ d, isCounted d = true ∧ ¬InRange (denomSum d coins))
      (fun m => ∃ visited, coins = visited ++ [] ∧ Tally visited m)
      (coins.foldlM countCoin empty) := by
    refine Sat.foldlM_suffix
      (I := fun rest m => ∃ visited, coins = visited ++ rest ∧ Tally visited m)
      (fun c rest m => ?_) coins empty ⟨[], rfl, fun d => by simp⟩
    rintro ⟨visited, hcoins, htally⟩
    have hassoc : visited ++ c :: rest = (visited ++ [c]) ++ rest := by simp
    refine (htally.countCoin c).mono
      (fun _ hfault => ⟨c.denom, hfault.1, fun hrange => hfault.2 ?_⟩)
      (fun m' htally' => ⟨visited ++ [c], by rw [hcoins, hassoc], htally'⟩)
    rw [hcoins, hassoc, denomSum_append] at hrange
    rw [hcoins, hassoc] at hnn
    have hvisited := denomSum_nonneg (d := c.denom)
      (fun c' hc' => hnn c' (mem_append_left rest hc'))
    have hrest := denomSum_nonneg (d := c.denom)
      (fun c' hc' => hnn c' (mem_append_right (visited ++ [c]) hc'))
    rw [inRange_iff] at hrange ⊢
    omega
  refine hloop.imp (fun m hm => ?_)
  obtain ⟨visited, hcoins, htally⟩ := hm
  rw [hcoins, append_nil]
  exact htally

/-- Records that do not share a key with another denomination are as they were written. -/
lemma getTotalSupply_setAll {c : Coin} : ∀ (es : List (String × Coin)) (b : Bank),
    (∀ e ∈ es, totalSupplyStoreKey e.2.denom = totalSupplyStoreKey d → e.2 = c) →
    ((∃ e ∈ es, totalSupplyStoreKey e.2.denom = totalSupplyStoreKey d) →
      (es.foldl (fun b e => b.setTotalSupply e.2) b).getTotalSupply d = some c) ∧
    ((∀ e ∈ es, totalSupplyStoreKey e.2.denom ≠ totalSupplyStoreKey d) →
      (es.foldl (fun b e => b.setTotalSupply e.2) b).getTotalSupply d = b.getTotalSupply d)
  | [], b, _ => ⟨fun h => by simp at h, fun _ => rfl⟩
  | e :: es, b, h => by
    obtain ⟨hsome, hnone⟩ := getTotalSupply_setAll es (b.setTotalSupply e.2)
      (fun e' he' => h e' (mem_cons_of_mem _ he'))
    rw [foldl_cons]
    refine ⟨fun hex => ?_, fun hall => ?_⟩
    · by_cases hrest : ∃ e' ∈ es, totalSupplyStoreKey e'.2.denom = totalSupplyStoreKey d
      · exact hsome hrest
      · have hkey : totalSupplyStoreKey e.2.denom = totalSupplyStoreKey d := by
          obtain ⟨e', he', hkey⟩ := hex
          rcases mem_cons.mp he' with rfl | he'
          · exact hkey
          · exact absurd ⟨e', he', hkey⟩ hrest
        rw [hnone (fun e' he' hkey' => hrest ⟨e', he', hkey'⟩), getTotalSupply, setTotalSupply,
          hkey,
          get_set_self, h e (by simp) hkey]
    · rw [hnone (fun e' he' => hall e' (mem_cons_of_mem _ he')), getTotalSupply, setTotalSupply,
        get_set_ne _ _ (Ne.symm (hall e (by simp)))]
      rfl

/-- What `InitTotalSupply` records for a denomination that is apart from the others. -/
lemma initTotalSupply_spec (b : Bank) :
    Sat (fun _ => ∃ d, isCounted d = true ∧ ¬InRange (b.sumOf d))
      (fun b' => ∀ d, isCounted d = true → (∀ d', isCounted d' = true → b.Listed d' →
          totalSupplyStoreKey d' = totalSupplyStoreKey d → d' = d) →
        (b.Listed d → b'.getTotalSupply d = some ⟨d, b.sumOf d⟩) ∧
        (¬b.Listed d → b'.getTotalSupply d = b.getTotalSupply d)) b.initTotalSupply := by
  have hnn : ∀ c ∈ b.allCoins, 0 ≤ c.amount := by
    intro c hc
    obtain ⟨a, ha⟩ := mem_allCoins.mp hc
    exact (b.getCoins a).nonneg c ha
  have hcount := foldlM_countCoin hnn
  simp only [denomSum_allCoins] at hcount
  refine Sat.bind hcount (fun m htally => ?_)
  intro d hcounted hapart
  have hentry : ∀ e ∈ m.entries,
      isCounted e.1 = true ∧ b.Listed e.1 ∧ e.2 = ⟨e.1, b.sumOf e.1⟩ := by
    intro e he
    have hget := htally e.1
    rw [mem_entries.mp he] at hget
    split_ifs at hget with hcond
    rw [Option.some.injEq, denomSum_allCoins] at hget
    exact ⟨hcond.1, hcond.2, hget⟩
  obtain ⟨hsome, hnone⟩ := getTotalSupply_setAll (d := d) (c := ⟨d, b.sumOf d⟩) m.entries b
    (fun e he hkey => by
      obtain ⟨hc, hl, heq⟩ := hentry e he
      rw [heq] at hkey ⊢
      rw [hapart e.1 hc hl hkey])
  refine ⟨fun hlisted => hsome ?_, fun hlisted => hnone (fun e he hkey => ?_)⟩
  · have hget := htally d
    rw [if_pos ⟨hcounted, hlisted⟩] at hget
    exact ⟨_, mem_entries.mpr hget, rfl⟩
  · obtain ⟨hc, hl, heq⟩ := hentry e he
    rw [heq] at hkey
    rw [hapart e.1 hc hl hkey] at hl
    exact hlisted hl

end
end Irishub.Bank
