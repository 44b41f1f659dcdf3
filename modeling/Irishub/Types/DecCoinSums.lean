import Irishub.Types.CoinGroup
import Irishub.Types.DecCoins

/-!
# Sums of decimal coins

`Plus` and `Minus` of decimal coins are the sum and the difference of the amounts
of each denomination, and `TruncateDecimal` splits an amount into whole coins and
change. All of them panic exactly when an amount leaves its range.

**Results**

* `decCoins_conserved`: value is conserved, or the operation panics.
* `plus_overflow`: a sum that does not exist.
-/

namespace Irishub.DecCoins
open Lib Coins List
variable {a : DecCoin} {as bs r : DecCoins}

/-- Coins with their amounts in units of `10 ^ (-10)`. -/
def inUnits (coins : DecCoins) : Coins := coins.map (fun c => ⟨c.denom, c.amount.raw⟩)

/-- `DecCoins.AmountOf`, the binary search of `Coins.AmountOf`. -/
def amountOf (coins : DecCoins) (denom : String) : Dec := ⟨Coins.amountOf coins.inUnits denom⟩

/-- Strictly increasing denominations. -/
def Sorted (coins : DecCoins) : Prop := coins.Pairwise (fun c c' => c.denom < c'.denom)

instance (coins : DecCoins) : Decidable coins.Sorted := inferInstanceAs (Decidable (Pairwise _ _))

/-- Sums of amounts of one denomination are in range. -/
def Fits (as bs : DecCoins) : Prop :=
  ∀ a ∈ as, ∀ b ∈ bs, a.denom = b.denom → Dec.InRange (a.amount.raw + b.amount.raw)

lemma raw_amountOf (h : as.Sorted) (d : String) : (as.amountOf d).raw = denomSum d as.inUnits :=
  amountOf_eq_denomSum (pairwise_map.mpr h)

/-- Coins of two sets in one set. -/
structure Merged (as bs r : DecCoins) : Prop where
  sums : ∀ d, denomSum d r.inUnits = denomSum d as.inUnits + denomSum d bs.inUnits
  denoms : ∀ c ∈ r, ∃ c' ∈ as ++ bs, c'.denom = c.denom
  sorted : as.Sorted → bs.Sorted → r.Sorted

lemma inUnits_cons (c : DecCoin) (cs : DecCoins) :
    inUnits (c :: cs) = ⟨c.denom, c.amount.raw⟩ :: cs.inUnits := rfl

/-- A coin below all others is put before them. -/
lemma Merged.cons {c : DecCoin} {as' bs' : DecCoins} (h : Merged as' bs' r)
    (hsums : ∀ d, denomSum d as.inUnits + denomSum d bs.inUnits =
      Coin.amountIn ⟨c.denom, c.amount.raw⟩ d + (denomSum d as'.inUnits + denomSum d bs'.inUnits))
    (hsub : as' ++ bs' ⊆ as ++ bs) (hc : ∃ c' ∈ as ++ bs, c'.denom = c.denom)
    (hsorted : as.Sorted → bs.Sorted →
      as'.Sorted ∧ bs'.Sorted ∧ ∀ x ∈ as' ++ bs', c.denom < x.denom) : Merged as bs (c :: r) := by
  refine ⟨fun d => ?_, ?_, fun has hbs => ?_⟩
  · rw [inUnits_cons, denomSum_cons, h.sums, hsums]
  · rintro x (_ | ⟨_, hx⟩)
    · exact hc
    · obtain ⟨x', hx', heq⟩ := h.denoms x hx
      exact ⟨x', hsub hx', heq⟩
  · obtain ⟨has', hbs', hlt⟩ := hsorted has hbs
    refine pairwise_cons.mpr ⟨fun x hx => ?_, h.sorted has' hbs'⟩
    obtain ⟨x', hx', heq⟩ := h.denoms x hx
    exact heq ▸ hlt x' hx'

lemma plusHead_merged {next : DecCoins → Outcome DecCoins}
    (hnext : ∀ bs, Fits as bs → ∃ r, next bs = .ok r ∧ Merged as bs r) :
    ∀ bs, Fits (a :: as) bs → ∃ r, plusHead a as next bs = .ok r ∧ Merged (a :: as) bs r
  | [], _ =>
    ⟨a :: as, rfl, by simp [inUnits], fun c hc => ⟨c, by simpa using hc, rfl⟩, fun h _ => h⟩
  | b :: bs, hfits => by
    have htail : ∀ {bs'}, bs' ⊆ b :: bs → Fits as bs' := fun hsub x hx y hy =>
      hfits x (mem_cons_of_mem _ hx) y (hsub hy)
    rw [plusHead]
    split_ifs with hlt heq
    · obtain ⟨r, hr, hm⟩ := hnext (b :: bs) (htail (Subset.refl _))
      refine ⟨a :: r, by rw [hr]; rfl, hm.cons ?_ (by simp) ⟨a, by simp, rfl⟩ ?_⟩
      · intro d
        rw [inUnits_cons a, denomSum_cons, add_assoc]
      · intro has hbs
        obtain ⟨hbelow, has⟩ := pairwise_cons.mp has
        refine ⟨has, hbs, fun x hx => ?_⟩
        simp only [mem_append, mem_cons] at hx
        rcases hx with hx | rfl | hx
        · exact hbelow x hx
        · exact hlt
        · exact hlt.trans ((pairwise_cons.mp hbs).1 x hx)
    · obtain ⟨r, hr, hm⟩ := hnext bs (htail (subset_cons_self _ _))
      have hadd : a.amount.add b.amount = .ok ⟨a.amount.raw + b.amount.raw⟩ :=
        Dec.add_eq_ok.mpr ⟨rfl, hfits a mem_cons_self b mem_cons_self heq⟩
      have hall : Merged (a :: as) (b :: bs) (⟨a.denom, ⟨a.amount.raw + b.amount.raw⟩⟩ :: r) := by
        refine hm.cons ?_ (by grind) ⟨a, by simp, rfl⟩ ?_
        · intro d
          rw [inUnits_cons, inUnits_cons, denomSum_cons, denomSum_cons, Coin.amountIn_add, heq]
          ring
        · intro has hbs
          obtain ⟨hbelow, has⟩ := pairwise_cons.mp has
          obtain ⟨hbelow', hbs⟩ := pairwise_cons.mp hbs
          exact ⟨has, hbs, fun x hx => (mem_append.mp hx).elim (hbelow x) (heq ▸ hbelow' x)⟩
      rw [hadd, ok_bind, hr, ok_bind]
      refine ⟨_, rfl, ?_⟩
      split_ifs with hzero
      · -- a sum that is zero adds nothing to the others
        refine ⟨fun d => ?_, fun c hc => hall.denoms c (mem_cons_of_mem _ hc), fun has hbs =>
          (pairwise_cons.mp (hall.sorted has hbs)).2⟩
        rw [← hall.sums, inUnits_cons, denomSum_cons, Coin.amountIn_of_zero, zero_add]
        simpa using hzero
      · exact hall
    · have hgt : b.denom < a.denom := lt_of_le_of_ne (not_lt.mp hlt) (Ne.symm heq)
      obtain ⟨r, hr, hm⟩ := plusHead_merged hnext bs (fun x hx y hy =>
        hfits x hx y (mem_cons_of_mem _ hy))
      refine ⟨b :: r, by rw [hr]; rfl, hm.cons ?_ (by grind) ⟨b, by simp, rfl⟩ ?_⟩
      · intro d
        rw [inUnits_cons b, denomSum_cons]
        ring
      · intro has hbs
        obtain ⟨hbelow, hbs⟩ := pairwise_cons.mp hbs
        refine ⟨has, hbs, fun x hx => ?_⟩
        simp only [mem_append, mem_cons] at hx
        rcases hx with (rfl | hx) | hx
        · exact hgt
        · exact hgt.trans ((pairwise_cons.mp has).1 x hx)
        · exact hbelow x hx

lemma plus_merged : ∀ {as bs : DecCoins}, Fits as bs → ∃ r, plus as bs = .ok r ∧ Merged as bs r
  | [], bs, _ => ⟨bs, rfl, by simp [inUnits], fun c hc => ⟨c, by simpa using hc, rfl⟩, fun _ h => h⟩
  | _ :: _, bs, h => plusHead_merged (fun _ => plus_merged) bs h

/-- The merge meets every two coins of one denomination. -/
lemma plusHead_of_not_fits {next : DecCoins → Outcome DecCoins} (has : Sorted (a :: as))
    (hnext : ∀ bs, bs.Sorted → ¬Fits as bs → next bs = raise .intOverflow) :
    ∀ bs, bs.Sorted → ¬Fits (a :: as) bs → plusHead a as next bs = raise .intOverflow
  | [], _, h => absurd (fun _ _ _ hb => absurd hb not_mem_nil) h
  | b :: bs, hbs, h => by
    obtain ⟨habove, _⟩ := pairwise_cons.mp has
    obtain ⟨hbove, hbs'⟩ := pairwise_cons.mp hbs
    rw [plusHead]
    split_ifs with hlt heq
    · -- no coin of the second set has the denomination of `a`
      have hrest : ¬Fits as (b :: bs) := by
        refine fun hfits => h (fun x hx y hy hxy => ?_)
        rcases mem_cons.mp hx with rfl | hx
        · rcases mem_cons.mp hy with rfl | hy
          · exact absurd hxy hlt.ne
          · exact absurd hxy (hlt.trans (hbove y hy)).ne
        · exact hfits x hx y hy hxy
      rw [hnext (b :: bs) hbs hrest]
      rfl
    · by_cases hrange : Dec.InRange (a.amount.raw + b.amount.raw)
      · have hrest : ¬Fits as bs := by
          refine fun hfits => h (fun x hx y hy hxy => ?_)
          rcases mem_cons.mp hx with rfl | hx
          · rcases mem_cons.mp hy with rfl | hy
            · exact hrange
            · exact absurd hxy (heq ▸ hbove y hy).ne
          · rcases mem_cons.mp hy with rfl | hy
            · exact absurd hxy (heq ▸ habove x hx).ne'
            · exact hfits x hx y hy hxy
        rw [Dec.add_eq_ok.mpr ⟨rfl, hrange⟩, ok_bind, hnext bs hbs' hrest]
        rfl
      · have hadd : a.amount.add b.amount = raise .intOverflow := if_pos (not_le.mp hrange)
        rw [hadd]
        rfl
    · have hgt : b.denom < a.denom := lt_of_le_of_ne (not_lt.mp hlt) (Ne.symm heq)
      have hrest : ¬Fits (a :: as) bs := by
        refine fun hfits => h (fun x hx y hy hxy => ?_)
        rcases mem_cons.mp hy with rfl | hy
        · rcases mem_cons.mp hx with rfl | hx
          · exact absurd hxy heq
          · exact absurd hxy (hgt.trans (habove x hx)).ne'
        · exact hfits x hx y hy hxy
      rw [plusHead_of_not_fits has hnext bs hbs' hrest]
      rfl

lemma plus_of_not_fits : ∀ {as bs : DecCoins}, as.Sorted → bs.Sorted → ¬Fits as bs →
    plus as bs = raise .intOverflow
  | [], _, _, _, h => absurd (fun _ ha => absurd ha not_mem_nil) h
  | _ :: _, bs, has, hbs, h => plusHead_of_not_fits has
      (fun _ hbs h => plus_of_not_fits (pairwise_cons.mp has).2 hbs h) bs hbs h

lemma plus_singleton {b : DecCoin} : ∀ {as : DecCoins}, (∀ a ∈ as, a.denom < b.denom) →
    plus as [b] = .ok (as ++ [b])
  | [], _ => rfl
  | a :: as, h => by
    rw [plus, plusHead, if_pos (h a mem_cons_self),
      plus_singleton (fun x hx => h x (mem_cons_of_mem _ hx))]
    rfl

/-- An amount without its fraction, and the fraction. -/
def whole (c : DecCoin) : Coin := ⟨c.denom, c.amount.raw / Dec.precision⟩

def fraction (c : DecCoin) : DecCoin := ⟨c.denom, ⟨c.amount.raw % Dec.precision⟩⟩

lemma fraction_bounds (c : DecCoin) :
    0 ≤ (fraction c).amount.raw ∧ (fraction c).amount.raw < Dec.precision :=
  ⟨Int.emod_nonneg _ Dec.precision_pos.ne', Int.emod_lt_of_pos _ Dec.precision_pos⟩

lemma truncateDecimal_coin (hnonneg : 0 ≤ a.amount.raw)
    (hrange : SdkInt.InRange (a.amount.raw / Dec.precision)) :
    a.truncateDecimal = .ok (whole a, fraction a) := by
  have htruncate : a.amount.truncateInt = .ok (a.amount.raw / Dec.precision) := by
    rw [Dec.truncateInt, Dec.chopPrecisionAndTruncate, Int.tdiv_eq_ediv_of_nonneg hnonneg]
    exact SdkInt.newIntFromBigInt_ok.mpr ⟨rfl, hrange⟩
  have hsub : a.amount.sub (.newDecFromInt (a.amount.raw / Dec.precision)) =
      .ok (fraction a).amount := by
    have hfraction : a.amount.raw - a.amount.raw / Dec.precision * Dec.precision =
        (fraction a).amount.raw :=
      sub_eq_iff_eq_add'.mpr (Int.ediv_mul_add_emod _ _).symm
    refine Dec.sub_eq_ok.mpr ⟨hfraction.symm, ?_⟩
    have hbounds := fraction_bounds a
    rw [Dec.newDecFromInt_raw, hfraction, Dec.inRange_iff]
    have hlarge : Dec.precision < 2 ^ 289 :=
      lt_of_lt_of_le (by decide : Dec.precision < 2 ^ 34)
        (pow_le_pow_right₀ (by decide) (by decide))
    exact ⟨lt_of_lt_of_le (neg_neg_of_pos (by positivity)) hbounds.1, hbounds.2.trans hlarge⟩
  have hcoin : Coin.newCoin a.denom (a.amount.raw / Dec.precision) = .ok (whole a) :=
    if_neg (not_lt.mpr (Int.ediv_nonneg hnonneg Dec.precision_pos.le))
  rw [DecCoin.truncateDecimal, htruncate, ok_bind, hsub, ok_bind, hcoin, ok_bind]
  rfl

lemma truncateDecimal_coin_overflow (hnonneg : 0 ≤ a.amount.raw)
    (hrange : ¬SdkInt.InRange (a.amount.raw / Dec.precision)) :
    a.truncateDecimal = raise .intOutOfBound := by
  have htruncate : a.amount.truncateInt = raise .intOutOfBound := by
    rw [Dec.truncateInt, Dec.chopPrecisionAndTruncate, Int.tdiv_eq_ediv_of_nonneg hnonneg]
    exact if_pos (not_le.mp hrange)
  rw [DecCoin.truncateDecimal, htruncate]
  rfl

/-- Body of the loop of `TruncateDecimal`. -/
def truncateStep (acc : Coins × DecCoins) (coin : DecCoin) : Outcome (Coins × DecCoins) := do
  let (truncated, change) ← coin.truncateDecimal
  return (acc.1 ++ [truncated], ← plus acc.2 [change])

lemma truncateStep_ok {b : DecCoin} (hbelow : ∀ c ∈ as, c.denom < b.denom)
    (hnonneg : 0 ≤ b.amount.raw) (hrange : SdkInt.InRange (b.amount.raw / Dec.precision)) :
    truncateStep (as.map whole, as.map fraction) b =
      .ok ((as ++ [b]).map whole, (as ++ [b]).map fraction) := by
  have hplus : plus (as.map fraction) [fraction b] = .ok (as.map fraction ++ [fraction b]) :=
    plus_singleton (forall_mem_map.mpr hbelow)
  rw [truncateStep, truncateDecimal_coin hnonneg hrange, ok_bind]
  dsimp only
  rw [hplus, ok_bind, pure_ok]
  simp

lemma foldlM_truncateStep : ∀ (as bs : DecCoins), (as ++ bs).Sorted →
    (∀ c ∈ bs, 0 ≤ c.amount.raw) → (∀ c ∈ bs, SdkInt.InRange (c.amount.raw / Dec.precision)) →
    bs.foldlM truncateStep (as.map whole, as.map fraction) =
      .ok ((as ++ bs).map whole, (as ++ bs).map fraction)
  | as, [], _, _, _ => by simp
  | as, b :: bs, hsorted, hnonneg, hrange => by
    have hbelow : ∀ c ∈ as, c.denom < b.denom := fun c hc =>
      (pairwise_append.mp hsorted).2.2 c hc b mem_cons_self
    have hrest := foldlM_truncateStep (as ++ [b]) bs (by simpa using hsorted)
      (fun c hc => hnonneg c (mem_cons_of_mem _ hc)) (fun c hc => hrange c (mem_cons_of_mem _ hc))
    rw [foldlM_cons, truncateStep_ok hbelow (hnonneg b mem_cons_self) (hrange b mem_cons_self),
      ok_bind]
    simpa using hrest

lemma foldlM_truncateStep_overflow : ∀ (as bs : DecCoins), (as ++ bs).Sorted →
    (∀ c ∈ bs, 0 ≤ c.amount.raw) →
    (¬∀ c ∈ bs, SdkInt.InRange (c.amount.raw / Dec.precision)) →
    bs.foldlM truncateStep (as.map whole, as.map fraction) = raise .intOutOfBound
  | _, [], _, _, h => absurd (fun _ hc => absurd hc not_mem_nil) h
  | as, b :: bs, hsorted, hnonneg, h => by
    rw [foldlM_cons]
    by_cases hb : SdkInt.InRange (b.amount.raw / Dec.precision)
    · have hbelow : ∀ c ∈ as, c.denom < b.denom := fun c hc =>
        (pairwise_append.mp hsorted).2.2 c hc b mem_cons_self
      rw [truncateStep_ok hbelow (hnonneg b mem_cons_self) hb, ok_bind]
      refine foldlM_truncateStep_overflow (as ++ [b]) bs (by simpa using hsorted)
        (fun c hc => hnonneg c (mem_cons_of_mem _ hc)) (fun hall => h (fun c hc => ?_))
      exact (mem_cons.mp hc).elim (fun heq => heq ▸ hb) (hall c)
    · rw [truncateStep, truncateDecimal_coin_overflow (hnonneg b mem_cons_self) hb]
      rfl

lemma denomSum_whole (d : String) (as : DecCoins) :
    denomSum d (as.map whole) * Dec.precision + denomSum d (inUnits (as.map fraction)) =
      denomSum d as.inUnits := by
  induction as with
  | nil => rfl
  | cons a as ih =>
    have hsplit := Int.ediv_mul_add_emod a.amount.raw Dec.precision
    rw [map_cons, map_cons, inUnits_cons, inUnits_cons, denomSum_cons, denomSum_cons, denomSum_cons,
      ← ih]
    by_cases hd : a.denom = d <;>
      simp only [Coin.amountIn, whole, fraction, hd, if_true, if_false] <;>
      linarith

/-- What `Plus`, `Minus` and `TruncateDecimal` return and when they panic. -/
structure Conserved (A B : DecCoins) : Prop where
  plus : A.Fits B → ∃ r, A.plus B = .ok r ∧ r.Sorted ∧
    ∀ d, (r.amountOf d).raw = (A.amountOf d).raw + (B.amountOf d).raw
  plus_panics : ¬A.Fits B → A.plus B = raise .intOverflow
  minus : A.Fits B.negative → ∃ r, A.minus B = .ok r ∧ r.Sorted ∧
    ∀ d, (r.amountOf d).raw = (A.amountOf d).raw - (B.amountOf d).raw
  minus_panics : ¬A.Fits B.negative → A.minus B = raise .intOverflow
  truncate : (∀ c ∈ A, 0 ≤ c.amount.raw) →
    (∀ c ∈ A, SdkInt.InRange (c.amount.raw / Dec.precision)) →
    ∃ coins change, A.truncateDecimal = .ok (coins, change) ∧
      ∀ d, Coins.amountOf coins d * Dec.precision + (change.amountOf d).raw = (A.amountOf d).raw ∧
        0 ≤ (change.amountOf d).raw ∧ (change.amountOf d).raw < Dec.precision
  truncate_panics : (∀ c ∈ A, 0 ≤ c.amount.raw) →
    (¬∀ c ∈ A, SdkInt.InRange (c.amount.raw / Dec.precision)) →
    A.truncateDecimal = raise .intOutOfBound

/-- Sums, differences and truncation conserve the amount of every denomination, and panic when an
amount leaves its range. -/
theorem decCoins_conserved (A B : DecCoins) (hA : A.Sorted) (hB : B.Sorted) : Conserved A B := by
  have hnegative : B.negative.Sorted := pairwise_map.mpr hB
  refine ⟨fun hfits => ?_, plus_of_not_fits hA hB, fun hfits => ?_, plus_of_not_fits hA hnegative,
    fun hnonneg hrange => ?_, foldlM_truncateStep_overflow [] A hA⟩
  · obtain ⟨r, hr, hm⟩ := plus_merged hfits
    have hs := hm.sorted hA hB
    exact ⟨r, hr, hs, fun d => by rw [raw_amountOf hs, raw_amountOf hA, raw_amountOf hB, hm.sums]⟩
  · obtain ⟨r, hr, hm⟩ := plus_merged hfits
    have hs := hm.sorted hA hnegative
    have hunits : inUnits B.negative = Coins.negative B.inUnits := by
      simp [inUnits, negative, Coins.negative, Dec.neg, Function.comp_def]
    refine ⟨r, hr, hs, fun d => ?_⟩
    rw [raw_amountOf hs, raw_amountOf hA, raw_amountOf hB, hm.sums, hunits, denomSum_negative]
    ring
  · have hchange : Sorted (A.map fraction) := pairwise_map.mpr hA
    have hcoins : Coins.Sorted (A.map whole) := pairwise_map.mpr hA
    refine ⟨_, _, foldlM_truncateStep [] A hA hnonneg hrange, fun d => ⟨?_, ?_⟩⟩
    · rw [nil_append, raw_amountOf hchange, raw_amountOf hA, amountOf_eq_denomSum hcoins]
      exact denomSum_whole d A
    · rw [nil_append, raw_amountOf hchange]
      by_cases hzero : denomSum d (inUnits (A.map fraction)) = 0
      · rw [hzero]
        exact ⟨le_rfl, Dec.precision_pos⟩
      · have hmem : ⟨d, denomSum d (inUnits (A.map fraction))⟩ ∈ inUnits (A.map fraction) :=
          mem_of_denomSum_ne_zero (pairwise_map.mpr hchange) hzero
        obtain ⟨_, hmap, heq⟩ := mem_map.mp hmem
        obtain ⟨c, _, rfl⟩ := mem_map.mp hmap
        rw [← (Coin.mk.inj heq).2]
        exact fraction_bounds c

/-- Three coins and two, with one denomination in common whose amounts cancel in the difference:
sum, difference and truncation. -/
theorem decCoins_conserved_sample :
    Conserved [⟨"btc", ⟨7⟩⟩, ⟨"eth", ⟨3 * 10 ^ 10⟩⟩, ⟨"iris", ⟨25000000000⟩⟩]
      [⟨"eth", ⟨3 * 10 ^ 10⟩⟩, ⟨"fox", ⟨1⟩⟩] ∧
    plus [⟨"btc", ⟨7⟩⟩, ⟨"eth", ⟨3 * 10 ^ 10⟩⟩, ⟨"iris", ⟨25000000000⟩⟩]
      [⟨"eth", ⟨3 * 10 ^ 10⟩⟩, ⟨"fox", ⟨1⟩⟩] =
      .ok [⟨"btc", ⟨7⟩⟩, ⟨"eth", ⟨6 * 10 ^ 10⟩⟩, ⟨"fox", ⟨1⟩⟩, ⟨"iris", ⟨25000000000⟩⟩] ∧
    minus [⟨"btc", ⟨7⟩⟩, ⟨"eth", ⟨3 * 10 ^ 10⟩⟩, ⟨"iris", ⟨25000000000⟩⟩]
      [⟨"eth", ⟨3 * 10 ^ 10⟩⟩, ⟨"fox", ⟨1⟩⟩] =
      .ok [⟨"btc", ⟨7⟩⟩, ⟨"fox", ⟨-1⟩⟩, ⟨"iris", ⟨25000000000⟩⟩] ∧
    truncateDecimal [⟨"btc", ⟨7⟩⟩, ⟨"eth", ⟨3 * 10 ^ 10⟩⟩, ⟨"iris", ⟨25000000000⟩⟩] =
      .ok ([⟨"btc", 0⟩, ⟨"eth", 3⟩, ⟨"iris", 2⟩],
        [⟨"btc", ⟨7⟩⟩, ⟨"eth", ⟨0⟩⟩, ⟨"iris", ⟨5000000000⟩⟩]) :=
  ⟨decCoins_conserved _ _ (by decide) (by decide), by decide +kernel, by decide +kernel,
    by decide +kernel⟩

/-- Largest decimal and one unit have no sum. -/
theorem plus_overflow :
    Sorted [⟨"iris", ⟨2 ^ 289 - 1⟩⟩] ∧ Sorted [⟨"iris", ⟨1⟩⟩] ∧
      plus [⟨"iris", ⟨2 ^ 289 - 1⟩⟩] [⟨"iris", ⟨1⟩⟩] = raise .intOverflow :=
  ⟨by decide, by decide, by decide +kernel⟩

end Irishub.DecCoins
