import Irishub.Types.IrisCoins

/-!
# Coin sets as functions of the denomination

A sorted set stands for the amounts of its denominations, and the merge is their pointwise sum.
-/

namespace Irishub.Coins
open Lib
variable {as bs cs ds r : Coins}

/-- A set in order whose amounts are values of `sdk.Int`. -/
structure Proper (cs : Coins) : Prop where
  sorted : Sorted cs
  inRange : ∀ c ∈ cs, SdkInt.InRange c.amount

lemma mem_of_denomSum_ne_zero {d : String} (hs : Sorted cs) (h : denomSum d cs ≠ 0) :
    ⟨d, denomSum d cs⟩ ∈ cs := by
  obtain ⟨c, hc, rfl⟩ : ∃ c ∈ cs, c.denom = d := by
    by_contra hnone
    push Not at hnone
    exact h (denomSum_eq_zero hnone)
  rw [denomSum_of_mem hs hc]
  exact hc

lemma amountOf_eq_getCoin (hs : Sorted cs) (d : String) :
    amountOf cs d = ((getCoin cs d).map Coin.amount).getD 0 := by
  rw [amountOf_eq_denomSum hs]
  cases h : getCoin cs d with
  | none => exact denomSum_eq_zero (by simpa [getCoin] using h)
  | some c =>
    obtain rfl : c.denom = d := by simpa using List.find?_some h
    exact denomSum_of_mem hs (List.mem_of_find?_eq_some h)

lemma Sorted.subset (hcs : Sorted cs) (hds : Sorted ds) (hc : ∀ c ∈ cs, c.amount ≠ 0)
    (h : ∀ d, denomSum d cs = denomSum d ds) : cs ⊆ ds := by
  intro c hmem
  have hsum : denomSum c.denom ds = c.amount := (h c.denom).symm.trans (denomSum_of_mem hcs hmem)
  have hin := mem_of_denomSum_ne_zero hds (hsum ▸ hc c hmem)
  rwa [hsum] at hin

lemma Sorted.ext (hcs : Sorted cs) (hds : Sorted ds) (hc : ∀ c ∈ cs, c.amount ≠ 0)
    (hd : ∀ d ∈ ds, d.amount ≠ 0) (h : ∀ d, denomSum d cs = denomSum d ds) : cs = ds := by
  have : Std.Irrefl (fun c c' : Coin => c.denom < c'.denom) := ⟨fun c => lt_irrefl c.denom⟩
  have : Std.Antisymm (fun c c' : Coin => c.denom < c'.denom) := ⟨fun _ _ h h' => absurd h h'.asymm⟩
  have hsub := hds.subset hcs hd (fun d => (h d).symm)
  exact List.Pairwise.eq_of_mem_iff hcs hds
    (fun _ => ⟨fun hmem => hcs.subset hds hc h hmem, fun hmem => hsub hmem⟩)

lemma Proper.negative (h : cs.Proper) : cs.negative.Proper := by
  refine ⟨h.sorted.negative, List.forall_mem_map.mpr (fun c hc => ?_)⟩
  have hrange := SdkInt.inRange_iff.mp (h.inRange c hc)
  exact SdkInt.inRange_iff.mpr ⟨neg_lt_neg hrange.2, neg_lt.mp hrange.1⟩

lemma Proper.safeAdd (has : as.Proper) (hbs : bs.Proper) (h : safeAdd as bs = .ok r) : r.Proper :=
  ⟨has.sorted.safeAdd hbs.sorted h, fun c hc =>
    (forall_safeAdd (fun _ hrange => hrange) has.inRange hbs.inRange h c hc).2⟩

lemma Proper.inRange_denomSum (h : cs.Proper) (d : String) : SdkInt.InRange (denomSum d cs) := by
  by_cases hzero : denomSum d cs = 0
  · rw [hzero]
    decide
  · exact h.inRange _ (mem_of_denomSum_ne_zero h.sorted hzero)

lemma Proper.safeAdd_cases (has : as.Proper) (hbs : bs.Proper) :
    (∃ r, Coins.safeAdd as bs = .ok r ∧ r.Proper) ∨ Coins.safeAdd as bs = raise .intOverflow ∧
      ∃ d, ¬ SdkInt.InRange (denomSum d as + denomSum d bs) := by
  refine (Coins.safeAdd_cases as (fun a ha b hb hd hrange => ⟨a.denom, ?_⟩)).imp_left
    (fun hok => hok.imp (fun r hr => ⟨hr, has.safeAdd hbs hr⟩))
  rwa [denomSum_of_mem has.sorted ha, hd, denomSum_of_mem hbs.sorted hb]

lemma Proper.safeAdd_eq (has : as.Proper) (hbs : bs.Proper) (hcs : cs.Proper) (hds : ds.Proper)
    (h : ∀ d, denomSum d as + denomSum d bs = denomSum d cs + denomSum d ds) :
    Coins.safeAdd as bs = Coins.safeAdd cs ds := by
  rcases has.safeAdd_cases hbs with ⟨r, hr, hpr⟩ | ⟨hr, d, hd⟩
  · rcases hcs.safeAdd_cases hds with ⟨r', hr', hpr'⟩ | ⟨_, d, hd⟩
    · rw [hr, hr', Sorted.ext hpr.sorted hpr'.sorted (nonzero_safeAdd hr) (nonzero_safeAdd hr')]
      intro d
      rw [denomSum_safeAdd d hr, denomSum_safeAdd d hr', h]
    · rw [← h, ← denomSum_safeAdd d hr] at hd
      exact absurd (hpr.inRange_denomSum d) hd
  · rcases hcs.safeAdd_cases hds with ⟨r', hr', hpr'⟩ | ⟨hr', _⟩
    · rw [h, ← denomSum_safeAdd d hr'] at hd
      exact absurd (hpr'.inRange_denomSum d) hd
    · rw [hr, hr']

lemma Proper.safeAdd_ok_iff (has : as.Proper) (hbs : bs.Proper) :
    (∃ r, Coins.safeAdd as bs = .ok r) ↔ ∀ d, SdkInt.InRange (denomSum d as + denomSum d bs) := by
  rcases has.safeAdd_cases hbs with ⟨r, hr, hpr⟩ | ⟨hr, d, hd⟩
  · refine ⟨fun _ d => ?_, fun _ => ⟨r, hr⟩⟩
    rw [← denomSum_safeAdd d hr]
    exact hpr.inRange_denomSum d
  · refine ⟨?_, fun h => absurd (h d) hd⟩
    rintro ⟨r, h⟩
    cases hr.symm.trans h

lemma Proper.add_panics_iff (has : as.Proper) (hbs : bs.Proper) :
    (∃ p, add as bs = raise p) ↔ ∃ d, denomSum d as + denomSum d bs < 0 ∨
      ¬ SdkInt.InRange (denomSum d as + denomSum d bs) := by
  unfold add
  rcases has.safeAdd_cases hbs with ⟨r, hr, hpr⟩ | ⟨hr, d, hd⟩ <;> rw [hr]
  · have hsign := isAnyNegative_eq_false hpr.sorted
    have hrange := hpr.inRange_denomSum
    simp only [← denomSum_safeAdd _ hr]
    cases hneg : isAnyNegative r with
    | false => simpa [assert, hneg, raise, hrange] using hsign.mp hneg
    | true => simpa [assert, hneg, raise, hrange] using hsign
  · exact ⟨fun _ => ⟨d, Or.inr hd⟩, fun _ => ⟨_, rfl⟩⟩

lemma sub_eq_add (as bs : Coins) : sub as bs = add as (negative bs) := by
  unfold sub safeSub add
  cases safeAdd as (negative bs) <;> rfl

lemma isAllGTE_iff (has : Sorted as) (hbs : Sorted bs) (ha : ∀ a ∈ as, 0 ≤ a.amount)
    (hb : ∀ b ∈ bs, 0 ≤ b.amount) : isAllGTE as bs = true ↔ ∀ d, denomSum d bs ≤ denomSum d as := by
  have hcoins : (∀ d, denomSum d bs ≤ denomSum d as) ↔
      ∀ b ∈ bs, b.amount ≤ denomSum b.denom as := by
    refine ⟨fun h b hmem => denomSum_of_mem hbs hmem ▸ h b.denom, fun h d => ?_⟩
    by_cases hzero : denomSum d bs = 0
    · rw [hzero]
      exact denomSum_nonneg ha
    · exact h _ (mem_of_denomSum_ne_zero hbs hzero)
  rw [hcoins]
  unfold isAllGTE isZero
  split_ifs with hbz haz
  · simp only [List.all_eq_true, decide_eq_true_eq] at hbz
    exact ⟨fun _ b hmem => (hbz b hmem).trans_le (denomSum_nonneg ha), fun _ => rfl⟩
  · -- zero coins do not cover a coin that is not zero
    simp only [List.all_eq_true, decide_eq_true_eq, not_forall] at hbz haz
    obtain ⟨b, hmem, hne⟩ := hbz
    refine ⟨fun h => h.elim, fun h => absurd (h b hmem) (not_le.mpr ?_)⟩
    have hzero : denomSum b.denom as = 0 :=
      by_contra (fun hsum => hsum (haz _ (mem_of_denomSum_ne_zero has hsum)))
    rw [hzero]
    exact lt_of_le_of_ne (hb b hmem) (Ne.symm hne)
  · simp [amountOf_eq_denomSum has]

lemma nonneg_of_isValid (h : isValid cs = true) : ∀ c ∈ cs, 0 ≤ c.amount := by
  intro c hc
  have hvalid := (sorted_of_isValid h).2 c hc
  simp only [Coin.isValid, Bool.and_eq_true, decide_eq_true_eq] at hvalid
  exact hvalid.1

lemma Proper.safeSub_of_isValid (hA : as.Proper) (hB : bs.Proper) (ha : isValid as = true)
    (hb : isValid bs = true) : ∃ diff, safeSub as bs = .ok (diff, !isAllGTE as bs) := by
  replace ha := nonneg_of_isValid ha
  replace hb := nonneg_of_isValid hb
  rcases hA.safeAdd_cases hB.negative with ⟨r, hr, hpr⟩ | ⟨_, d, hd⟩
  · have hsign := isAnyNegative_eq_false hpr.sorted
    simp only [denomSum_safeAdd _ hr, denomSum_negative, ← sub_eq_add_neg, sub_nonneg,
      ← isAllGTE_iff hA.sorted hB.sorted ha hb] at hsign
    refine ⟨r, ?_⟩
    unfold safeSub
    rw [hr, ok_bind]
    cases hneg : isAnyNegative r <;> simp_all
  · -- the difference of amounts that are not negative is in range
    have hrange := SdkInt.inRange_iff.mp (hA.inRange_denomSum d)
    have hrange' := SdkInt.inRange_iff.mp (hB.inRange_denomSum d)
    have hnn := denomSum_nonneg (d := d) ha
    have hnn' := denomSum_nonneg (d := d) hb
    rw [denomSum_negative, SdkInt.inRange_iff] at hd
    omega

/-- Coin sets are functions of the denomination: the merge is sorted, without zero coins, the
pointwise sum of the amounts, commutative and associative, and it returns exactly when these
sums fit an `sdk.Int`. `Add` and `Sub` panic exactly when an amount of the result is negative or
does not fit one. -/
theorem safeAdd_is_pointwise_sum (hA : as.Proper) (hB : bs.Proper) :
    (∀ r, safeAdd as bs = .ok r → Sorted r ∧ (∀ c ∈ r, c.amount ≠ 0) ∧
      ∀ d, amountOf r d = amountOf as d + amountOf bs d) ∧ safeAdd as bs = safeAdd bs as ∧
    (∀ cs ab bc, Proper cs → safeAdd as bs = .ok ab → safeAdd bs cs = .ok bc →
      safeAdd ab cs = safeAdd as bc) ∧
    ((∃ p, add as bs = raise p) ↔ ∃ d, amountOf as d + amountOf bs d < 0 ∨
      ¬ SdkInt.InRange (amountOf as d + amountOf bs d)) ∧
    ((∃ p, sub as bs = raise p) ↔ ∃ d, amountOf as d - amountOf bs d < 0 ∨
      ¬ SdkInt.InRange (amountOf as d - amountOf bs d)) ∧
    (∀ d, amountOf as d = ((getCoin as d).map Coin.amount).getD 0) ∧
    (isValid as = true → isValid bs = true →
      ∃ diff, safeSub as bs = .ok (diff, !isAllGTE as bs)) ∧
    ((∃ r, safeAdd as bs = .ok r) ↔ ∀ d, SdkInt.InRange (amountOf as d + amountOf bs d)) := by
  refine ⟨fun r hr => ?_, hA.safeAdd_eq hB hB hA (fun d => add_comm _ _),
    fun cs ab bc hC hab hbc => ?_, ?_, ?_, amountOf_eq_getCoin hA.sorted, hA.safeSub_of_isValid hB,
    ?_⟩
  · refine ⟨(hA.safeAdd hB hr).sorted, nonzero_safeAdd hr, fun d => ?_⟩
    rw [amountOf_eq_denomSum (hA.safeAdd hB hr).sorted, denomSum_safeAdd d hr,
      amountOf_eq_denomSum hA.sorted, amountOf_eq_denomSum hB.sorted]
  · refine (hA.safeAdd hB hab).safeAdd_eq hC hA (hB.safeAdd hC hbc) (fun d => ?_)
    rw [denomSum_safeAdd d hab, denomSum_safeAdd d hbc, add_assoc]
  · simp only [hA.add_panics_iff hB, amountOf_eq_denomSum hA.sorted, amountOf_eq_denomSum hB.sorted]
  · simp only [sub_eq_add, hA.add_panics_iff hB.negative, denomSum_negative, sub_eq_add_neg,
      amountOf_eq_denomSum hA.sorted, amountOf_eq_denomSum hB.sorted]
  · simp only [hA.safeAdd_ok_iff hB, amountOf_eq_denomSum hA.sorted, amountOf_eq_denomSum hB.sorted]

/-- Four denominations, of which one is in both sets and cancels. -/
theorem safeAdd_is_pointwise_sum_iris :
    safeAdd [⟨"btc-min", 3⟩, ⟨irisAtto, 5⟩, ⟨"usd-min", -1⟩] [⟨"eth-min", 2⟩, ⟨irisAtto, -5⟩] =
      .ok [⟨"btc-min", 3⟩, ⟨"eth-min", 2⟩, ⟨"usd-min", -1⟩] ∧
    ∀ d, amountOf [⟨"btc-min", 3⟩, ⟨"eth-min", 2⟩, ⟨"usd-min", -1⟩] d =
      amountOf [⟨"btc-min", 3⟩, ⟨irisAtto, 5⟩, ⟨"usd-min", -1⟩] d +
        amountOf [⟨"eth-min", 2⟩, ⟨irisAtto, -5⟩] d := by
  have hsum : safeAdd [⟨"btc-min", 3⟩, ⟨irisAtto, 5⟩, ⟨"usd-min", -1⟩]
      [⟨"eth-min", 2⟩, ⟨irisAtto, -5⟩] =
      .ok [⟨"btc-min", 3⟩, ⟨"eth-min", 2⟩, ⟨"usd-min", -1⟩] := by decide +kernel
  have hproper : Proper [⟨"btc-min", 3⟩, ⟨irisAtto, 5⟩, ⟨"usd-min", -1⟩] ∧
      Proper [⟨"eth-min", 2⟩, ⟨irisAtto, -5⟩] :=
    ⟨⟨by unfold Sorted; decide +kernel, by decide⟩, ⟨by unfold Sorted; decide +kernel, by decide⟩⟩
  have hproperties := safeAdd_is_pointwise_sum hproper.1 hproper.2
  exact ⟨hsum, (hproperties.1 _ hsum).2.2⟩

/-- Sum of two positive amounts panics when it does not fit an `sdk.Int`. -/
theorem add_overflows : add [⟨irisAtto, 2 ^ 255 - 1⟩] [⟨irisAtto, 1⟩] = raise .intOverflow ∧
      ∀ d, 0 ≤ amountOf [⟨irisAtto, 2 ^ 255 - 1⟩] d + amountOf [⟨irisAtto, 1⟩] d := by
  refine ⟨by decide +kernel, fun d => ?_⟩
  simp only [amountOf_eq_denomSum (sorted_singleton _), denomSum_cons, denomSum_nil, Coin.amountIn]
  split_ifs <;> norm_num

end Irishub.Coins
