import Irishub.Types.Coin

/-!
# What an operation on coins does to its operands

`removeZeroCoins` works on the array of its argument, and `safeAdd` hands it the rest of whichever
set is left over; `NewCoins` also sorts that array. `arraysAfter` follows `safeAdd` and gives
the arrays of both sets when it ends, by a return or by the panic of an amount that does not
fit.
-/

namespace Irishub
open Lib List

namespace Coins

/-- Inner part of `arraysAfter`, with the branches of `mergeHead`. -/
def arraysAfterHead (a : Coin) (as : Coins) (next : Coins → Coins × Coins) : Coins → Coins × Coins
  | [] => (overwriteZeroCoins (a :: as) [], [])
  | b :: bs =>
    if a.denom < b.denom then
      let (restA, restB) := next (b :: bs)
      (a :: restA, restB)
    else if a.denom = b.denom then
      match a.add b with
      | .ok _ =>
        let (restA, restB) := next bs
        (a :: restA, b :: restB)
      -- the sum does not fit: `safeAdd` panics before it removes anything
      | .error _ => (a :: as, b :: bs)
    else
      let (restA, restB) := arraysAfterHead a as next bs
      (restA, b :: restB)

/-- Arrays of both sets when `safeAdd` ends. -/
def arraysAfter : Coins → Coins → Coins × Coins
  | [], bs => ([], overwriteZeroCoins bs [])
  | a :: as, bs => arraysAfterHead a as (arraysAfter as) bs

/-- Array of the arguments when `NewCoins` ends. -/
def afterNewCoins (cs : Coins) : Coins :=
  let array := overwriteZeroCoins cs []
  let kept := (removeZeroCoins cs).length
  sort (array.take kept) ++ array.drop kept

/-- Operations on two sets of coins; `newCoins` takes the first set only. -/
inductive SetCall where
  | add
  | safeAdd
  | sub
  | safeSub
  | newCoins
  deriving DecidableEq

/-- Slices of the caller when the operation ends. A subtraction works on a fresh
`negative` of its second set. -/
def SetCall.operandsAfter (as bs : Coins) : SetCall → Coins × Coins
  | add => arraysAfter as bs
  | safeAdd => arraysAfter as bs
  | sub => ((arraysAfter as (negative bs)).1, bs)
  | safeSub => ((arraysAfter as (negative bs)).1, bs)
  | newCoins => (afterNewCoins as, bs)

/-- Coins of `as` beyond every coin of `bs`. -/
def beyond (as bs : Coins) : Coins := as.filter (fun a => ∀ b ∈ bs, b.denom < a.denom)

def ZeroOnlyLast (cs : Coins) : Prop := ∀ c ∈ cs.dropLast, c.amount ≠ 0

def SumOverflows (as bs : Coins) : Prop :=
  ∃ a ∈ as, ∃ b ∈ bs, a.denom = b.denom ∧ ¬SdkInt.InRange (a.amount + b.amount)

instance (cs : Coins) : Decidable (ZeroOnlyLast cs) :=
  inferInstanceAs (Decidable (∀ c ∈ cs.dropLast, c.amount ≠ 0))

/-- Condition under which an operation leaves the slices of its caller as they were. -/
def SetCall.LeavesOperands (as bs : Coins) : SetCall → Prop
  | add => SumOverflows as bs ∨ ZeroOnlyLast (beyond as bs) ∧ ZeroOnlyLast (beyond bs as)
  | safeAdd => SumOverflows as bs ∨ ZeroOnlyLast (beyond as bs) ∧ ZeroOnlyLast (beyond bs as)
  | sub => SumOverflows as (negative bs) ∨ ZeroOnlyLast (beyond as bs)
  | safeSub => SumOverflows as (negative bs) ∨ ZeroOnlyLast (beyond as bs)
  | newCoins => ZeroOnlyLast as

section
variable {cs : Coins}

lemma overwriteZeroCoins_eq_append (cs freed : Coins) :
    ∃ rest, overwriteZeroCoins cs freed = removeZeroCoins cs ++ rest := by
  induction cs generalizing freed with
  | nil => exact ⟨freed, rfl⟩
  | cons c cs ih =>
    by_cases hc : c.amount = 0
    · obtain ⟨rest, hrest⟩ := ih (cs.getLastD c :: freed)
      exact ⟨rest, by simpa [overwriteZeroCoins, removeZeroCoins, hc] using hrest⟩
    · obtain ⟨rest, hrest⟩ := ih freed
      refine ⟨rest, ?_⟩
      rw [overwriteZeroCoins, if_neg hc, hrest]
      simp [removeZeroCoins, hc]

lemma zeroOnlyLast_cons {c : Coin} (hcs : cs ≠ []) :
    ZeroOnlyLast (c :: cs) ↔ c.amount ≠ 0 ∧ ZeroOnlyLast cs := by
  unfold ZeroOnlyLast
  rw [dropLast_cons_of_ne_nil hcs, forall_mem_cons]

lemma zeroOnlyLast_nil : ZeroOnlyLast [] := by simp [ZeroOnlyLast]

/-- Array of a sorted set survives exactly when no zero coin has a coin behind it. -/
lemma overwriteZeroCoins_eq_self_iff (h : Sorted cs) :
    overwriteZeroCoins cs [] = cs ↔ ZeroOnlyLast cs := by
  induction cs with
  | nil => exact iff_of_true rfl zeroOnlyLast_nil
  | cons c cs ih =>
    by_cases hcs : cs = []
    · subst hcs
      exact iff_of_true (by by_cases hc : c.amount = 0 <;> simp [overwriteZeroCoins, hc])
        (by simp [ZeroOnlyLast])
    · rw [zeroOnlyLast_cons hcs, overwriteZeroCoins]
      split_ifs with hc
      · refine iff_of_false (fun heq => ?_) (fun hz => hz.1 hc)
        exact not_sorted_overwriteZeroCoins hcs c [] (heq ▸ h)
      · simp only [List.cons.injEq, true_and, ih (sorted_cons.mp h).2, ne_eq, hc, not_false_eq_true]

lemma afterNewCoins_of_sorted (h : Sorted cs) : afterNewCoins cs = overwriteZeroCoins cs [] := by
  obtain ⟨rest, hrest⟩ := overwriteZeroCoins_eq_append cs []
  have hsort : sort (removeZeroCoins cs) = removeZeroCoins cs :=
    List.Pairwise.insertionSort_eq (h.removeZeroCoins.imp le_of_lt)
  unfold afterNewCoins
  simp only [hrest, take_left, drop_left, hsort]

end

section
variable {a b : Coin} {as bs : Coins} {after : Coins × Coins}

lemma beyond_cons_of_not (h : ∃ b ∈ bs, ¬b.denom < a.denom) :
    beyond (a :: as) bs = beyond as bs := by
  obtain ⟨b, hb, hlt⟩ := h
  refine filter_cons_of_neg ?_
  rw [decide_eq_true_eq]
  exact fun hall => hlt (hall b hb)

lemma beyond_cons_right (h : ∀ a ∈ as, b.denom < a.denom) : beyond as (b :: bs) = beyond as bs := by
  refine filter_congr (fun a ha => ?_)
  rw [decide_eq_decide, forall_mem_cons, and_iff_right (h a ha)]

lemma beyond_negative (as bs : Coins) : beyond as (negative bs) = beyond as bs := by
  simp [beyond, negative]

lemma sumOverflows_cons_left (h : ∀ b ∈ bs, a.denom ≠ b.denom) :
    SumOverflows (a :: as) bs ↔ SumOverflows as bs := by
  unfold SumOverflows
  rw [exists_mem_cons_iff, or_iff_right]
  rintro ⟨b, hb, heq, -⟩
  exact h b hb heq

lemma sumOverflows_cons_right (h : ∀ a ∈ as, a.denom ≠ b.denom) :
    SumOverflows as (b :: bs) ↔ SumOverflows as bs := by
  unfold SumOverflows
  refine exists_congr (fun a => and_congr_right (fun ha => ?_))
  rw [exists_mem_cons_iff, or_iff_right]
  rintro ⟨heq, -⟩
  exact h a ha heq

/-- Arrays `after` differ from the sets exactly where zero coins were overwritten. -/
def LeftOver (as bs : Coins) (after : Coins × Coins) : Prop :=
  (after.1 = as ↔ SumOverflows as bs ∨ ZeroOnlyLast (beyond as bs)) ∧
    (after.2 = bs ↔ SumOverflows as bs ∨ ZeroOnlyLast (beyond bs as))

lemma LeftOver.lt (hlt : a.denom < b.denom)
    (hbs : Sorted (b :: bs)) (h : LeftOver as (b :: bs) after) :
    LeftOver (a :: as) (b :: bs) (a :: after.1, after.2) := by
  have hbelow : ∀ c ∈ b :: bs, a.denom < c.denom :=
    forall_mem_cons.mpr ⟨hlt, fun c hc => hlt.trans ((sorted_cons.mp hbs).1 c hc)⟩
  have hover : SumOverflows (a :: as) (b :: bs) ↔ SumOverflows as (b :: bs) :=
    sumOverflows_cons_left (fun c hc => (hbelow c hc).ne)
  have hleft : beyond (a :: as) (b :: bs) = beyond as (b :: bs) :=
    beyond_cons_of_not ⟨b, by simp, hlt.le.not_gt⟩
  have hright : beyond (b :: bs) (a :: as) = beyond (b :: bs) as := beyond_cons_right hbelow
  unfold LeftOver at h ⊢
  rw [hover, hleft, hright]
  simpa using h

lemma LeftOver.gt (hgt : b.denom < a.denom)
    (has : Sorted (a :: as)) (h : LeftOver (a :: as) bs after) :
    LeftOver (a :: as) (b :: bs) (after.1, b :: after.2) := by
  have habove : ∀ c ∈ a :: as, b.denom < c.denom :=
    forall_mem_cons.mpr ⟨hgt, fun c hc => hgt.trans ((sorted_cons.mp has).1 c hc)⟩
  have hover : SumOverflows (a :: as) (b :: bs) ↔ SumOverflows (a :: as) bs :=
    sumOverflows_cons_right (fun c hc => (habove c hc).ne')
  have hleft : beyond (a :: as) (b :: bs) = beyond (a :: as) bs := beyond_cons_right habove
  have hright : beyond (b :: bs) (a :: as) = beyond bs (a :: as) :=
    beyond_cons_of_not ⟨a, by simp, hgt.le.not_gt⟩
  unfold LeftOver at h ⊢
  rw [hover, hleft, hright]
  simpa using h

lemma LeftOver.eq (heq : a.denom = b.denom)
    (hfit : SdkInt.InRange (a.amount + b.amount)) (has : Sorted (a :: as))
    (hbs : Sorted (b :: bs)) (h : LeftOver as bs after) :
    LeftOver (a :: as) (b :: bs) (a :: after.1, b :: after.2) := by
  have has' := (sorted_cons.mp has).1
  have hbs' := (sorted_cons.mp hbs).1
  have hover : SumOverflows (a :: as) (b :: bs) ↔ SumOverflows as bs := by
    have htail : SumOverflows as (b :: bs) ↔ SumOverflows as bs :=
      sumOverflows_cons_right (fun c hc => heq ▸ (has' c hc).ne')
    rw [← htail]
    unfold SumOverflows
    rw [exists_mem_cons_iff, or_iff_right]
    rintro ⟨c, hc, hac, hover⟩
    rcases mem_cons.mp hc with rfl | hc
    · exact hover hfit
    · exact (heq ▸ hbs' c hc).ne hac
  have hleft : beyond (a :: as) (b :: bs) = beyond as bs :=
    (beyond_cons_of_not ⟨b, by simp, heq ▸ lt_irrefl _⟩).trans
      (beyond_cons_right (fun c hc => heq ▸ has' c hc))
  have hright : beyond (b :: bs) (a :: as) = beyond bs as :=
    (beyond_cons_of_not ⟨a, by simp, heq ▸ lt_irrefl _⟩).trans
      (beyond_cons_right (fun c hc => heq ▸ hbs' c hc))
  unfold LeftOver at h ⊢
  rw [hover, hleft, hright]
  simpa using h

lemma leftOver_nil_left (hbs : Sorted bs) : LeftOver [] bs (arraysAfter [] bs) := by
  simp [LeftOver, arraysAfter, SumOverflows, zeroOnlyLast_nil, beyond,
    overwriteZeroCoins_eq_self_iff hbs]

lemma leftOver_nil_right (has : Sorted as) : LeftOver as [] (overwriteZeroCoins as [], []) := by
  simp [LeftOver, SumOverflows, zeroOnlyLast_nil, beyond, overwriteZeroCoins_eq_self_iff has]

lemma leftOver_arraysAfterHead {next : Coins → Coins × Coins} (has : Sorted (a :: as))
    (hnext : ∀ bs, Sorted bs → LeftOver as bs (next bs)) (hbs : Sorted bs) :
    LeftOver (a :: as) bs (arraysAfterHead a as next bs) := by
  induction bs with
  | nil => exact leftOver_nil_right has
  | cons b bs ih =>
    have hbs' := (sorted_cons.mp hbs).2
    rw [arraysAfterHead]
    split_ifs with hlt heq
    · exact (hnext _ hbs).lt hlt hbs
    · by_cases hfit : SdkInt.InRange (a.amount + b.amount)
      · have hadd : a.add b = .ok ⟨a.denom, a.amount + b.amount⟩ := by
          simp [Coin.add, heq, bind_ok, hfit]
        rw [hadd]
        exact (hnext _ hbs').eq heq hfit has hbs
      · have hover : SumOverflows (a :: as) (b :: bs) := ⟨a, by simp, b, by simp, heq, hfit⟩
        have hadd : ∀ c, a.add b ≠ .ok c := by simp [Coin.add, heq, bind_ok, hfit]
        split
        · exact absurd ‹_› (hadd _)
        · exact ⟨iff_of_true rfl (.inl hover), iff_of_true rfl (.inl hover)⟩
    · exact (ih hbs').gt (lt_of_le_of_ne (not_lt.mp hlt) (Ne.symm heq)) has

lemma leftOver_arraysAfter (has : Sorted as) (hbs : Sorted bs) :
    LeftOver as bs (arraysAfter as bs) := by
  induction as generalizing bs with
  | nil => exact leftOver_nil_left hbs
  | cons a as ih => exact leftOver_arraysAfterHead has (fun _ h => ih (sorted_cons.mp has).2 h) hbs

end

/-- Each operation leaves the slices of its caller as they were exactly when no zero coin that is
followed by another one lies in the part it removes zero coins from. -/
theorem operandsAfter_eq_iff (call : SetCall) {as bs : Coins} (has : Sorted as) (hbs : Sorted bs) :
    call.operandsAfter as bs = (as, bs) ↔ call.LeavesOperands as bs := by
  have hadd : arraysAfter as bs = (as, bs) ↔
      SumOverflows as bs ∨ ZeroOnlyLast (beyond as bs) ∧ ZeroOnlyLast (beyond bs as) := by
    obtain ⟨hleft, hright⟩ := leftOver_arraysAfter has hbs
    rw [Prod.ext_iff, hleft, hright, ← or_and_left]
  have hsub : ((arraysAfter as (negative bs)).1, bs) = (as, bs) ↔
      SumOverflows as (negative bs) ∨ ZeroOnlyLast (beyond as bs) := by
    rw [Prod.ext_iff, and_iff_left rfl, (leftOver_arraysAfter has hbs.negative).1, beyond_negative]
  cases call with
  | add | safeAdd => exact hadd
  | sub | safeSub => exact hsub
  | newCoins =>
    rw [SetCall.operandsAfter, Prod.ext_iff, and_iff_left rfl, afterNewCoins_of_sorted has]
    exact overwriteZeroCoins_eq_self_iff has

/-- A set with a zero coin behind which nothing is beyond the other set. -/
theorem add_leaves_operands :
    SetCall.add.operandsAfter [⟨"iris-atto", 5⟩] [⟨"abc-min", 0⟩, ⟨"iris-atto", 2⟩] =
      ([⟨"iris-atto", 5⟩], [⟨"abc-min", 0⟩, ⟨"iris-atto", 2⟩]) :=
  (operandsAfter_eq_iff .add (sorted_singleton _) (by decide)).mpr
    (.inr ⟨by decide, by decide⟩)

/-- Adding to the empty set replaces the zero coin in the caller's slice by the coin behind
it. -/
theorem add_overwrites_operand : Sorted [⟨"abc-min", 0⟩, ⟨"iris-atto", 2⟩] ∧
      SetCall.add.operandsAfter [] [⟨"abc-min", 0⟩, ⟨"iris-atto", 2⟩] =
        ([], [⟨"iris-atto", 2⟩, ⟨"iris-atto", 2⟩]) := by decide

end Coins
end Irishub
