import Mathlib.Algebra.Ring.Int.Defs
import Mathlib.Data.List.Basic

/-!
# Decimal texts of integers

Writing an integer in base ten, and reading one of 64 bits: an optional sign, at least one digit
and nothing else.

**Results**
* `parseInt_formatInt`: a 64-bit integer is read back.
* `parseInt_toDigits`: a text of digits is read as its number, if that has 63 bits.
* `range_of_parseInt`: nothing else than a 64-bit integer is read.
-/

namespace Irishub.Lib
open List
variable {cs : List Char} {i : ℤ}

/-- Text of an integer in base ten. -/
def formatInt (i : ℤ) : String :=
  String.ofList (if i < 0 then '-' :: Nat.toDigits 10 i.natAbs else Nat.toDigits 10 i.natAbs)

/-- Whether a text has a minus sign, and the text behind its sign. -/
def splitSign : List Char → Bool × List Char
  | '-' :: cs => (true, cs)
  | '+' :: cs => (false, cs)
  | cs => (false, cs)

/-- Integer of 64 bits that a text in base ten stands for. -/
def parseInt (cs : List Char) : Option ℤ :=
  let (negative, digits) := splitSign cs
  if digits ≠ [] ∧ digits.all Char.isDigit = true then
    let n : ℤ := Nat.ofDigitChars 10 digits 0
    let i := if negative then -n else n
    if -2 ^ 63 ≤ i ∧ i < 2 ^ 63 then some i else none
  else none

lemma isDigit_of_mem_toDigits {n : ℕ} {c : Char} (hc : c ∈ Nat.toDigits 10 n) :
    c.isDigit = true :=
  Nat.isDigit_of_mem_toDigits (by decide) (by decide) hc

lemma toDigits_digits (n : ℕ) :
    Nat.toDigits 10 n ≠ [] ∧ (Nat.toDigits 10 n).all Char.isDigit = true :=
  ⟨Nat.toDigits_ne_nil, all_eq_true.mpr (fun _ hc => isDigit_of_mem_toDigits hc)⟩

/-- A text of digits has no sign. -/
lemma splitSign_toDigits (n : ℕ) : splitSign (Nat.toDigits 10 n) = (false, Nat.toDigits 10 n) := by
  have hdigit : ∀ {c}, c ∈ Nat.toDigits 10 n → c.isDigit = true := isDigit_of_mem_toDigits
  unfold splitSign
  split
  · rename_i heq
    rw [heq] at hdigit
    exact absurd (hdigit (c := '-') (by simp)) (by decide)
  · rename_i heq
    rw [heq] at hdigit
    exact absurd (hdigit (c := '+') (by simp)) (by decide)
  · rfl

/-- A text of digits is read as its number, if that has 63 bits. -/
lemma parseInt_toDigits (n : ℕ) :
    parseInt (Nat.toDigits 10 n) = if (n : ℤ) < 2 ^ 63 then some (n : ℤ) else none := by
  have hlow : -2 ^ 63 ≤ (n : ℤ) := by omega
  simp only [parseInt, splitSign_toDigits, if_pos (toDigits_digits n), Bool.false_eq_true, if_false,
    Nat.ofDigitChars_ten_toDigits, hlow, true_and]

/-- A 64-bit integer is read back from its text. -/
lemma parseInt_formatInt (hlow : -2 ^ 63 ≤ i) (hhigh : i < 2 ^ 63) :
    parseInt (formatInt i).toList = some i := by
  unfold formatInt
  rw [String.toList_ofList]
  by_cases hneg : i < 0
  · have hsplit : splitSign ('-' :: Nat.toDigits 10 i.natAbs) =
        (true, Nat.toDigits 10 i.natAbs) := rfl
    simp only [parseInt, if_pos hneg, hsplit, if_pos (toDigits_digits i.natAbs), if_true,
      Nat.ofDigitChars_ten_toDigits]
    rw [if_pos (by omega), Option.some.injEq]
    omega
  · rw [if_neg hneg, parseInt_toDigits, if_pos (by omega), Option.some.injEq]
    omega

lemma range_of_parseInt (h : parseInt cs = some i) : -2 ^ 63 ≤ i ∧ i < 2 ^ 63 := by
  simp only [parseInt] at h
  split_ifs at h with _ hneg hrange hrange <;> cases h <;> exact hrange

end Irishub.Lib
