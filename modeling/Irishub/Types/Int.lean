import Irishub.Types.Fault
import Mathlib.Data.Nat.Size
import Mathlib.Tactic.Ring

/-!
# The bounded integers of `types/int.go`

An `sdk.Int` is an integer of at most 255 bits and a sign. Values are plain
integers here; every operation that can leave the range carries the source's
overflow test and panics as the source does.
-/

namespace Irishub
variable {i : ℤ} {n : ℕ}

open Lib

/-- `big.Int.BitLen`: the length of the absolute value in bits. -/
def bitLen (i : ℤ) : ℕ := i.natAbs.size

lemma bitLen_le_iff : bitLen i ≤ n ↔ i.natAbs < 2 ^ n := Nat.size_le

lemma bitLen_le_iff_lt : bitLen i ≤ n ↔ -(2 ^ n) < i ∧ i < 2 ^ n := by
  have hcast : ((2 ^ n : ℕ) : ℤ) = 2 ^ n := by push_cast; rfl
  rw [bitLen_le_iff]
  omega

/-- Conversion of a `uint64` to an `int64`. -/
def int64OfUint64 (n : ℕ) : ℤ := if n < 2 ^ 63 then n else n - 2 ^ 64

namespace SdkInt

/-- Bits available for the absolute value of an `sdk.Int`. -/
def maxBitLen : ℕ := 255

/-- Values an `sdk.Int` can take. -/
def InRange (i : ℤ) : Prop := bitLen i ≤ maxBitLen

instance (i : ℤ) : Decidable (InRange i) := inferInstanceAs (Decidable (_ ≤ _))

lemma inRange_iff {i : ℤ} : InRange i ↔ -(2 ^ 255) < i ∧ i < 2 ^ 255 := bitLen_le_iff_lt

/-- Overflow test at the end of `Add`, `Sub` and `Mul`. -/
def checked (i : ℤ) : Outcome ℤ := if bitLen i > maxBitLen then raise .intOverflow else .ok i

def add (i i2 : ℤ) : Outcome ℤ := checked (i + i2)

def sub (i i2 : ℤ) : Outcome ℤ := checked (i - i2)

/-- `Int.Mul`, which first refuses operands whose lengths already exceed the bound. -/
def mul (i i2 : ℤ) : Outcome ℤ :=
  if bitLen i + bitLen i2 - 1 > maxBitLen then raise .intOverflow else checked (i * i2)

/-- `Int.Div`: `big.Int.Div` is Euclidean division. -/
def div (i i2 : ℤ) : Outcome ℤ := if i2 = 0 then raise .divisionByZero else .ok (i / i2)

def newIntFromBigInt (i : ℤ) : Outcome ℤ :=
  if bitLen i > maxBitLen then raise .intOutOfBound else .ok i

/-- `NewIntWithDecimal`: `n` followed by `dec` zeros. -/
def newIntWithDecimal (n : ℤ) (dec : ℕ) : Outcome ℤ := newIntFromBigInt (n * 10 ^ dec)

section
variable {i i2 r : ℤ}

lemma checked_ok : checked i = .ok r ↔ r = i ∧ InRange i := if_raise_ok not_le.symm

@[simp] lemma add_eq_ok : add i i2 = .ok r ↔ r = i + i2 ∧ InRange (i + i2) := checked_ok

@[simp] lemma sub_eq_ok : sub i i2 = .ok r ↔ r = i - i2 ∧ InRange (i - i2) := checked_ok

lemma eq_of_mul_ok (h : mul i i2 = .ok r) : r = i * i2 ∧ InRange r := by
  unfold mul at h
  split_ifs at h with h'
  · simp at h
  · obtain ⟨rfl, hr⟩ := checked_ok.mp h
    exact ⟨rfl, hr⟩

lemma bitLen_mul_le (hi : i ≠ 0) (hi2 : i2 ≠ 0) : bitLen i + bitLen i2 - 1 ≤ bitLen (i * i2) := by
  have hpow : ∀ {n : ℕ}, n ≠ 0 → 0 < n.size ∧ 2 ^ (n.size - 1) ≤ n := fun {n} hn =>
    ⟨Nat.size_pos.mpr (Nat.pos_of_ne_zero hn), Nat.lt_size.mp (by
      have := Nat.size_pos.mpr (Nat.pos_of_ne_zero hn)
      omega)⟩
  obtain ⟨hpos, hle⟩ := hpow (Int.natAbs_ne_zero.mpr hi)
  obtain ⟨hpos2, hle2⟩ := hpow (Int.natAbs_ne_zero.mpr hi2)
  unfold bitLen
  rw [Int.natAbs_mul]
  have hmul := Nat.mul_le_mul hle hle2
  rw [← pow_add] at hmul
  have hlt := Nat.lt_size.mpr hmul
  omega

lemma mul_ok (hne : i2 ≠ 0) (hrange : InRange i2) :
    mul i i2 = .ok r ↔ r = i * i2 ∧ InRange (i * i2) := by
  unfold mul
  split_ifs with hlong
  · simp only [raise_ne_ok, false_iff, not_and]
    intro _ hin
    by_cases hi : i = 0
    · subst hi
      unfold InRange at hrange
      simp only [bitLen, Int.natAbs_zero, Nat.size_zero] at hlong hrange
      omega
    · have := bitLen_mul_le hi hne
      unfold InRange at hin
      omega
  · exact checked_ok

lemma eq_of_div_ok (h : div i i2 = .ok r) : r = i / i2 ∧ i2 ≠ 0 := by
  unfold div at h
  split_ifs at h with h'
  · simp at h
  · simp only [Except.ok.injEq] at h
    exact ⟨h.symm, h'⟩

@[simp] lemma newIntFromBigInt_ok : newIntFromBigInt i = .ok r ↔ r = i ∧ InRange i :=
  if_raise_ok not_le.symm

end
end SdkInt
end Irishub
