import Irishub.Types.Int
import Mathlib.Tactic.Linarith

/-!
# The decimals of `types/decimal.go`

A `Dec` is an integer number of units of `10 ^ (-10)`. `Add`, `Sub`, `Mul`,
`MulInt` and `Quo` test the length of their result and panic as the source
does; `Mul` and `Quo` round half to even, the `Truncate` functions towards
zero.
-/

namespace Irishub
open Lib List

/-- A decimal, by its number of units of `10 ^ (-10)`. -/
@[ext] structure Dec where
  raw : ℤ
  deriving DecidableEq

namespace Dec
variable {d d2 : Dec}

/-- `precisionReuse`. -/
def precision : ℤ := 10000000000

lemma precision_pos : 0 < precision := by decide

def maxBitLen : ℕ := 255 + 34

/-- `ZeroDec`. -/
def zero : Dec := ⟨0⟩

/-- `OneDec`. -/
def one : Dec := ⟨precision⟩

/-- `NewDec` and `NewDecFromInt`. -/
def newDecFromInt (i : ℤ) : Dec := ⟨i * precision⟩

/-- `NewDecWithPrec`, for `prec` at most 10. -/
def newDecWithPrec (i : ℤ) (prec : ℕ) : Dec := ⟨i * 10 ^ (10 - prec)⟩

instance : Inhabited Dec := ⟨zero⟩

instance : LE Dec := ⟨fun d d2 => d.raw ≤ d2.raw⟩

instance : LT Dec := ⟨fun d d2 => d.raw < d2.raw⟩

instance (d d2 : Dec) : Decidable (d ≤ d2) := inferInstanceAs (Decidable (d.raw ≤ d2.raw))

instance (d d2 : Dec) : Decidable (d < d2) := inferInstanceAs (Decidable (d.raw < d2.raw))

lemma le_def : d ≤ d2 ↔ d.raw ≤ d2.raw := Iff.rfl

lemma lt_def : d < d2 ↔ d.raw < d2.raw := Iff.rfl

@[simp] lemma zero_raw : zero.raw = 0 := rfl

@[simp] lemma newDecFromInt_raw (i : ℤ) : (newDecFromInt i).raw = i * precision := rfl

/-- `chopPrecisionAndRound` on a number that is not negative. -/
def chopNonneg (d : ℤ) : ℤ :=
  let quo := d / precision
  let rem := d % precision
  if rem = 0 then quo
  else if rem < precision / 2 then quo
  else if precision / 2 < rem then quo + 1
  else if quo % 2 = 0 then quo
  else quo + 1

def chopPrecisionAndRound (d : ℤ) : ℤ :=
  if d < 0 then -chopNonneg (-d) else chopNonneg d

def chopPrecisionAndTruncate (d : ℤ) : ℤ := d.tdiv precision

def checked (raw : ℤ) : Outcome Dec :=
  if bitLen raw > maxBitLen then raise .intOverflow else .ok ⟨raw⟩

def add (d d2 : Dec) : Outcome Dec := checked (d.raw + d2.raw)

def sub (d d2 : Dec) : Outcome Dec := checked (d.raw - d2.raw)

def mul (d d2 : Dec) : Outcome Dec := checked (chopPrecisionAndRound (d.raw * d2.raw))

def mulInt (d : Dec) (i : ℤ) : Outcome Dec := checked (d.raw * i)

/-- `Dec.Quo`: the precision is multiplied twice and chopped once. -/
def quo (d d2 : Dec) : Outcome Dec :=
  if d2.raw = 0 then raise .divisionByZero
  else checked (chopPrecisionAndRound ((d.raw * precision * precision).tdiv d2.raw))

def quoInt (d : Dec) (i : ℤ) : Outcome Dec :=
  if i = 0 then raise .divisionByZero else .ok ⟨d.raw.tdiv i⟩

def truncateInt (d : Dec) : Outcome ℤ := SdkInt.newIntFromBigInt (chopPrecisionAndTruncate d.raw)

def truncateDec (d : Dec) : Outcome Dec := do return newDecFromInt (← d.truncateInt)

def roundInt (d : Dec) : Outcome ℤ := SdkInt.newIntFromBigInt (chopPrecisionAndRound d.raw)

def roundInt64 (d : Dec) : Outcome ℤ :=
  let chopped := chopPrecisionAndRound d.raw
  if -(2 ^ 63) ≤ chopped ∧ chopped < 2 ^ 63 then .ok chopped else raise .int64OutOfBound

def neg (d : Dec) : Dec := ⟨-d.raw⟩

def abs (d : Dec) : Dec := ⟨|d.raw|⟩

def minDec (d1 d2 : Dec) : Dec := if d1 < d2 then d1 else d2

def maxDec (d1 d2 : Dec) : Dec := if d1 < d2 then d2 else d1

def isZero (d : Dec) : Bool := d.raw = 0

def isNegative (d : Dec) : Bool := d.raw < 0

def isPositive (d : Dec) : Bool := 0 < d.raw

@[simp] lemma isZero_eq_true : d.isZero = true ↔ d.raw = 0 := by simp [isZero]

@[simp] lemma isZero_eq_false : d.isZero = false ↔ d.raw ≠ 0 := by simp [isZero]

def marshalText (raw : ℤ) : List Char :=
  if raw < 0 then '-' :: Nat.toDigits 10 raw.natAbs else Nat.toDigits 10 raw.natAbs

/-- Period of `Dec.String`, ten characters from the end of a text that is filled up with
zeros. -/
def insertPeriod (bz : List Char) : List Char :=
  if bz.length ≤ 10 then '0' :: '.' :: (List.replicate (10 - bz.length) '0' ++ bz)
  else bz.take (bz.length - 10) ++ '.' :: bz.drop (bz.length - 10)

def string (d : Dec) : String := String.ofList (insertPeriod (marshalText d.raw))

section
variable {d k : ℤ}

lemma chopNonneg_le (h : d ≤ k * precision) : chopNonneg d ≤ k := by
  unfold chopNonneg precision at *
  simp only
  split_ifs <;> omega

lemma le_chopNonneg (h : k * precision ≤ d) : k ≤ chopNonneg d := by
  unfold chopNonneg precision at *
  simp only
  split_ifs <;> omega

lemma chopPrecisionAndRound_le (h : d ≤ k * precision) : chopPrecisionAndRound d ≤ k := by
  unfold chopPrecisionAndRound
  split_ifs with hneg
  · have := le_chopNonneg (d := -d) (k := -k) (by linarith)
    linarith
  · exact chopNonneg_le h

lemma le_chopPrecisionAndRound (h : k * precision ≤ d) : k ≤ chopPrecisionAndRound d := by
  unfold chopPrecisionAndRound
  split_ifs with hneg
  · have := chopNonneg_le (d := -d) (k := -k) (by linarith)
    linarith
  · exact le_chopNonneg h

lemma chopPrecisionAndRound_mul (k : ℤ) : chopPrecisionAndRound (k * precision) = k :=
  le_antisymm (chopPrecisionAndRound_le le_rfl) (le_chopPrecisionAndRound le_rfl)

end

section
variable {d d2 r : Dec} {i : ℤ}

def InRange (raw : ℤ) : Prop := bitLen raw ≤ maxBitLen

lemma inRange_iff {raw : ℤ} : InRange raw ↔ -(2 ^ 289) < raw ∧ raw < 2 ^ 289 := bitLen_le_iff_lt

lemma checked_ok : checked i = .ok r ↔ r.raw = i ∧ InRange i :=
  (if_raise_ok not_le.symm).trans (and_congr_left' Dec.ext_iff)

lemma add_eq_ok : add d d2 = .ok r ↔ r.raw = d.raw + d2.raw ∧ InRange (d.raw + d2.raw) := checked_ok

lemma sub_eq_ok : sub d d2 = .ok r ↔ r.raw = d.raw - d2.raw ∧ InRange (d.raw - d2.raw) := checked_ok

lemma quo_ok (h : quo d d2 = .ok r) :
    d2.raw ≠ 0 ∧ r.raw = chopPrecisionAndRound ((d.raw * precision * precision).tdiv d2.raw) := by
  unfold quo at h
  split_ifs at h with hzero
  · simp at h
  · exact ⟨hzero, (checked_ok.mp h).1⟩

lemma quo_nonneg (h : quo d d2 = .ok r) (hd : 0 ≤ d.raw) (hd2 : 0 ≤ d2.raw) : 0 ≤ r.raw := by
  rw [(quo_ok h).2]
  refine le_chopPrecisionAndRound ?_
  rw [zero_mul]
  exact Int.tdiv_nonneg (mul_nonneg (mul_nonneg hd precision_pos.le) precision_pos.le) hd2

lemma quo_one (h : quo d one = .ok r) : r.raw = d.raw := by
  rw [(quo_ok h).2, one, Int.mul_tdiv_cancel _ precision_pos.ne', chopPrecisionAndRound_mul]

end

lemma filter_period_toDigits (n : ℕ) :
    (Nat.toDigits 10 n).filter (· != '.') = Nat.toDigits 10 n := by
  refine filter_eq_self.mpr (fun c hc => ?_)
  have hdigit := Nat.isDigit_of_mem_toDigits (by decide) (by decide) hc
  have hne : c ≠ '.' := by
    rintro rfl
    exact absurd hdigit (by decide)
  simpa using hne

lemma ofDigitChars_insertPeriod (n : ℕ) :
    Nat.ofDigitChars 10 ((insertPeriod (Nat.toDigits 10 n)).filter (· != '.')) 0 = n := by
  unfold insertPeriod
  split_ifs with hlen
  · have hzeros : ∀ k, (List.replicate k '0').filter (· != '.') = List.replicate k '0' := by
      intro k
      exact filter_eq_self.mpr (fun c hc => by simp [eq_of_mem_replicate hc])
    rw [filter_cons_of_pos (by decide), filter_cons_of_neg (by decide),
      filter_append, hzeros, filter_period_toDigits, Nat.ofDigitChars_cons,
      Nat.ofDigitChars_append, Nat.ofDigitChars_replicate_zero]
    simp
  · rw [filter_append, filter_cons_of_neg (by decide), ← filter_append,
      take_append_drop, filter_period_toDigits, Nat.ofDigitChars_ten_toDigits]

lemma eq_of_string_eq {d d2 : Dec} (h : 0 ≤ d.raw) (h2 : 0 ≤ d2.raw)
    (heq : d.string = d2.string) : d = d2 := by
  have htext : ∀ {e : Dec}, 0 ≤ e.raw → marshalText e.raw = Nat.toDigits 10 e.raw.natAbs := by
    intro e he
    rw [marshalText, if_neg (by omega)]
  unfold string at heq
  rw [String.ofList_inj, htext h, htext h2] at heq
  have hread := congrArg (fun s => Nat.ofDigitChars 10 (s.filter (· != '.')) 0) heq
  simp only [ofDigitChars_insertPeriod] at hread
  exact Dec.ext (by omega)

end Dec
end Irishub
