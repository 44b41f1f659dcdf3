import Irishub.Types.Int

/-!
# The range of `sdk.Int`

The remaining constructors and operators of `types/int.go`, the decoding of an integer from
text, and the values that compositions of all of them obtain. A text is read as
`big.Int` reads it when the base is left open: an optional sign, then digits in base
16, 2 or 8 after `0x`, `0b` or `0` and in base 10 otherwise.
-/

namespace Irishub
open Lib List Option

namespace SdkInt

def digitVal (c : Char) : Option ℕ :=
  if '0' ≤ c ∧ c ≤ '9' then some (c.toNat - '0'.toNat)
  else if 'a' ≤ c ∧ c ≤ 'z' then some (c.toNat - 'a'.toNat + 10)
  else if 'A' ≤ c ∧ c ≤ 'Z' then some (c.toNat - 'A'.toNat + 10)
  else none

/-- Digits of a base behind the value `n`, all of them. -/
def scanDigits (base : ℕ) : ℕ → List Char → Option ℕ
  | n, [] => some n
  | n, c :: cs => do
    let d ← digitVal c
    if d < base then scanDigits base (n * base + d) cs else none

def scanNumber (base : ℕ) : List Char → Option ℕ
  | [] => none
  | cs => scanDigits base 0 cs

/-- `nat.scan` for an open base, on a text that must be used up. -/
def scanNat : List Char → Option ℕ
  | ['0'] => some 0
  | '0' :: 'x' :: cs => scanNumber 16 cs
  | '0' :: 'X' :: cs => scanNumber 16 cs
  | '0' :: 'b' :: cs => scanNumber 2 cs
  | '0' :: 'B' :: cs => scanNumber 2 cs
  | '0' :: cs => scanNumber 8 cs
  | cs => scanNumber 10 cs

/-- `big.Int.SetString` with base 0, also behind `big.Int.UnmarshalText`. -/
def setString (s : String) : Option ℤ :=
  match s.toList with
  | '-' :: cs => (scanNat cs).map (fun n => -(n : ℤ))
  | '+' :: cs => (scanNat cs).map (fun n => (n : ℤ))
  | cs => (scanNat cs).map (fun n => (n : ℤ))

/-- What `json.Unmarshal` tells apart when it fills a string. -/
inductive Json where
  | null
  | string (text : String)
  | other
  deriving DecidableEq

/-- `json.Unmarshal` into a fresh string; `null` leaves it empty. -/
def Json.text : Json → Option String
  | null => some ""
  | string text => some text
  | other => none

def unmarshalAmino (text : String) : Option ℤ := setString text

def unmarshalJSON (bz : Json) : Option ℤ := do
  let text ← bz.text
  setString text

def newInt (n : Int64) : ℤ := n.toInt

/-- `NewIntFromString`; there is no value when `ok` is false. -/
def newIntFromString (s : String) : Option ℤ := do
  let i ← setString s
  if bitLen i > maxBitLen then none else some i

/-- `Int.Mod`: `big.Int.Mod` is the Euclidean remainder. -/
def mod (i i2 : ℤ) : Outcome ℤ := if i2 = 0 then raise .divisionByZero else .ok (i % i2)

def neg (i : ℤ) : ℤ := -i

def minInt (i1 i2 : ℤ) : ℤ := if i1 > i2 then i2 else i1

/-- Operators on two integers. -/
inductive BinOp where
  | add
  | sub
  | mul
  | div
  | mod
  | min
  deriving DecidableEq

def BinOp.apply (i i2 : ℤ) : BinOp → Outcome ℤ
  | add => SdkInt.add i i2
  | sub => SdkInt.sub i i2
  | mul => SdkInt.mul i i2
  | div => SdkInt.div i i2
  | mod => SdkInt.mod i i2
  | min => .ok (minInt i i2)

/-- A composition of constructors, operators and decodings. -/
inductive IntExpr where
  | zeroInt
  | oneInt
  | newInt (n : Int64)
  | newIntFromBigInt (i : ℤ)
  | newIntFromString (s : String)
  | newIntWithDecimal (n : Int64) (dec : ℤ)
  | unmarshalAmino (text : String)
  | unmarshalJSON (bz : Json)
  | neg (e : IntExpr)
  | bin (op : BinOp) (e e2 : IntExpr)

namespace IntExpr

def addRaw (e : IntExpr) (n : Int64) : IntExpr := .bin .add e (.newInt n)

def subRaw (e : IntExpr) (n : Int64) : IntExpr := .bin .sub e (.newInt n)

def mulRaw (e : IntExpr) (n : Int64) : IntExpr := .bin .mul e (.newInt n)

def divRaw (e : IntExpr) (n : Int64) : IntExpr := .bin .div e (.newInt n)

def modRaw (e : IntExpr) (n : Int64) : IntExpr := .bin .mod e (.newInt n)

/-- Value a composition obtains; none after a panic or an error. -/
def eval : IntExpr → Option ℤ
  | zeroInt => some 0
  | oneInt => some 1
  | newInt n => some (SdkInt.newInt n)
  | newIntFromBigInt i => (SdkInt.newIntFromBigInt i).toOption
  | newIntFromString s => SdkInt.newIntFromString s
  -- a negative exponent panics
  | newIntWithDecimal n dec =>
    if dec < 0 then none else (SdkInt.newIntWithDecimal n.toInt dec.toNat).toOption
  | unmarshalAmino text => SdkInt.unmarshalAmino text
  | unmarshalJSON bz => SdkInt.unmarshalJSON bz
  | neg e => e.eval.map SdkInt.neg
  | bin op e e2 => do
    let i ← e.eval
    let i2 ← e2.eval
    (op.apply i i2).toOption

def parts : IntExpr → List IntExpr
  | neg e => .neg e :: e.parts
  | bin op e e2 => .bin op e e2 :: (e.parts ++ e2.parts)
  | e => [e]

def decoded : IntExpr → List String
  | unmarshalAmino text => [text]
  | unmarshalJSON bz => bz.text.toList
  | neg e => e.decoded
  | bin _ e e2 => e.decoded ++ e2.decoded
  | _ => []

def DecodesInRange (e : IntExpr) : Prop :=
  ∀ text ∈ e.decoded, ∀ i, setString text = some i → InRange i

def ValuesInRange (e : IntExpr) : Prop := ∀ e' ∈ e.parts, ∀ i, e'.eval = some i → InRange i

end IntExpr

section
variable {i i2 r : ℤ}

lemma InRange.neg (h : InRange i) : InRange (-i) := by
  rw [InRange, bitLen, Int.natAbs_neg]
  exact h

/-- An integer that is not longer is in range too. -/
lemma InRange.of_natAbs_le (h : InRange i) (hle : r.natAbs ≤ i.natAbs) : InRange r :=
  (Nat.size_le_size hle).trans h

lemma inRange_int64 (n : Int64) : InRange n.toInt := by
  have hlow := n.le_toInt
  have hhigh := n.toInt_lt
  rw [inRange_iff]
  omega

lemma mod_ok (h : mod i i2 = .ok r) : r = i % i2 ∧ i2 ≠ 0 := by
  unfold mod at h
  split_ifs at h with hz
  · simp at h
  · simp only [Except.ok.injEq] at h
    exact ⟨h.symm, hz⟩

lemma InRange.minInt (h : InRange i) (h2 : InRange i2) : InRange (minInt i i2) := by
  unfold SdkInt.minInt
  split_ifs
  · exact h2
  · exact h

lemma BinOp.inRange (op : BinOp) (h : InRange i) (h2 : InRange i2)
    (hr : op.apply i i2 = .ok r) : InRange r := by
  cases op with
  | add =>
    obtain ⟨rfl, hin⟩ := add_eq_ok.mp hr
    exact hin
  | sub =>
    obtain ⟨rfl, hin⟩ := sub_eq_ok.mp hr
    exact hin
  | mul => exact (eq_of_mul_ok hr).2
  | div =>
    obtain ⟨rfl, -⟩ := eq_of_div_ok hr
    exact h.of_natAbs_le (Int.natAbs_ediv_le_natAbs i i2)
  | mod =>
    obtain ⟨rfl, hz⟩ := mod_ok hr
    have hnonneg := Int.emod_nonneg i hz
    have hlt := Int.emod_lt_abs i hz
    rw [Int.abs_eq_natAbs] at hlt
    exact h2.of_natAbs_le (by omega)
  | min =>
    cases hr
    exact h.minInt h2

/-- `op` gives `r` when it is in range and panics otherwise. -/
def Exact (op : Outcome ℤ) (r : ℤ) : Prop :=
  op = if InRange r then .ok r else raise .intOverflow

lemma exact_checked (i : ℤ) : Exact (checked i) i := by
  unfold Exact checked
  by_cases h : InRange i
  · rw [if_neg (not_lt.mpr h), if_pos h]
  · rw [if_pos (not_le.mp h), if_neg h]

lemma exact_mul (h : InRange i) (h2 : InRange i2) : Exact (mul i i2) (i * i2) := by
  by_cases hlong : bitLen i + bitLen i2 - 1 > maxBitLen
  · have hout : ¬InRange (i * i2) := by
      intro hin
      by_cases hi : i = 0
      · subst hi
        unfold InRange at h2
        simp only [bitLen, Int.natAbs_zero, Nat.size_zero] at hlong h2
        omega
      · by_cases hi2 : i2 = 0
        · subst hi2
          unfold InRange at h
          simp only [bitLen, Int.natAbs_zero, Nat.size_zero] at hlong h
          omega
        · have hle := bitLen_mul_le hi hi2
          unfold InRange at hin
          omega
    rw [Exact, mul, if_pos hlong, if_neg hout]
  · rw [mul, if_neg hlong]
    exact exact_checked _

end

section
namespace IntExpr
variable {e : IntExpr}

lemma toOption_eq_some {o : Outcome ℤ} {r : ℤ} : o.toOption = some r ↔ o = .ok r := by
  cases o <;> simp [Except.toOption]

lemma eval_inRange (h : e.DecodesInRange) : ∀ {i : ℤ}, e.eval = some i → InRange i := by
  induction e with
  | zeroInt | oneInt =>
    rintro i ⟨⟩
    decide
  | newInt n =>
    rintro i ⟨⟩
    exact inRange_int64 n
  | newIntFromBigInt b =>
    intro i hi
    obtain ⟨rfl, hin⟩ := newIntFromBigInt_ok.mp (toOption_eq_some.mp hi)
    exact hin
  | newIntFromString s =>
    intro i hi
    simp only [eval, SdkInt.newIntFromString, bind_eq_bind, bind_eq_some_iff] at hi
    obtain ⟨j, -, hj⟩ := hi
    split_ifs at hj with hlong
    cases hj
    exact not_lt.mp hlong
  | newIntWithDecimal n dec =>
    intro i hi
    simp only [eval] at hi
    split_ifs at hi with hneg
    obtain ⟨rfl, hin⟩ := newIntFromBigInt_ok.mp (toOption_eq_some.mp hi)
    exact hin
  | unmarshalAmino text =>
    intro i hi
    exact h text (by simp [decoded]) i hi
  | unmarshalJSON bz =>
    intro i hi
    simp only [eval, SdkInt.unmarshalJSON, bind_eq_bind, bind_eq_some_iff] at hi
    obtain ⟨text, htext, hi⟩ := hi
    exact h text (by simp [decoded, htext]) i hi
  | neg e ih =>
    intro i hi
    obtain ⟨j, hj, rfl⟩ := map_eq_some_iff.mp hi
    exact (ih h hj).neg
  | bin op e e2 ih ih2 =>
    intro i hi
    simp only [eval, bind_eq_bind, bind_eq_some_iff] at hi
    obtain ⟨j, hj, j2, hj2, hr⟩ := hi
    have hin := ih (fun text ht => h text (mem_append_left _ ht)) hj
    have hin2 := ih2 (fun text ht => h text (mem_append_right _ ht)) hj2
    exact op.inRange hin hin2 (toOption_eq_some.mp hr)

lemma decoded_of_mem_parts {e' : IntExpr} (h : e' ∈ e.parts) : e'.decoded ⊆ e.decoded := by
  induction e with
  | neg e ih =>
    rcases mem_cons.mp h with rfl | h
    · exact List.Subset.refl _
    · exact ih h
  | bin op e e2 ih ih2 =>
    rcases mem_cons.mp h with rfl | h
    · exact List.Subset.refl _
    · rcases mem_append.mp h with h | h
      · exact List.Subset.trans (ih h) (subset_append_left _ _)
      · exact List.Subset.trans (ih2 h) (subset_append_right _ _)
  | _ =>
    rw [mem_singleton.mp h]
    exact List.Subset.refl _

lemma exists_part_of_decoded {text : String} (h : text ∈ e.decoded) :
    ∃ e' ∈ e.parts, e'.eval = setString text := by
  induction e with
  | unmarshalAmino text' =>
    rw [decoded, mem_singleton] at h
    subst h
    exact ⟨_, mem_singleton_self _, rfl⟩
  | unmarshalJSON bz =>
    rw [decoded, mem_toList] at h
    exact ⟨_, mem_singleton_self _, by simp [eval, SdkInt.unmarshalJSON, h]⟩
  | neg e ih =>
    obtain ⟨e', he', heval⟩ := ih h
    exact ⟨e', mem_cons_of_mem _ he', heval⟩
  | bin op e e2 ih ih2 =>
    rcases mem_append.mp h with h | h
    · obtain ⟨e', he', heval⟩ := ih h
      exact ⟨e', mem_cons_of_mem _ (mem_append_left _ he'), heval⟩
    · obtain ⟨e', he', heval⟩ := ih2 h
      exact ⟨e', mem_cons_of_mem _ (mem_append_right _ he'), heval⟩
  | _ => simp [decoded] at h

lemma valuesInRange_iff : e.ValuesInRange ↔ e.DecodesInRange := by
  constructor
  · intro h text htext i hi
    obtain ⟨e', he', heval⟩ := exists_part_of_decoded htext
    exact h e' he' i (heval.trans hi)
  · intro h e' he' i hi
    exact eval_inRange (fun text ht => h text (decoded_of_mem_parts he' ht)) hi

end IntExpr

/-- A composition obtains values in range exactly when the texts it decodes are in range, and on
operands in range `Add`, `Sub` and `Mul` panic exactly when the result is out of range. -/
theorem int_range_iff (e : IntExpr) : (e.ValuesInRange ↔ e.DecodesInRange) ∧
    ∀ i i2 : ℤ, InRange i → InRange i2 →
      Exact (add i i2) (i + i2) ∧ Exact (sub i i2) (i - i2) ∧ Exact (mul i i2) (i * i2) :=
  ⟨IntExpr.valuesInRange_iff, fun _ _ h h2 => ⟨exact_checked _, exact_checked _, exact_mul h h2⟩⟩

/-- Sum of two decoded integers, and a product that the early test of `Mul` refuses. -/
theorem decoded_sum_in_range :
    IntExpr.ValuesInRange (.bin .add (.unmarshalAmino "0x7fffffffffffffffffffffffffffffff")
        (.unmarshalJSON (.string "-12"))) ∧
      Exact (mul (2 ^ 127) (2 ^ 128)) (2 ^ 127 * 2 ^ 128) := by
  refine ⟨(int_range_iff _).1.mpr ?_,
    ((int_range_iff (.newInt 0)).2 _ _ (by decide) (by decide)).2.2⟩
  intro text htext i hi
  simp only [IntExpr.decoded, Json.text, Option.toList, cons_append, nil_append,
    mem_cons, not_mem_nil, or_false] at htext
  rcases htext with rfl | rfl
  · have hval : setString "0x7fffffffffffffffffffffffffffffff" = some (2 ^ 127 - 1) := by
      decide +kernel
    cases hval.symm.trans hi
    decide
  · have hval : setString "-12" = some (-12) := by decide +kernel
    cases hval.symm.trans hi
    decide

/-- Text of `2 ^ 255` is decoded without an error. -/
theorem decoded_int_out_of_range : (IntExpr.unmarshalAmino
        "57896044618658097711785492504343953926634992332820282019728792003956564819968").eval =
      some (2 ^ 255) ∧ ¬InRange (2 ^ 255) := by decide +kernel

end
end SdkInt
end Irishub
