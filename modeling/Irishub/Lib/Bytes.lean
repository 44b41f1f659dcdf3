import Mathlib.Data.Fin.Basic
import Mathlib.Data.List.TakeWhile
import Mathlib.Data.Nat.Size
import Mathlib.Data.String.Basic
import Mathlib.Tactic.IntervalCases

/-!
# Byte strings

Byte strings as lists of bytes, ordered lexicographically, with the functions of
a byte library that keys are built and read with: big-endian numbers, splitting
at a separator, and the hexadecimal text of a byte string together with the
parser of such texts.
-/

namespace Irishub.Lib

abbrev Byte := Fin 256

abbrev Bytes := List Byte

namespace Bytes
variable {n x y : ℕ} {a b : Bytes}

/-- Last `n` bytes of `x`, most significant byte first. -/
def bigEndian : ℕ → ℕ → Bytes
  | 0, _ => []
  | n + 1, x => bigEndian n (x / 256) ++ [Fin.ofNat 256 x]

def byte (x : ℕ) : Byte := Fin.ofNat 256 x

def toNat (bz : Bytes) : ℕ := bz.foldl (fun x b => 256 * x + b) 0

/-- Bytes of `x` without leading zeros, most significant byte first. -/
def ofNat (x : ℕ) : Bytes := bigEndian ((x.size + 7) / 8) x

@[simp] lemma length_bigEndian (n x : ℕ) : (bigEndian n x).length = n := by
  induction n generalizing x with
  | zero => rfl
  | succ n ih => rw [bigEndian, List.length_append, ih, List.length_singleton]

lemma bigEndian_injOn (hx : x < 256 ^ n) (hy : y < 256 ^ n)
    (h : bigEndian n x = bigEndian n y) : x = y := by
  induction n generalizing x y with
  | zero => omega
  | succ n ih =>
    obtain ⟨hhigh, hlow⟩ := List.append_inj' h rfl
    have hdiv : x / 256 = y / 256 :=
      ih (Nat.div_lt_of_lt_mul (by rwa [← Nat.pow_succ'])) (Nat.div_lt_of_lt_mul
        (by rwa [← Nat.pow_succ'])) hhigh
    have hmod : x % 256 = y % 256 := by simpa [Fin.ext_iff] using hlow
    omega

lemma append_lt_append_iff {a' b' : Bytes} (h : a.length = a'.length) :
    a ++ b < a' ++ b' ↔ a < a' ∨ a = a' ∧ b < b' := by
  induction a generalizing a' with
  | nil =>
    obtain rfl := List.length_eq_zero_iff.mp h.symm
    simp
  | cons x a ih =>
    obtain _ | ⟨x', a'⟩ := a'
    · cases h
    · simp only [List.cons_append, List.cons_lt_cons_iff, List.cons.injEq, ih (Nat.succ.inj h),
        and_or_left, or_assoc,
        and_assoc]

lemma bigEndian_lt_iff (hx : x < 256 ^ n) (hy : y < 256 ^ n) :
    bigEndian n x < bigEndian n y ↔ x < y := by
  induction n generalizing x y with
  | zero => simp_all [bigEndian]
  | succ n ih =>
    rw [pow_succ'] at hx hy
    have hdiv : ∀ {z}, z < 256 * 256 ^ n → z / 256 < 256 ^ n := Nat.div_lt_of_lt_mul
    have hlow : ([Fin.ofNat 256 x] : Bytes) < [Fin.ofNat 256 y] ↔ x % 256 < y % 256 := by
      simp [List.cons_lt_cons_iff, Fin.lt_def]
    have hhigh : bigEndian n (x / 256) = bigEndian n (y / 256) ↔ x / 256 = y / 256 :=
      ⟨bigEndian_injOn (hdiv hx) (hdiv hy), congrArg _⟩
    rw [bigEndian, bigEndian, append_lt_append_iff (by simp), ih (hdiv hx) (hdiv hy), hlow, hhigh]
    omega

lemma map_rev_lt_iff (h : a.length = b.length) : a.map Fin.rev < b.map Fin.rev ↔ b < a := by
  induction a generalizing b with
  | nil =>
    obtain rfl := List.length_eq_zero_iff.mp h.symm
    simp
  | cons x a ih =>
    obtain _ | ⟨y, b⟩ := b
    · cases h
    · simp only [List.map_cons, List.cons_lt_cons_iff, Fin.rev_lt_rev, Fin.rev_inj,
        ih (Nat.succ.inj h), eq_comm]

section
variable (sep : Byte)

def splitOn : Bytes → List Bytes
  | [] => [[]]
  | b :: bz =>
    if b = sep then [] :: splitOn bz
    else
      match splitOn bz with
      | [] => [[b]]
      | part :: parts => (b :: part) :: parts

def before (bz : Bytes) : Bytes := bz.takeWhile (· ≠ sep)

variable {sep} {bz : Bytes}

lemma splitOn_head? (bz : Bytes) : (splitOn sep bz).head? = some (before sep bz) := by
  induction bz with
  | nil => rfl
  | cons b bz ih =>
    by_cases hb : b = sep
    · simp [splitOn, before, hb]
    · cases hparts : splitOn sep bz with
      | nil => simp [hparts] at ih
      | cons part parts =>
        rw [hparts, List.head?_cons, Option.some.injEq] at ih
        simp [splitOn, before, hb, hparts, ih]

lemma splitOn_append {word : Bytes} (hword : sep ∉ word) (bz : Bytes) :
    splitOn sep (word ++ sep :: bz) = word :: splitOn sep bz := by
  induction word with
  | nil => simp [splitOn]
  | cons b word ih =>
    rw [List.mem_cons, not_or] at hword
    have hb : b ≠ sep := fun h => hword.1 h.symm
    simp [splitOn, hb, ih hword.2]

lemma before_eq_self_iff : before sep bz = bz ↔ sep ∉ bz := by
  rw [before, List.takeWhile_eq_self_iff]
  constructor
  · intro h hmem
    simpa using h sep hmem
  · intro h b hb
    have hne : b ≠ sep := fun heq => h (heq ▸ hb)
    simpa using hne

lemma length_before_lt (h : sep ∈ bz) : (before sep bz).length < bz.length := by
  have hle : (before sep bz).length ≤ bz.length := (List.takeWhile_prefix _).length_le
  refine lt_of_le_of_ne hle (fun heq => ?_)
  have hself : before sep bz = bz := (List.takeWhile_prefix _).eq_of_length heq
  exact before_eq_self_iff.mp hself h

end

def hexDigit (n : ℕ) : Char := if n < 10 then Char.ofNat (48 + n) else Char.ofNat (87 + n)

def fromHexChar (c : Char) : Option ℕ :=
  if '0' ≤ c ∧ c ≤ '9' then some (c.toNat - 48)
  else if 'a' ≤ c ∧ c ≤ 'f' then some (c.toNat - 87)
  else if 'A' ≤ c ∧ c ≤ 'F' then some (c.toNat - 55)
  else none

def hexChars : Bytes → List Char
  | [] => []
  | b :: bz => hexDigit (b.val / 16) :: hexDigit (b.val % 16) :: hexChars bz

def hexEncode (bz : Bytes) : String := String.ofList (hexChars bz)

def parseHex : List Char → Option Bytes
  | [] => some []
  | [_] => none
  | c :: c' :: cs => do
    let hi ← fromHexChar c
    let lo ← fromHexChar c'
    let bz ← parseHex cs
    return Fin.ofNat 256 (16 * hi + lo) :: bz

def hexDecode (s : String) : Option Bytes := parseHex s.toList

lemma fromHexChar_hexDigit {n : ℕ} (h : n < 16) : fromHexChar (hexDigit n) = some n := by
  interval_cases n <;> decide

lemma parseHex_hexChars (bz : Bytes) : parseHex (hexChars bz) = some bz := by
  induction bz with
  | nil => rfl
  | cons b bz ih =>
    have hhi : b.val / 16 < 16 := by omega
    have hlo : b.val % 16 < 16 := by omega
    have hbyte : Fin.ofNat 256 (16 * (b.val / 16) + b.val % 16) = b := by
      apply Fin.ext
      show (16 * (b.val / 16) + b.val % 16) % 256 = b.val
      omega
    rw [hexChars, parseHex, fromHexChar_hexDigit hhi, fromHexChar_hexDigit hlo, ih]
    show some (Fin.ofNat 256 (16 * (b.val / 16) + b.val % 16) :: bz) = some (b :: bz)
    rw [hbyte]

@[simp] lemma hexDecode_hexEncode (bz : Bytes) : hexDecode (hexEncode bz) = some bz := by
  rw [hexDecode, hexEncode, String.toList_ofList, parseHex_hexChars]

lemma hexEncode_injective : Function.Injective hexEncode := fun bz bz' h => by
  have hdecode := congrArg hexDecode h
  simpa using hdecode

end Bytes
end Irishub.Lib
