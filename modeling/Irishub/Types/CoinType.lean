import Irishub.Types.CoinText
import Mathlib.Tactic.FieldSimp

/-!
# The units of a coin

`types/coin_type.go` with the decimal texts of `types/rational.go`; a `big.Rat` is a rational
number. An amount goes to another unit and back through a text with as many places as the unit has
decimals, which is exact.
-/

namespace Irishub
open Lib List Dec

structure CoinUnit where
  denom : String
  decimal : ℕ
  deriving DecidableEq

/-- `CoinType`; its name and description are not read here. -/
structure CoinType where
  minUnit : CoinUnit
  units : List CoinUnit

def CoinUnit.getScaleFactor (u : CoinUnit) : Outcome ℤ := SdkInt.newIntWithDecimal 1 u.decimal

def parseCoinParts (coinStr : String) : Except String (String × List Char) :=
  let coinStr := toLower (trimSpace coinStr)
  match matchCoin coinStr.toList with
  | none => .error ("invalid coin string: " ++ coinStr)
  | some (amount, denom) => .ok (String.ofList denom, amount)

/-- `getNumeratorDenominator`; the denominator is an `int64`. -/
def getNumeratorDenominator (str : List (List Char)) (prec : ℕ) : Except String (List Char × ℤ) :=
  match str with
  | [whole] => if whole = [] then .error "not a decimal string" else .ok (whole, 1)
  | [whole, decs] =>
    if whole = [] ∨ decs = [] then .error "not a decimal string"
    else if prec < decs.length then .error "string has too many decimals"
    else .ok (whole ++ decs, Int.bmod (10 ^ decs.length) (2 ^ 64))
  | _ => .error "not a decimal string"

/-- `NewRatFromDecimal` behind the negative symbol; `Atoi` and, where it is out of range,
`SetString` read a number. -/
def newRatUnsigned (s : List Char) (prec : ℕ) : Except String ℚ := do
  let r ← getNumeratorDenominator (s.splitOn '.') prec
  match setString r.1 with
  | none => .error "not a decimal string"
  | some num => return num / r.2

def newRatFromDecimal (decimalStr : List Char) (prec : ℕ) : Except String ℚ :=
  match decimalStr with
  | [] => .error "decimal string is empty"
  | '-' :: s => (newRatUnsigned s prec).map (fun x => -x)
  | s => newRatUnsigned s prec

/-- `FloatString`: what stands before and behind the point. -/
def floatString (x : ℚ) (prec : ℕ) : List Char × List Char :=
  let q := x.num.natAbs / x.den
  let r := x.num.natAbs % x.den * 10 ^ prec / x.den
  let r2 := x.num.natAbs % x.den * 10 ^ prec % x.den
  let up := if x.den ≤ r2 + r2 then r + 1 else r
  let carried := if 10 ^ prec ≤ up then (q + 1, up - 10 ^ prec) else (q, up)
  let rs := Nat.toDigits 10 carried.2
  ((if x < 0 then ['-'] else []) ++ Nat.toDigits 10 carried.1,
    if prec = 0 then [] else replicate (prec - rs.length) '0' ++ rs)

def trimZeros (decs : List Char) : List Char := (decs.reverse.dropWhile (· == '0')).reverse

def decimalString (x : ℚ) (prec : ℕ) : List Char :=
  (floatString x prec).1 ++ point (trimZeros (floatString x prec).2)

namespace CoinType

def getUnit (ct : CoinType) (denom : String) : Option CoinUnit :=
  ct.units.find? (fun u => toLower denom == toLower u.denom)

def convert (ct : CoinType) (srcCoinStr destDenom : String) : Outcome (Except String String) :=
  match parseCoinParts srcCoinStr with
  | .error e => .ok (.error e)
  | .ok (srcDenom, srcAmt) =>
    match ct.getUnit destDenom, ct.getUnit srcDenom with
    | none, _ => .ok (.error ("destination unit (%s) not defined" ++ destDenom))
    | some _, none => .ok (.error ("source unit (%s) not defined" ++ srcDenom))
    | some destUnit, some srcUnit =>
      if srcUnit.denom = destDenom then .ok (.ok srcCoinStr)
      else do
        let num ← destUnit.getScaleFactor
        let den ← srcUnit.getScaleFactor
        return (newRatFromDecimal srcAmt ct.minUnit.decimal).map (fun amount =>
          String.ofList (decimalString (amount * (num / den)) ct.minUnit.decimal) ++ destUnit.denom)

def convertToMinDenomCoin (ct : CoinType) (srcCoinStr : String) : Outcome (Except String Coin) := do
  match ← ct.convert srcCoinStr ct.minUnit.denom with
  | .error _ => return .error "convert error"
  | .ok destCoinStr => return parseCoin destCoinStr

end CoinType

section
variable {ds fs : List Char} {denom : String} {prec : ℕ} {x : ℚ}

lemma matchCoin_point {t : List Char} (hne : ds ≠ []) (hds : ds.all Char.isDigit = true)
    (hfs : fs.all Char.isDigit = true) (ht : matchDenom t = true) :
    matchCoin (ds ++ point fs ++ t) = some (ds ++ point fs, t) := by
  by_cases hnil : fs = []
  · simpa [hnil, point] using matchCoin_digits hne hds ht
  · obtain ⟨c, r, rfl, hletter⟩ := head_of_matchDenom ht
    have hdigit := not_isDigit_of_isLowerLetter hletter
    have hspace := isPosixSpace_of_isLowerLetter hletter
    have hperiod : Char.isDigit '.' = false := rfl
    have hall := all_eq_true.mp hds
    have hall' := all_eq_true.mp hfs
    simp [matchCoin, point, hnil, takeWhile_append_of_pos hall, dropWhile_append_of_pos hall,
      takeWhile_append_of_pos hall', hperiod, hdigit, hspace, hne, ht]

lemma parseCoinParts_point (hne : ds ≠ []) (hds : ds.all Char.isDigit = true)
    (hfs : fs.all Char.isDigit = true) (hdenom : matchDenom denom.toList = true) :
    parseCoinParts (String.ofList (ds ++ point fs) ++ denom) = .ok (denom, ds ++ point fs) := by
  have hchars : ∀ c ∈ (String.ofList (ds ++ point fs) ++ denom).toList, isDenomChar c = true := by
    intro c hc
    simp only [String.toList_append, String.toList_ofList, mem_append] at hc
    rcases hc with (hc | hc) | hc
    · exact isDenomChar_of_isDigit (all_eq_true.mp hds c hc)
    · rw [point] at hc
      split_ifs at hc
      · cases hc
      · rcases mem_cons.mp hc with rfl | hc
        · rfl
        · exact isDenomChar_of_isDigit (all_eq_true.mp hfs c hc)
    · exact mem_matchDenom hdenom c hc
  rw [parseCoinParts, trimSpace_eq_self (fun c hc => isSpace_of_isDenomChar (hchars c hc)),
    toLower_eq_self (fun c hc => toLower_of_isDenomChar (hchars c hc))]
  simp only [String.toList_append, String.toList_ofList, matchCoin_point hne hds hfs hdenom,
    String.ofList_toList]

/-- A number with at most 18 places is read exactly. -/
lemma newRatFromDecimal_point (hne : ds ≠ []) (hds : ds.all Char.isDigit = true)
    (hfs : fs.all Char.isDigit = true) (hlen : fs.length ≤ prec) (hprec : prec ≤ 18) :
    newRatFromDecimal (ds ++ point fs) prec =
      .ok ((Nat.ofDigitChars 10 (ds ++ fs) 0 : ℚ) / 10 ^ fs.length) := by
  have hread : setString (ds ++ fs) = some (Nat.ofDigitChars 10 (ds ++ fs) 0 : ℤ) :=
    setString_eq_some.mpr
      ⟨[], ds ++ fs, rfl, .inl rfl, ⟨by simp [hne], by simp_all⟩, by simp [signed]⟩
  have hunsigned : newRatUnsigned (ds ++ point fs) prec =
      .ok ((Nat.ofDigitChars 10 (ds ++ fs) 0 : ℚ) / 10 ^ fs.length) := by
    have hparts : (ds ++ point fs).splitOn '.' = if fs = [] then [ds] else [ds, fs] := by
      have hds' : '.' ∉ ds := not_mem_of_digits hds rfl
      have hfs' : '.' ∉ fs := not_mem_of_digits hfs rfl
      by_cases hnil : fs = []
      · have hone := splitOn_intercalate '.' (show ∀ p ∈ [ds], '.' ∉ p by simpa) (by simp)
        simpa [hnil, point] using hone
      · have htwo := splitOn_intercalate '.' (show ∀ p ∈ [ds, fs], '.' ∉ p by simp [hds', hfs'])
          (by simp)
        simpa [hnil, point, intercalate, intersperse] using htwo
    have hbmod : Int.bmod (10 ^ fs.length) (2 ^ 64) = 10 ^ fs.length := by
      have hle := hlen.trans hprec
      interval_cases fs.length <;> rfl
    rw [newRatUnsigned, hparts]
    by_cases hnil : fs = []
    · subst hnil
      rw [append_nil] at hread
      simp [getNumeratorDenominator, hne, ok_bind, hread, pure_ok]
    · have hget : getNumeratorDenominator [ds, fs] prec = .ok (ds ++ fs, 10 ^ fs.length) := by
        rw [getNumeratorDenominator, if_neg (by simp [hne, hnil]), if_neg (Nat.not_lt.mpr hlen),
          hbmod]
      simp [hnil, hget, ok_bind, hread, pure_ok]
  unfold newRatFromDecimal
  split
  · next h => simp [hne] at h
  · next s h =>
    obtain ⟨c, r, rfl⟩ := exists_cons_of_ne_nil hne
    cases h
    exact absurd hds (by simp)
  · exact hunsigned

/-- A number is printed exactly with enough places. -/
lemma floatString_of_exact {N : ℕ} (h : x * 10 ^ prec = N) :
    ∃ decs, floatString x prec = (Nat.toDigits 10 (N / 10 ^ prec), decs) ∧ decs.length = prec ∧
      decs.all Char.isDigit = true ∧ Nat.ofDigitChars 10 decs 0 = N % 10 ^ prec ∧
      (N % 10 ^ prec = 0 → decs = replicate prec '0') := by
  have hpos : (0 : ℚ) < 10 ^ prec := by positivity
  have hx : 0 ≤ x := by
    by_contra hneg
    have := mul_neg_of_neg_of_pos (not_le.mp hneg) hpos
    rw [h] at this
    exact absurd this (not_lt.mpr (Nat.cast_nonneg N))
  have hnum : x.num.natAbs * 10 ^ prec = N * x.den := by
    have habs : (x.num.natAbs : ℚ) = x.num := by
      rw [← Int.cast_natCast, Int.natAbs_of_nonneg (Rat.num_nonneg.mpr hx)]
    have hq : (x.num.natAbs : ℚ) * 10 ^ prec = N * x.den := by
      rw [habs, ← Rat.mul_den_eq_num, ← h]
      ring
    exact_mod_cast hq
  have hden := x.den_pos
  rw [floatString, if_neg (not_lt.mpr hx)]
  generalize x.num.natAbs = a at *
  generalize x.den = b at *
  have hsplit := Nat.div_add_mod a b
  obtain ⟨t, ht⟩ : b ∣ a % b * 10 ^ prec := by
    refine (Nat.dvd_add_right (Dvd.intro (a / b * 10 ^ prec) rfl)).mp ⟨N, ?_⟩
    rw [← mul_assoc, ← add_mul, hsplit, hnum, mul_comm]
  have hN : N = a / b * 10 ^ prec + t := by
    refine Nat.eq_of_mul_eq_mul_left hden ?_
    rw [mul_add, ← ht, ← mul_assoc, ← add_mul, hsplit, hnum, mul_comm]
  have hlt : t < 10 ^ prec := by
    refine Nat.lt_of_mul_lt_mul_left (a := b) ?_
    rw [← ht]
    exact Nat.mul_lt_mul_of_pos_right (Nat.mod_lt _ hden) (by positivity)
  have hdiv : N / 10 ^ prec = a / b := by
    rw [hN, mul_comm, Nat.mul_add_div (by positivity), Nat.div_eq_of_lt hlt, add_zero]
  have hmod : N % 10 ^ prec = t := by
    rw [hN, mul_comm, Nat.mul_add_mod, Nat.mod_eq_of_lt hlt]
  have hlen : prec ≠ 0 → (Nat.toDigits 10 t).length ≤ prec := fun hprec =>
    (Nat.length_toDigits_le_iff (by decide) (Nat.pos_of_ne_zero hprec)).mpr hlt
  rw [hdiv, hmod, ht, Nat.mul_div_cancel_left _ hden, Nat.mul_mod_right, add_zero,
    if_neg (Nat.not_le.mpr hden), if_neg (Nat.not_le.mpr hlt)]
  refine ⟨_, rfl, ?_, ?_, ?_, ?_⟩ <;> dsimp only <;> split_ifs with hprec
  · exact hprec.symm
  · have := hlen hprec
    simp only [length_append, length_replicate]
    omega
  · rfl
  · rw [all_append, Bool.and_eq_true]
    exact ⟨by simp, all_isDigit_toDigits t⟩
  · subst hprec
    simp only [pow_zero, Nat.lt_one_iff] at hlt
    rw [hlt]
    rfl
  · rw [Nat.ofDigitChars_append, Nat.ofDigitChars_replicate_zero, mul_zero,
      Nat.ofDigitChars_ten_toDigits]
  · rw [hprec]
    exact fun _ => rfl
  · rintro rfl
    have hsucc : prec = prec - 1 + 1 := by omega
    rw [Nat.toDigits_zero]
    conv_rhs => rw [hsucc, replicate_succ']
    rfl

lemma eq_trimZeros_append (decs : List Char) : ∃ k, decs = trimZeros decs ++ replicate k '0' := by
  refine ⟨(decs.reverse.takeWhile (· == '0')).length, ?_⟩
  have hzeros : decs.reverse.takeWhile (· == '0') =
      replicate (decs.reverse.takeWhile (· == '0')).length '0' :=
    eq_replicate_of_mem (fun c hc => by simpa using mem_takeWhile_imp hc)
  have happ := congrArg reverse (takeWhile_append_dropWhile (p := (· == '0')) (l := decs.reverse))
  rw [reverse_append, reverse_reverse, hzeros, reverse_replicate] at happ
  exact happ.symm

lemma decimalString_of_exact {N : ℕ} (h : x * 10 ^ prec = N) :
    ∃ fs, decimalString x prec = Nat.toDigits 10 (N / 10 ^ prec) ++ point fs ∧
      fs.all Char.isDigit = true ∧ fs.length ≤ prec ∧
      (Nat.ofDigitChars 10 (Nat.toDigits 10 (N / 10 ^ prec) ++ fs) 0 : ℚ) / 10 ^ fs.length = x ∧
      (N % 10 ^ prec = 0 → fs = []) := by
  obtain ⟨decs, hfloat, hlen, hdigits, hvalue, hzero⟩ := floatString_of_exact h
  obtain ⟨k, hk⟩ := eq_trimZeros_append decs
  refine ⟨trimZeros decs, by rw [decimalString, hfloat], ?_, ?_, ?_, fun hN => ?_⟩
  · rw [hk, all_append, Bool.and_eq_true] at hdigits
    exact hdigits.1
  · have := congrArg length hk
    simp only [length_append, length_replicate] at this
    omega
  · generalize trimZeros decs = fs at *
    have hprec : prec = fs.length + k := by rw [← hlen, hk, length_append, length_replicate]
    rw [hk, Nat.ofDigitChars_append, Nat.ofDigitChars_replicate_zero] at hvalue
    have hN : Nat.ofDigitChars 10 (Nat.toDigits 10 (N / 10 ^ prec) ++ fs) 0 * 10 ^ k = N := by
      rw [Nat.ofDigitChars_append, Nat.ofDigitChars_ten_toDigits,
        Nat.ofDigitChars_eq_ofDigitChars_zero,
        add_mul, mul_comm _ (10 ^ k), mul_comm _ (10 ^ k), hvalue, ← mul_assoc, ← pow_add,
        add_comm k, ← hprec]
      exact Nat.div_add_mod N _
    generalize Nat.ofDigitChars 10 (Nat.toDigits 10 (N / 10 ^ prec) ++ fs) 0 = v at *
    have hNq : (v : ℚ) * 10 ^ k = N := by exact_mod_cast hN
    rw [← h, hprec, pow_add, ← mul_assoc] at hNq
    rw [div_eq_iff (by positivity)]
    exact mul_right_cancel₀ (by positivity) hNq
  · rw [hzero hN, trimZeros, reverse_replicate]
    simp

lemma decimalString_natCast (n prec : ℕ) : decimalString n prec = Nat.toDigits 10 n := by
  have hexact : (n : ℚ) * 10 ^ prec = (n * 10 ^ prec : ℕ) := by push_cast; rfl
  obtain ⟨fs, htext, _, _, _, hnil⟩ := decimalString_of_exact hexact
  rw [htext, hnil (by simp), Nat.mul_div_cancel _ (by positivity)]
  simp [point]

end

namespace CoinType
variable {ct : CoinType} {u w : CoinUnit} {ds fs : List Char}

/-- Units have different denominations of the grammar and at most 18 decimals. -/
structure Regular (ct : CoinType) : Prop where
  min_mem : ct.minUnit ∈ ct.units
  nodup : (ct.units.map CoinUnit.denom).Nodup
  grammar : ∀ u ∈ ct.units, matchDenom u.denom.toList = true
  decimal : ct.minUnit.decimal ≤ 18

lemma Regular.getUnit (h : ct.Regular) (hu : u ∈ ct.units) : ct.getUnit u.denom = some u := by
  have hlower : ∀ v ∈ ct.units, toLower v.denom = v.denom := fun v hv =>
    toLower_eq_self (fun c hc => toLower_of_isDenomChar (mem_matchDenom (h.grammar v hv) c hc))
  have hnodup := h.nodup
  unfold CoinType.getUnit
  generalize ct.units = l at *
  induction l with
  | nil => cases hu
  | cons v l ih =>
    rw [map_cons, nodup_cons] at hnodup
    by_cases hv : u = v
    · subst hv
      simp
    · have hmem : u ∈ l := (mem_cons.mp hu).resolve_left hv
      have hne : u.denom ≠ v.denom := fun heq => hnodup.1 (heq ▸ mem_map_of_mem hmem)
      rw [find?_cons_of_neg]
      · exact ih hmem (fun x hx => hlower x (mem_cons_of_mem _ hx)) hnodup.2
      · rw [hlower u hu, hlower v mem_cons_self]
        simpa using hne

lemma getScaleFactor_eq (h : u.decimal ≤ 18) : u.getScaleFactor = .ok (10 ^ u.decimal) := by
  have hle : (10 : ℤ) ^ u.decimal ≤ 10 ^ 18 := pow_le_pow_right₀ (by decide) h
  have hpos : (0 : ℤ) < 10 ^ u.decimal := by positivity
  refine SdkInt.newIntFromBigInt_ok.mpr ⟨(one_mul _).symm, SdkInt.inRange_iff.mpr ?_⟩
  rw [one_mul]
  have hlarge : (10 : ℤ) ^ 18 < 2 ^ 255 := by decide +kernel
  constructor <;> linarith

lemma Regular.convert_eq (h : ct.Regular) (hu : u ∈ ct.units) (hw : w ∈ ct.units)
    (hne : u.denom ≠ w.denom) (hudec : u.decimal ≤ 18) (hwdec : w.decimal ≤ 18) (hnil : ds ≠ [])
    (hds : ds.all Char.isDigit = true) (hfs : fs.all Char.isDigit = true)
    (hlen : fs.length ≤ ct.minUnit.decimal) :
    ct.convert (String.ofList (ds ++ point fs) ++ u.denom) w.denom =
      .ok (.ok (String.ofList (decimalString (Nat.ofDigitChars 10 (ds ++ fs) 0 / 10 ^ fs.length *
        ((10 ^ w.decimal : ℤ) / (10 ^ u.decimal : ℤ))) ct.minUnit.decimal) ++ w.denom)) := by
  rw [convert, parseCoinParts_point hnil hds hfs (h.grammar u hu)]
  simp only [h.getUnit hu, h.getUnit hw, if_neg hne, getScaleFactor_eq hudec,
    getScaleFactor_eq hwdec, ok_bind, newRatFromDecimal_point hnil hds hfs hlen h.decimal, pure_ok]
  rfl

/-- An amount comes back from every unit with at most as many decimals. -/
theorem convert_round_trip (ct : CoinType) (u : CoinUnit) (amount : ℤ) (h : ct.Regular)
    (hu : u ∈ ct.units) (hle : u.decimal ≤ ct.minUnit.decimal) (hnonneg : 0 ≤ amount)
    (hrange : SdkInt.InRange amount) :
    ∃ s, ct.convert (Coin.string ⟨ct.minUnit.denom, amount⟩) u.denom = .ok (.ok s) ∧
      ct.convertToMinDenomCoin s = .ok (.ok ⟨ct.minUnit.denom, amount⟩) := by
  obtain ⟨n, rfl⟩ := Int.eq_ofNat_of_zero_le hnonneg
  have hlt : n < 2 ^ 255 := by exact_mod_cast (SdkInt.inRange_iff.mp hrange).2
  have hparse := parseCoin_toDigits (h.grammar _ h.min_mem) hlt
  have hds := all_isDigit_toDigits
  have hstring : Coin.string ⟨ct.minUnit.denom, n⟩ =
      String.ofList (Nat.toDigits 10 n ++ point []) ++ ct.minUnit.denom := by
    rw [point, if_pos rfl, append_nil]
    rfl
  have hback : ∀ {s}, ct.convert s ct.minUnit.denom =
      .ok (.ok (String.ofList (Nat.toDigits 10 n) ++ ct.minUnit.denom)) →
      ct.convertToMinDenomCoin s = .ok (.ok ⟨ct.minUnit.denom, n⟩) := by
    intro s hs
    rw [convertToMinDenomCoin, hs, ok_bind]
    dsimp only
    rw [hparse, pure_ok]
  rw [hstring]
  by_cases heq : ct.minUnit.denom = u.denom
  · have hsame : ct.convert (String.ofList (Nat.toDigits 10 n ++ point []) ++ ct.minUnit.denom)
        ct.minUnit.denom = .ok (.ok (String.ofList (Nat.toDigits 10 n ++ point []) ++
          ct.minUnit.denom)) := by
      rw [convert, parseCoinParts_point Nat.toDigits_ne_nil (hds n) rfl (h.grammar _ h.min_mem)]
      simp only [h.getUnit h.min_mem, if_true]
    refine ⟨_, heq ▸ hsame, hback (hsame.trans ?_)⟩
    rw [point, if_pos rfl, append_nil]
  · have hexact : (Nat.ofDigitChars 10 (Nat.toDigits 10 n ++ []) 0 / 10 ^ ([] : List Char).length *
        ((10 ^ u.decimal : ℤ) / (10 ^ ct.minUnit.decimal : ℤ)) : ℚ) * 10 ^ ct.minUnit.decimal =
          (n * 10 ^ u.decimal : ℕ) := by
      rw [append_nil, Nat.ofDigitChars_ten_toDigits]
      push_cast
      field_simp
      simp
    obtain ⟨fs, htext, hfs, hlen, hvalue, _⟩ := decimalString_of_exact hexact
    refine ⟨_, h.convert_eq h.min_mem hu heq h.decimal (hle.trans h.decimal) Nat.toDigits_ne_nil
      (hds n) rfl (Nat.zero_le _), hback ?_⟩
    rw [htext, h.convert_eq hu h.min_mem (Ne.symm heq) (hle.trans h.decimal) h.decimal
      Nat.toDigits_ne_nil (hds _) hfs hlen, hvalue, append_nil, Nat.ofDigitChars_ten_toDigits]
    have hcancel : (n / 10 ^ ([] : List Char).length * ((10 ^ u.decimal : ℤ) /
        (10 ^ ct.minUnit.decimal : ℤ)) *
        ((10 ^ ct.minUnit.decimal : ℤ) / (10 ^ u.decimal : ℤ)) : ℚ) =
          n := by
      push_cast
      field_simp
      simp
    rw [hcancel, decimalString_natCast]

/-- Five units of `10 ^ (-18)` iris. -/
theorem convert_round_trip_iris :
    ∃ s, convert ⟨⟨"iris-atto", 18⟩, [⟨"iris", 0⟩, ⟨"iris-atto", 18⟩]⟩
        (Coin.string ⟨"iris-atto", 5⟩) "iris" = .ok (.ok s) ∧
      convertToMinDenomCoin ⟨⟨"iris-atto", 18⟩, [⟨"iris", 0⟩, ⟨"iris-atto", 18⟩]⟩ s =
        .ok (.ok ⟨"iris-atto", 5⟩) :=
  convert_round_trip ⟨⟨"iris-atto", 18⟩, [⟨"iris", 0⟩, ⟨"iris-atto", 18⟩]⟩ ⟨"iris", 0⟩ 5
    ⟨by decide, by decide, by decide, by decide⟩ (by decide) (by decide) (by decide)
    (by unfold SdkInt.InRange; decide +kernel)

end CoinType
end Irishub
