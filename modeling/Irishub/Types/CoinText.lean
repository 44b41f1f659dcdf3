import Irishub.Types.Coin
import Irishub.Types.DecText
import Mathlib.Tactic.IntervalCases

/-!
# The texts of coins

`ParseCoin` and `ParseCoins` of `types/coin.go`. The amount of a coin is what stands before the
first letter, since every denomination begins with one. It is read by `SetString` in base zero,
for which a leading zero means octal (`parseCoin_base_ten_iff`). `String` prints no leading zero,
so a valid set of coins is read back from its text (`parseCoins_string`).
-/

namespace Irishub
open Lib List
variable {s ds : List Char} {c : Char} {denom : String}

/-- `[[:space:]]`, which stays within ASCII. -/
def isPosixSpace (c : Char) : Bool := (9 ≤ c.toNat && c.toNat ≤ 13) || c.toNat == 0x20

/-- `reCoin`: the amount and the denomination. -/
def matchCoin (s : List Char) : Option (List Char × List Char) :=
  let whole := s.takeWhile Char.isDigit
  let rest := s.dropWhile Char.isDigit
  let decs := if rest.head? = some '.' then '.' :: rest.tail.takeWhile Char.isDigit else []
  let denom := (rest.drop decs.length).dropWhile isPosixSpace
  if whole ≠ [] ∧ decs ≠ ['.'] ∧ matchDenom denom then some (whole ++ decs, denom) else none

def parseCoin (coinStr : String) : Except String Coin :=
  let coinStr := toLower (trimSpace coinStr)
  match matchCoin coinStr.toList with
  | none => .error ("invalid coin expression: " ++ coinStr)
  | some (amountStr, denomStr) =>
    match SdkInt.newIntFromString (String.ofList amountStr) with
    | none => .error ("failed to parse coin amount: " ++ String.ofList amountStr)
    | some amount => .ok ⟨String.ofList denomStr, amount⟩

lemma head_of_isWord (h : isWord s = true) : ∃ c r, s = c :: r ∧ isLowerLetter c = true := by
  cases s with
  | nil => cases h
  | cons c r =>
    simp only [isWord, Bool.and_eq_true] at h
    exact ⟨c, r, rfl, h.1.1.1⟩

lemma head_of_takeWhile {p : Char → Bool} {r : List Char} (h : s.takeWhile p = c :: r) :
    ∃ t, s = c :: t :=
  ⟨_, by rw [← takeWhile_append_dropWhile (p := p) (l := s), h]; rfl⟩

/-- A coin name begins with a letter, and so does a denomination. -/
lemma head_of_matchCoinName (h : matchCoinName s = true) :
    ∃ c r, s = c :: r ∧ isLowerLetter c = true := by
  have hsource : ∀ {t}, isWord (stripSource t) = true →
      ∃ c r, t = c :: r ∧ isLowerLetter c = true := by
    intro t ht
    unfold stripSource at ht
    split at ht
    · split_ifs at ht with hstrip
      · rw [Bool.or_eq_true, beq_iff_eq] at hstrip
        obtain ⟨c, r, hc, hletter⟩ :
            ∃ c r, t.takeWhile (· != '.') = c :: r ∧ isLowerLetter c = true :=
          hstrip.elim head_of_isWord (fun hx => ⟨'x', [], hx, by decide⟩)
        obtain ⟨u, hu⟩ := head_of_takeWhile hc
        exact ⟨c, u, hu, hletter⟩
      · exact head_of_isWord ht
    · exact head_of_isWord ht
  obtain ⟨c, r, hc, hletter⟩ := hsource h
  unfold stripAbs at hc
  split at hc
  · split_ifs at hc with hstrip
    · simp only [Bool.and_eq_true] at hstrip
      exact ⟨_, _, rfl, hstrip.1.1⟩
    · exact ⟨c, r, hc, hletter⟩
  · exact ⟨c, r, hc, hletter⟩

lemma head_of_matchDenom (h : matchDenom s = true) :
    ∃ c r, s = c :: r ∧ isLowerLetter c = true := by
  unfold matchDenom at h
  split at h
  · rw [Bool.and_eq_true] at h
    obtain ⟨c, r, hc, hletter⟩ := head_of_matchCoinName h.1
    obtain ⟨t, ht⟩ := head_of_takeWhile hc
    exact ⟨c, t, ht, hletter⟩
  · exact head_of_matchCoinName h

lemma not_isDigit_of_isLowerLetter (h : isLowerLetter c = true) : c.isDigit = false := by
  simp only [isLowerLetter, Bool.and_eq_true, decide_eq_true_eq, Char.le_def,
    UInt32.le_iff_toNat_le] at h
  simp only [Char.isDigit, ge_iff_le, Bool.and_eq_false_iff, decide_eq_false_iff_not,
    UInt32.le_iff_toNat_le]
  have ha : ('a' : Char).val.toNat = 97 := rfl
  have hnine : ('9' : Char).val.toNat = 57 := rfl
  omega

lemma isDenomChar_of_isDigit (h : c.isDigit = true) : isDenomChar c = true := by
  simp only [Char.isDigit, Bool.and_eq_true, decide_eq_true_eq, ge_iff_le] at h
  have hdigit : ('0' ≤ c && c ≤ '9') = true := by simpa [Char.le_def] using h
  simp [isDenomChar, isLowerAlnum, hdigit]

lemma isPosixSpace_of_isLowerLetter (h : isLowerLetter c = true) : isPosixSpace c = false := by
  rw [isLowerLetter_iff] at h
  rw [← Bool.not_eq_true]
  simp only [isPosixSpace, Bool.or_eq_true, Bool.and_eq_true, decide_eq_true_eq, beq_iff_eq]
  omega

lemma matchCoin_digits {t : List Char} (hne : ds ≠ []) (hds : ds.all Char.isDigit = true)
    (ht : matchDenom t = true) : matchCoin (ds ++ t) = some (ds, t) := by
  obtain ⟨c, r, rfl, hletter⟩ := head_of_matchDenom ht
  have hdigit := not_isDigit_of_isLowerLetter hletter
  have hspace := isPosixSpace_of_isLowerLetter hletter
  have hperiod : c ≠ '.' := by
    rintro rfl
    cases hletter
  have hall := all_eq_true.mp hds
  simp [matchCoin, takeWhile_append_of_pos hall, dropWhile_append_of_pos hall, hdigit, hperiod,
    hspace, hne, ht]

lemma isDenomChar_of_coin (hds : ds.all Char.isDigit = true)
    (hdenom : matchDenom denom.toList = true) :
    ∀ c ∈ (String.ofList ds ++ denom).toList, isDenomChar c = true := by
  intro c hc
  rw [String.toList_append, String.toList_ofList, mem_append] at hc
  exact hc.elim (fun h => isDenomChar_of_isDigit (all_eq_true.mp hds c h)) (mem_matchDenom hdenom c)

/-- A number before a denomination is read by `NewIntFromString`. -/
lemma parseCoin_digits (hne : ds ≠ []) (hds : ds.all Char.isDigit = true)
    (hdenom : matchDenom denom.toList = true) :
    parseCoin (String.ofList ds ++ denom) = (SdkInt.newIntFromString (String.ofList ds)).elim
      (.error ("failed to parse coin amount: " ++ String.ofList ds))
      (fun amount => .ok ⟨denom, amount⟩) := by
  have hchars := isDenomChar_of_coin hds hdenom
  rw [parseCoin, trimSpace_eq_self (fun c hc => isSpace_of_isDenomChar (hchars c hc)),
    toLower_eq_self (fun c hc => toLower_of_isDenomChar (hchars c hc))]
  simp only [String.toList_append, String.toList_ofList, matchCoin_digits hne hds hdenom]
  cases SdkInt.newIntFromString (String.ofList ds) <;> simp

/-- Digits behind a zero are read in base eight. -/
lemma newIntFromString_digits (hne : ds ≠ []) (hds : ds.all Char.isDigit = true) :
    SdkInt.newIntFromString (String.ofList ds) =
      if ds.head? = some '0' then
        if ds.all (isDigitBelow 8) = true ∧ Nat.ofDigitChars 8 ds 0 < 2 ^ 255 then
          some (Nat.ofDigitChars 8 ds 0 : ℤ) else none
      else if Nat.ofDigitChars 10 ds 0 < 2 ^ 255 then some (Nat.ofDigitChars 10 ds 0 : ℤ)
      else none := by
  have hmem : ∀ {c}, c.isDigit = false → c ∉ ds := Dec.not_mem_of_digits hds
  have hset : SdkInt.setString (String.ofList ds) =
      (SdkInt.scanNat ds).map (fun n : ℕ => (n : ℤ)) := by
    rw [SdkInt.setString, String.toList_ofList]
    split
    · exact absurd mem_cons_self (hmem rfl)
    · exact absurd mem_cons_self (hmem rfl)
    · cases SdkInt.scanNat ds <;> rfl
  have hscan : SdkInt.scanNat ds = if ds.head? = some '0' then
      if ds.all (isDigitBelow 8) = true then some (Nat.ofDigitChars 8 ds 0) else none
      else some (Nat.ofDigitChars 10 ds 0) := by
    unfold SdkInt.scanNat
    split
    · decide
    · exact absurd (mem_cons_of_mem _ mem_cons_self) (hmem rfl)
    · exact absurd (mem_cons_of_mem _ mem_cons_self) (hmem rfl)
    · exact absurd (mem_cons_of_mem _ mem_cons_self) (hmem rfl)
    · exact absurd (mem_cons_of_mem _ mem_cons_self) (hmem rfl)
    · next cs hcs _ _ _ _ =>
      have hzero : isDigitBelow 8 '0' = true := by decide
      rw [if_pos head?_cons, all_cons, hzero, Bool.true_and, Nat.ofDigitChars_cons]
      split_ifs with hoctal
      · exact (scanNumber_eq_some (by decide)).mpr ⟨⟨hcs, hoctal⟩, rfl⟩
      · refine Option.eq_none_iff_forall_not_mem.mpr (fun n hn => ?_)
        exact hoctal ((scanNumber_eq_some (by decide)).mp hn).1.2
    · next hother =>
      rw [if_neg (fun h => ?_)]
      · exact (scanNumber_eq_some le_rfl).mpr ⟨⟨hne, isDigitBelow_ten ▸ hds⟩, rfl⟩
      · obtain ⟨r, rfl⟩ := head?_eq_some_iff.mp h
        exact hother r rfl
  have hbits : ∀ n : ℕ, bitLen n > SdkInt.maxBitLen ↔ ¬ n < 2 ^ 255 := by
    intro n
    rw [gt_iff_lt, ← not_le, SdkInt.maxBitLen, bitLen_le_iff, Int.natAbs_natCast]
  rw [SdkInt.newIntFromString, hset, hscan]
  split_ifs <;> simp_all

/-- An amount is read in base ten unless it begins with a zero and has another value, or another
range, in base eight. -/
theorem parseCoin_base_ten_iff (ds : List Char) (denom : String) (hne : ds ≠ [])
    (hds : ds.all Char.isDigit = true) (hdenom : matchDenom denom.toList = true) :
    (if Nat.ofDigitChars 10 ds 0 < 2 ^ 255 then
      parseCoin (String.ofList ds ++ denom) = .ok ⟨denom, Nat.ofDigitChars 10 ds 0⟩
    else ∃ e, parseCoin (String.ofList ds ++ denom) = .error e) ↔
      ds.head? ≠ some '0' ∨
      ds.all (isDigitBelow 8) = true ∧ Nat.ofDigitChars 8 ds 0 = Nat.ofDigitChars 10 ds 0 ∨
      2 ^ 255 ≤ Nat.ofDigitChars 10 ds 0 ∧
        ¬ (ds.all (isDigitBelow 8) = true ∧ Nat.ofDigitChars 8 ds 0 < 2 ^ 255) := by
  rw [parseCoin_digits hne hds hdenom, newIntFromString_digits hne hds]
  generalize Nat.ofDigitChars 10 ds 0 = ten
  generalize Nat.ofDigitChars 8 ds 0 = eight
  by_cases hzero : ds.head? = some '0' <;> by_cases hoctal : ds.all (isDigitBelow 8) = true <;>
    by_cases hten : ten < 2 ^ 255 <;> by_cases height : eight < 2 ^ 255 <;>
      simp [hzero, hoctal, hten, height, -Nat.reducePow] <;> omega

theorem parseCoin_ten :
    (if Nat.ofDigitChars 10 ['1', '0'] 0 < 2 ^ 255 then
      parseCoin (String.ofList ['1', '0'] ++ "iris") =
        .ok ⟨"iris", Nat.ofDigitChars 10 ['1', '0'] 0⟩
    else ∃ e, parseCoin (String.ofList ['1', '0'] ++ "iris") = .error e) :=
  (parseCoin_base_ten_iff ['1', '0'] "iris" (by decide) (by decide) (by decide)).mpr
    (.inl (by decide))

theorem parseCoin_octal : parseCoin "010iris" = .ok ⟨"iris", 8⟩ := by decide +kernel

def Coin.string (coin : Coin) : String := String.ofList (Dec.marshalText coin.amount) ++ coin.denom

def Coins.string (coins : Coins) : String :=
  String.ofList ([','].intercalate (coins.map (fun coin => coin.string.toList)))

def parseCoins (coinsStr : String) : Except String Coins :=
  if coinsStr = "" then .ok []
  else do
    let coins ← (coinsStr.toList.splitOn ',').mapM
      (fun coinStr => parseCoin (String.ofList coinStr))
    return Coins.sort coins

/-- A number is printed without a leading zero. -/
lemma head_toDigits {n : ℕ} (h : 0 < n) : (Nat.toDigits 10 n).head? ≠ some '0' := by
  induction n using Nat.strongRecOn with
  | ind n ih =>
    by_cases hlt : n < 10
    · rw [Nat.toDigits_of_lt_base hlt]
      interval_cases n <;> decide
    · rw [Nat.toDigits_of_base_le (by decide) (by omega),
        head?_append_of_ne_nil _ Nat.toDigits_ne_nil]
      exact ih _ (by omega) (by omega)

lemma all_isDigit_toDigits (n : ℕ) : (Nat.toDigits 10 n).all Char.isDigit = true :=
  all_eq_true.mpr (fun _ hc => Nat.isDigit_of_mem_toDigits (by decide) (by decide) hc)

lemma parseCoin_toDigits {n : ℕ} (hdenom : matchDenom denom.toList = true) (hlt : n < 2 ^ 255) :
    parseCoin (String.ofList (Nat.toDigits 10 n) ++ denom) = .ok ⟨denom, n⟩ := by
  have hds := all_isDigit_toDigits n
  rw [parseCoin_digits Nat.toDigits_ne_nil hds hdenom,
    newIntFromString_digits Nat.toDigits_ne_nil hds, Nat.ofDigitChars_ten_toDigits]
  rcases Nat.eq_zero_or_pos n with rfl | hpos
  · rfl
  · rw [if_neg (head_toDigits hpos), if_pos hlt]
    rfl

lemma parseCoin_string {coin : Coin} (hvalid : coin.isValid = true)
    (hrange : SdkInt.InRange coin.amount) :
    parseCoin coin.string = .ok coin ∧ ∀ c ∈ coin.string.toList, isDenomChar c = true := by
  obtain ⟨denom, amount⟩ := coin
  simp only [Coin.isValid, Bool.and_eq_true, decide_eq_true_eq] at hvalid
  obtain ⟨n, rfl⟩ := Int.eq_ofNat_of_zero_le hvalid.1
  have hdenom := matchDenom_of_isCoinMinDenomValid hvalid.2
  have hlt : (n : ℤ) < 2 ^ 255 := (SdkInt.inRange_iff.mp hrange).2
  exact ⟨parseCoin_toDigits hdenom (by exact_mod_cast hlt),
    isDenomChar_of_coin (all_isDigit_toDigits n) hdenom⟩

/-- A valid set of coins is read back from its text. -/
theorem parseCoins_string {coins : Coins} (hvalid : coins.isValid = true)
    (hrange : ∀ coin ∈ coins, SdkInt.InRange coin.amount) :
    parseCoins coins.string = .ok coins := by
  obtain ⟨hsorted, hcoins⟩ := Coins.sorted_of_isValid hvalid
  have hread : ∀ coin ∈ coins, parseCoin coin.string = .ok coin ∧ ',' ∉ coin.string.toList := by
    intro coin hmem
    obtain ⟨hparse, hchars⟩ := parseCoin_string (hcoins coin hmem) (hrange coin hmem)
    exact ⟨hparse, fun hcomma => absurd (hchars _ hcomma) (by decide)⟩
  have hmapM : (coins.map (fun coin => coin.string.toList)).mapM
      (fun coinStr => parseCoin (String.ofList coinStr)) = .ok coins := by
    clear hvalid hsorted hcoins hrange
    induction coins with
    | nil => rfl
    | cons coin coins ih =>
      rw [map_cons, mapM_cons, String.ofList_toList, (hread coin mem_cons_self).1,
        ih (fun c hc => hread c (mem_cons_of_mem _ hc))]
      rfl
  unfold parseCoins
  split_ifs with hempty
  · cases coins with
    | nil => rfl
    | cons coin coins =>
      -- the text of a coin is not empty
      have hparse := (hread coin mem_cons_self).1
      have hnil : coin.string = "" := by
        rw [Coins.string, ← String.toList_inj, String.toList_ofList] at hempty
        rw [← String.toList_inj]
        cases coins with
        | nil => simpa [intercalate] using hempty
        | cons => simp [intercalate] at hempty
      rw [hnil] at hparse
      cases hparse
  · have hne : coins ≠ [] := by
      rintro rfl
      exact hempty rfl
    rw [Coins.string, String.toList_ofList,
      splitOn_intercalate ',' (by simpa using fun c hc => (hread c hc).2)
      (by simpa using hne), hmapM]
    have hsame : Coins.sort coins = coins := Pairwise.insertionSort_eq (hsorted.imp le_of_lt)
    simp [Bind.bind, Except.bind, hsame]

theorem parseCoins_atto :
    parseCoins (Coins.string [⟨"iris-atto", 70⟩, ⟨"uni:btc-min", 5⟩]) =
      .ok [⟨"iris-atto", 70⟩, ⟨"uni:btc-min", 5⟩] :=
  parseCoins_string (by decide +kernel) (by unfold SdkInt.InRange; decide +kernel)

end Irishub
