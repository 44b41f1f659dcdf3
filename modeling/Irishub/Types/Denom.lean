import Irishub.Lib.Strings
import Irishub.Types.Fault

/-!
# Denominations

The coin-name and denomination checks of `types/coin.go`, the conversions
between a coin name and its minimum unit of `types/coin_type.go`, and the
store key of a token's total supply of `types/asset.go`.

The two regular expressions of the source,

    reCoinName = ([a-z][0-9a-z]{2}[:])?(([a-z][a-z0-9]{2,7}|x)\.)?([a-z][a-z0-9]{2,7})
    reDenom    = reCoinName(-[a-z]{3,5})?

have their groups separated by the characters `:`, `.` and `-`, which occur in
no group, so they are matched here by stripping the groups one after another.
-/

namespace Irishub
open Lib List Bool

/-- `[a-z]`. -/
def isLowerLetter (c : Char) : Bool := 'a' ≤ c && c ≤ 'z'

/-- `[a-z0-9]`. -/
def isLowerAlnum (c : Char) : Bool := isLowerLetter c || ('0' ≤ c && c ≤ '9')

/-- `[a-z][a-z0-9]{2,7}`. -/
def isWord : List Char → Bool
  | [] => false
  | c :: r => isLowerLetter c && r.all isLowerAlnum && 2 ≤ r.length && r.length ≤ 7

/-- Strip `([a-z][0-9a-z]{2}[:])?`. -/
def stripAbs : List Char → List Char
  | a :: b :: c :: ':' :: r =>
    if isLowerLetter a && isLowerAlnum b && isLowerAlnum c then r else a :: b :: c :: ':' :: r
  | s => s

/-- Strip `(([a-z][a-z0-9]{2,7}|x)\.)?`. -/
def stripSource (s : List Char) : List Char :=
  match s.dropWhile (· != '.') with
  | '.' :: r => if isWord (s.takeWhile (· != '.')) || s.takeWhile (· != '.') == ['x'] then r else s
  | _ => s

/-- `reCoinName` on a list of characters. -/
def matchCoinName (s : List Char) : Bool := isWord (stripSource (stripAbs s))

/-- `reDenom` on a list of characters. -/
def matchDenom (s : List Char) : Bool :=
  match s.dropWhile (· != '-') with
  | '-' :: u =>
    matchCoinName (s.takeWhile (· != '-')) &&
      (u.all isLowerLetter && 3 ≤ u.length && u.length ≤ 5)
  | _ => matchCoinName s

def isCoinNameValid (coinName : String) : Bool := matchCoinName coinName.toList

def iris : String := "iris"

def irisAtto : String := "iris-atto"

def minDenomSuffix : String := "-min"

def isCoinMinDenomValid (denom : String) : Bool :=
  if denom ≠ irisAtto ∧ (hasSuffix denom minDenomSuffix = false ∨ hasPrefix denom "iris-" = true)
  then false
  else matchDenom denom.toList

/-- Denominations of the units of `IrisCoinType`. -/
def irisUnits : List String :=
  ["iris", "iris-milli", "iris-micro", "iris-nano", "iris-pico", "iris-femto", "iris-atto"]

/-- `GetCoinNameByDenom`; `none` is its error. -/
def getCoinNameByDenom (denom : String) : Option String :=
  let denom := toLower denom
  if hasPrefix denom "iris-" then
    if denom ∈ irisUnits then some iris else none
  else if isCoinMinDenomValid denom = false then none
  else
    let coinName := trimSuffix denom minDenomSuffix
    if coinName = "" then none else some coinName

def getCoinMinDenom (coinName : String) : String :=
  let coinName := toLower (trimSpace coinName)
  if coinName = iris then irisAtto else coinName ++ minDenomSuffix

/-- A run of `n` consecutive characters satisfying `p`: the match of an unanchored `[p]{n,m}`. -/
def hasRun (p : Char → Bool) (n : ℕ) : List Char → Bool
  | [] => n == 0
  | c :: s => (n ≤ (c :: s).length && ((c :: s).take n).all p) || hasRun p n s

/-- `[A-Za-z0-9\.]`. -/
def isTokenChar (c : Char) : Bool :=
  isLowerAlnum c || ('A' ≤ c && c ≤ 'Z') || c == '.'

/-- `ConvertIdToTokenKeyId`; `none` is its error. -/
def convertIdToTokenKeyId (tokenId : String) : Option String :=
  if hasRun isTokenChar 3 tokenId.toList = false then none
  else if '.' ∈ tokenId.toList then some (toLower tokenId)
  else some (toLower ("i." ++ tokenId))

/-- `ConvertDenomToTokenId`; `none` is its error. -/
def convertDenomToTokenId (denom : String) : Option String :=
  if hasRun (fun c => isTokenChar c || c == '-') 3 denom.toList = false then none
  else some (toLower (String.ofList (denom.toList.takeWhile (· != '-'))))

/-- `TotalSupplyStoreKey` without its constant prefix; a conversion error leaves the empty key. -/
def totalSupplyStoreKey (denom : String) : String :=
  ((convertDenomToTokenId denom).bind convertIdToTokenKeyId).getD ""

section
variable {c : Char} {s : List Char}

def isDenomChar (c : Char) : Bool := isLowerAlnum c || c == ':' || c == '.' || c == '-'

lemma isDenomChar_of_isLowerAlnum (h : isLowerAlnum c = true) : isDenomChar c = true := by
  simp [isDenomChar, h]

lemma isDenomChar_of_isLowerLetter (h : isLowerLetter c = true) : isDenomChar c = true :=
  isDenomChar_of_isLowerAlnum (by simp [isLowerAlnum, h])

lemma isLowerLetter_iff : isLowerLetter c = true ↔ 97 ≤ c.toNat ∧ c.toNat ≤ 122 := by
  simp only [isLowerLetter, and_eq_true, decide_eq_true_eq, Char.le_def, UInt32.le_iff_toNat_le]
  exact Iff.rfl

lemma isDigitChar_iff : ('0' ≤ c && c ≤ '9') = true ↔ 48 ≤ c.toNat ∧ c.toNat ≤ 57 := by
  simp only [and_eq_true, decide_eq_true_eq, Char.le_def, UInt32.le_iff_toNat_le]
  exact Iff.rfl

lemma isLowerAlnum_iff : isLowerAlnum c = true ↔ (97 ≤ c.toNat ∧ c.toNat ≤ 122) ∨
      (48 ≤ c.toNat ∧ c.toNat ≤ 57) := by
  rw [isLowerAlnum, or_eq_true, isLowerLetter_iff, isDigitChar_iff]

/-- Code points of the characters of a denomination. -/
lemma toNat_of_isDenomChar (h : isDenomChar c = true) :
    (97 ≤ c.toNat ∧ c.toNat ≤ 122) ∨ (48 ≤ c.toNat ∧ c.toNat ≤ 58) ∨ c.toNat = 46 ∨
      c.toNat = 45 := by
  simp only [isDenomChar, or_eq_true, beq_iff_eq, isLowerAlnum_iff] at h
  rcases h with ((h | rfl) | rfl) | rfl
  · omega
  · exact .inr (.inl (by decide))
  · exact .inr (.inr (.inl rfl))
  · exact .inr (.inr (.inr rfl))

lemma toLower_of_isDenomChar (h : isDenomChar c = true) : Unicode.toLower c = c := by
  have hcode := toNat_of_isDenomChar h
  exact Unicode.toLower_eq_self (by omega) (by omega)

lemma isSpace_of_isDenomChar (h : isDenomChar c = true) : Unicode.isSpace c = false := by
  have hcode := toNat_of_isDenomChar h
  rw [← not_eq_true]
  simp only [Unicode.isSpace, or_eq_true, and_eq_true, decide_eq_true_eq, beq_iff_eq]
  omega

lemma mem_isWord (h : isWord s = true) : ∀ c ∈ s, isDenomChar c = true := by
  cases s with
  | nil => simp
  | cons d r =>
    simp only [isWord, and_eq_true, all_eq_true] at h
    intro c hc
    rcases mem_cons.mp hc with rfl | hc
    · exact isDenomChar_of_isLowerLetter h.1.1.1
    · exact isDenomChar_of_isLowerAlnum (h.1.1.2 c hc)

lemma mem_stripAbs (h : ∀ c ∈ stripAbs s, isDenomChar c = true) :
    ∀ c ∈ s, isDenomChar c = true := by
  unfold stripAbs at h
  split at h
  · rename_i a b c r
    split_ifs at h with hp
    · simp only [and_eq_true] at hp
      intro d hd
      simp only [mem_cons] at hd
      rcases hd with rfl | rfl | rfl | rfl | hd
      · exact isDenomChar_of_isLowerLetter hp.1.1
      · exact isDenomChar_of_isLowerAlnum hp.1.2
      · exact isDenomChar_of_isLowerAlnum hp.2
      · decide
      · exact h d hd
    · exact h
  · exact h

lemma takeWhile_append_cons {r : List Char}
    (h : s.dropWhile (· != c) = c :: r) : s = s.takeWhile (· != c) ++ c :: r := by
  conv_lhs => rw [← takeWhile_append_dropWhile (p := (· != c)) (l := s), h]

lemma mem_stripSource (h : ∀ c ∈ stripSource s, isDenomChar c = true) :
    ∀ c ∈ s, isDenomChar c = true := by
  unfold stripSource at h
  split at h
  · rename_i r hr
    split_ifs at h with hp
    · have hpre : ∀ c ∈ s.takeWhile (· != '.'), isDenomChar c = true := by
        rcases or_eq_true_iff.mp hp with hw | hx
        · exact mem_isWord hw
        · rw [beq_iff_eq.mp hx]
          exact all_eq_true.mp (by decide)
      intro c hc
      rw [takeWhile_append_cons hr] at hc
      rcases mem_append.mp hc with hc | hc
      · exact hpre c hc
      · rcases mem_cons.mp hc with rfl | hc
        · decide
        · exact h c hc
    · exact h
  · exact h

lemma mem_matchCoinName (h : matchCoinName s = true) : ∀ c ∈ s, isDenomChar c = true :=
  mem_stripAbs (mem_stripSource (mem_isWord h))

lemma mem_matchDenom (h : matchDenom s = true) : ∀ c ∈ s, isDenomChar c = true := by
  unfold matchDenom at h
  split at h
  · rename_i u hu
    simp only [and_eq_true, all_eq_true] at h
    intro c hc
    rw [takeWhile_append_cons hu] at hc
    rcases mem_append.mp hc with hc | hc
    · exact mem_matchCoinName h.1 c hc
    · rcases mem_cons.mp hc with rfl | hc
      · decide
      · exact isDenomChar_of_isLowerLetter (h.2.1.1 c hc)
  · exact mem_matchCoinName h

end

section
variable {t : String}

lemma matchDenom_of_isCoinMinDenomValid (h : isCoinMinDenomValid t = true) :
    matchDenom t.toList = true := by
  unfold isCoinMinDenomValid at h
  split_ifs at h
  exact h

lemma hasSuffix_of_isCoinMinDenomValid (h : isCoinMinDenomValid t = true) (hne : t ≠ irisAtto) :
    hasSuffix t minDenomSuffix = true ∧ hasPrefix t "iris-" = false := by
  unfold isCoinMinDenomValid at h
  split_ifs at h with hc
  have hn := fun hor => hc ⟨hne, hor⟩
  exact ⟨by simpa using fun hs => hn (Or.inl hs), by simpa using fun hp => hn (Or.inr hp)⟩

lemma toLower_of_isCoinMinDenomValid (h : isCoinMinDenomValid t = true) : toLower t = t :=
  toLower_eq_self (fun c hc =>
    toLower_of_isDenomChar (mem_matchDenom (matchDenom_of_isCoinMinDenomValid h) c hc))

lemma getCoinNameByDenom_of_valid (h : isCoinMinDenomValid t = true) (hne : t ≠ irisAtto) :
    getCoinNameByDenom t = some (trimSuffix t minDenomSuffix) := by
  obtain ⟨hsuf, hpre⟩ := hasSuffix_of_isCoinMinDenomValid h hne
  have hname : trimSuffix t minDenomSuffix ≠ "" := by
    intro he
    have ht : t = minDenomSuffix := by
      rw [← append_trimSuffix hsuf, he]
      rfl
    rw [ht] at h
    revert h
    decide
  simp only [getCoinNameByDenom, toLower_of_isCoinMinDenomValid h, hpre, h, false_eq_true,
    if_false, reduceCtorEq, hname]

lemma getCoinMinDenom_of_chars (hchars : ∀ c ∈ t.toList, isDenomChar c = true) (hne : t ≠ iris) :
    getCoinMinDenom t = t ++ minDenomSuffix := by
  have hspace : trimSpace t = t :=
    trimSpace_eq_self (fun c hc => isSpace_of_isDenomChar (hchars c hc))
  have hlower : toLower t = t := toLower_eq_self (fun c hc => toLower_of_isDenomChar (hchars c hc))
  simp only [getCoinMinDenom, hspace, hlower, if_neg hne]

/-- Minimum unit of a valid coin name other than iris. -/
lemma getCoinMinDenom_of_valid (h : isCoinNameValid t = true) (hne : t ≠ iris) :
    getCoinMinDenom t = t ++ minDenomSuffix :=
  getCoinMinDenom_of_chars (mem_matchCoinName h) hne

end
end Irishub
