import Irishub.Asset.Keeper
import Irishub.Lib.Separated
import Mathlib.Data.List.TakeWhile

/-!
# Asset: identifiers of a token

A token is stored under the key computed from its source, gateway and symbol;
its supply is recorded under a key computed from its denomination. For a token
whose names have passed the checks the two keys are the same text
(`keyToken_key`, `totalSupplyStoreKey_getDenom`), so tokens stored under
different keys have different supply records.
-/

namespace Irishub.Asset
open Lib List

section
variable {c : Char}

lemma isAlpha_iff : isAlpha c = true ↔ (97 ≤ c.toNat ∧ c.toNat ≤ 122) ∨
      (65 ≤ c.toNat ∧ c.toNat ≤ 90) := by
  simp only [isAlpha, Bool.or_eq_true, isLowerLetter_iff, Bool.and_eq_true, decide_eq_true_eq,
    Char.le_def, UInt32.le_iff_toNat_le]
  exact Iff.rfl

lemma ascii_of_alnum (h : (isAlpha c || ('0' ≤ c && c ≤ '9')) = true) : c.toNat < 0x80 := by
  rw [Bool.or_eq_true, isAlpha_iff, isDigitChar_iff] at h
  omega

lemma isLowerLetter_toLower (h : isAlpha c = true) :
    isLowerLetter (Unicode.toLower c) = true := by
  rw [isAlpha_iff] at h
  rw [isLowerLetter_iff, Unicode.toNat_toLower_of_ascii (by omega)]
  split_ifs <;> omega

lemma isLowerAlnum_toLower (h : (isAlpha c || ('0' ≤ c && c ≤ '9')) = true) :
    isLowerAlnum (Unicode.toLower c) = true := by
  have hascii := ascii_of_alnum h
  rw [Bool.or_eq_true, isAlpha_iff, isDigitChar_iff] at h
  rw [isLowerAlnum_iff, Unicode.toNat_toLower_of_ascii hascii]
  split_ifs <;> omega

lemma ascii_of_isAlphaNumeric {s : String} (h : isAlphaNumeric s = true) :
    ∀ c ∈ s.toList, c.toNat < 0x80 := by
  simp only [isAlphaNumeric, Bool.and_eq_true, all_eq_true] at h
  exact fun c hc => ascii_of_alnum (h.2 c hc)

lemma byteLen_of_isAlphaNumeric {s : String} (h : isAlphaNumeric s = true) :
    byteLen s = s.toList.length :=
  byteLen_eq_length_iff.mpr (ascii_of_isAlphaNumeric h)

lemma isWord_toLower {s : String} (hsize : sizeWithin s 3 8 = true)
    (hbegin : isBeginWithAlpha s = true) (halnum : isAlphaNumeric s = true) :
    isWord (toLower s).toList = true := by
  simp only [sizeWithin, byteLen_of_isAlphaNumeric halnum, Bool.and_eq_true,
    decide_eq_true_eq] at hsize
  simp only [isAlphaNumeric, Bool.and_eq_true, all_eq_true] at halnum
  rw [toList_toLower]
  unfold isBeginWithAlpha at hbegin
  cases hs : s.toList with
  | nil => simp [hs] at hbegin
  | cons c r =>
    rw [hs] at hbegin hsize halnum
    simp only [length_cons] at hsize
    simp only [map_cons, isWord, isLowerLetter_toLower hbegin, length_map,
      Bool.true_and, Bool.and_eq_true, all_eq_true, decide_eq_true_eq]
    refine ⟨⟨?_, by omega⟩, by omega⟩
    intro d hd
    obtain ⟨d', hd', rfl⟩ := mem_map.mp hd
    exact isLowerAlnum_toLower (halnum.2 d' (mem_cons_of_mem _ hd'))

lemma length_of_isWord {s : List Char} (h : isWord s = true) : 3 ≤ s.length := by
  cases s with
  | nil => simp [isWord] at h
  | cons c r =>
    simp only [isWord, Bool.and_eq_true, decide_eq_true_eq] at h
    simp only [length_cons]
    omega

lemma isLowerAlnum_of_isWord {s : List Char} (h : isWord s = true) :
    ∀ c ∈ s, isLowerAlnum c = true := by
  cases s with
  | nil => simp
  | cons d r =>
    simp only [isWord, Bool.and_eq_true, all_eq_true] at h
    intro c hc
    rcases mem_cons.mp hc with rfl | hc
    · simp [isLowerAlnum, h.1.1.1]
    · exact h.1.1.2 c hc

lemma ne_of_isLowerAlnum {d : Char} (hd : isLowerAlnum d = false) (hc : isLowerAlnum c = true) :
    c ≠ d := by
  rintro rfl
  rw [hc] at hd
  exact absurd hd (by decide)

end

section
variable {c : Char}

def isKeyChar (c : Char) : Bool := isLowerAlnum c || c == '.'

lemma isKeyChar_of_isLowerAlnum (h : isLowerAlnum c = true) : isKeyChar c = true := by
  simp [isKeyChar, h]

lemma isTokenChar_of_isKeyChar (h : isKeyChar c = true) : isTokenChar c = true := by
  simp only [isKeyChar, Bool.or_eq_true] at h
  rcases h with h | h <;> simp [isTokenChar, h]

lemma isDenomChar_of_isKeyChar (h : isKeyChar c = true) : isDenomChar c = true := by
  simp only [isKeyChar, Bool.or_eq_true] at h
  rcases h with h | h <;> simp [isDenomChar, h]

lemma toLower_of_isKeyChar {s : String} (h : ∀ c ∈ s.toList, isKeyChar c = true) : toLower s = s :=
  toLower_eq_self (fun c hc => toLower_of_isDenomChar (isDenomChar_of_isKeyChar (h c hc)))

lemma isAlphaNumeric_of_isWord {s : String} (h : isWord s.toList = true) :
    isAlphaNumeric s = true ∧ isBeginWithAlpha s = true ∧ sizeWithin s 3 8 = true ∧
      toLower s = s := by
  have hchars := isLowerAlnum_of_isWord h
  have halnum : isAlphaNumeric s = true := by
    simp only [isAlphaNumeric, Bool.and_eq_true, all_eq_true, decide_eq_true_eq]
    refine ⟨fun hnil => ?_, fun c hc => ?_⟩
    · rw [hnil] at h
      cases h
    · have hlower := isLowerAlnum_iff.mp (hchars c hc)
      rw [Bool.or_eq_true, isAlpha_iff, isDigitChar_iff]
      omega
  refine ⟨halnum, ?_, ?_, ?_⟩
  · unfold isBeginWithAlpha
    cases hs : s.toList with
    | nil => rw [hs] at h; cases h
    | cons c r =>
      rw [hs] at h
      simp only [isWord, Bool.and_eq_true] at h
      simp only [isAlpha, h.1.1.1, Bool.true_or]
  · rw [sizeWithin, byteLen_of_isAlphaNumeric halnum]
    cases hs : s.toList with
    | nil => rw [hs] at h; cases h
    | cons c r =>
      rw [hs] at h
      simp only [isWord, Bool.and_eq_true, decide_eq_true_eq] at h
      simp only [length_cons, Bool.and_eq_true, decide_eq_true_eq]
      omega
  · exact toLower_of_isKeyChar (fun c hc => isKeyChar_of_isLowerAlnum (hchars c hc))

lemma hasRun_of_all {p : Char → Bool} {n : ℕ} {s : List Char} (hn : n ≤ s.length)
    (h : ∀ c ∈ s.take n, p c = true) : hasRun p n s = true := by
  cases s with
  | nil =>
    simp only [length_nil, Nat.le_zero] at hn
    simp [hasRun, hn]
  | cons c s =>
    have hall : ((c :: s).take n).all p = true := all_eq_true.mpr h
    simp [hasRun, hall]
    left
    simpa using hn

lemma convertIdToTokenKeyId_of_period {s : String} (hlen : 3 ≤ s.toList.length)
    (hchars : ∀ c ∈ s.toList, isKeyChar c = true) (hperiod : '.' ∈ s.toList) :
    convertIdToTokenKeyId s = some s := by
  have hrun : hasRun isTokenChar 3 s.toList = true := by
    exact hasRun_of_all hlen
      (fun c hc => isTokenChar_of_isKeyChar (hchars c (mem_of_mem_take hc)))
  rw [convertIdToTokenKeyId, hrun, if_neg (by decide), if_pos hperiod, toLower_of_isKeyChar hchars]

lemma convertIdToTokenKeyId_of_isWord {s : String} (h : isWord s.toList = true) :
    convertIdToTokenKeyId s = some ("i." ++ s) := by
  have hchars := isLowerAlnum_of_isWord h
  have hrun : hasRun isTokenChar 3 s.toList = true := by
    refine hasRun_of_all (length_of_isWord h) (fun c hc => ?_)
    simp [isTokenChar, hchars c (mem_of_mem_take hc)]
  have hperiod : '.' ∉ s.toList := fun hmem => ne_of_isLowerAlnum (by decide) (hchars '.' hmem) rfl
  have hlower : toLower ("i." ++ s) = "i." ++ s := by
    refine toLower_of_isKeyChar (fun c hc => ?_)
    rw [String.toList_append] at hc
    rcases mem_append.mp hc with hc | hc
    · have hall : "i.".toList.all isKeyChar = true := by decide
      exact all_eq_true.mp hall c hc
    · exact isKeyChar_of_isLowerAlnum (hchars c hc)
  rw [convertIdToTokenKeyId, hrun, if_neg (by decide), if_neg hperiod, hlower]

lemma convertDenomToTokenId_of_chars {s : String} (hlen : 3 ≤ s.toList.length)
    (hchars : ∀ c ∈ s.toList, isKeyChar c = true) :
    convertDenomToTokenId (s ++ minDenomSuffix) = some s := by
  have hlist : (s ++ minDenomSuffix).toList = s.toList ++ ['-', 'm', 'i', 'n'] :=
    String.toList_append
  have hrun : hasRun (fun c => isTokenChar c || c == '-') 3 (s.toList ++ ['-', 'm', 'i', 'n']) =
      true := by
    refine hasRun_of_all (by rw [length_append]; omega) (fun c hc => ?_)
    rw [take_append_of_le_length hlen] at hc
    simp [isTokenChar_of_isKeyChar (hchars c (mem_of_mem_take hc))]
  have htake : (s.toList ++ ['-', 'm', 'i', 'n']).takeWhile (· != '-') = s.toList := by
    rw [takeWhile_append_of_pos]
    · simp
    · intro c hc
      have hne : c ≠ '-' := by
        rintro rfl
        exact absurd (hchars '-' hc) (by decide)
      simpa using hne
  rw [convertDenomToTokenId, hlist, hrun, if_neg (by decide), htake, String.ofList_toList,
    toLower_of_isKeyChar hchars]

end

namespace FungibleToken

/-- Names of a token have passed the checks. -/
structure WellNamed (ft : FungibleToken) : Prop where
  symbol : isWord ft.symbol.toList = true
  ne_iris : ft.symbol ≠ iris
  gateway : ft.source = .gateway → isWord ft.gateway.toList = true
  source : ∀ b, ft.source ≠ .unknown b

def key (ft : FungibleToken) : String :=
  match ft.source with
  | .native => "i." ++ ft.symbol
  | .external => "x." ++ ft.symbol
  | .gateway => ft.gateway ++ "." ++ ft.symbol
  | .unknown _ => ""

variable {ft : FungibleToken}

lemma WellNamed.key_chars (h : ft.WellNamed) : 3 ≤ ft.key.toList.length ∧ '.' ∈ ft.key.toList ∧
      ∀ c ∈ ft.key.toList, isKeyChar c = true := by
  have hlen := length_of_isWord h.symbol
  have hsymbol := isLowerAlnum_of_isWord h.symbol
  have hshort : ∀ p : String, p.toList.all isKeyChar = true →
      '.' ∈ p.toList → 3 ≤ (p ++ ft.symbol).toList.length ∧ '.' ∈ (p ++ ft.symbol).toList ∧
        ∀ c ∈ (p ++ ft.symbol).toList, isKeyChar c = true := by
    intro p hp hperiod
    rw [String.toList_append]
    refine ⟨by rw [length_append]; omega, mem_append_left _ hperiod, fun c hc => ?_⟩
    rcases mem_append.mp hc with hc | hc
    · exact all_eq_true.mp hp c hc
    · exact isKeyChar_of_isLowerAlnum (hsymbol c hc)
  unfold key
  cases hsource : ft.source with
  | native => exact hshort "i." (by decide) (by decide)
  | external => exact hshort "x." (by decide) (by decide)
  | gateway =>
    have hgateway := isLowerAlnum_of_isWord (h.gateway hsource)
    refine hshort (ft.gateway ++ ".") (all_eq_true.mpr (fun c hc => ?_)) ?_
    · rw [String.toList_append] at hc
      rcases mem_append.mp hc with hc | hc
      · exact isKeyChar_of_isLowerAlnum (hgateway c hc)
      · have hall : ".".toList.all isKeyChar = true := by decide
        exact all_eq_true.mp hall c hc
    · rw [String.toList_append]
      exact mem_append_right _ (by decide)
  | unknown b => exact absurd hsource (h.source b)

lemma WellNamed.toLower_key (h : ft.WellNamed) : toLower ft.key = ft.key :=
  toLower_of_isKeyChar h.key_chars.2.2

lemma WellNamed.getTokenID_eq (h : ft.WellNamed) :
    getTokenID ft.source ft.symbol ft.gateway = .ok ft.key := by
  have hlower := h.toLower_key
  unfold key at hlower ⊢
  unfold getTokenID
  cases hsource : ft.source with
  | unknown b => exact absurd hsource (h.source b)
  | _ => simp only [hsource] at hlower ⊢; rw [hlower]

lemma WellNamed.keyToken_key (h : ft.WellNamed) : State.keyToken ft.key = ft.key := by
  obtain ⟨hlen, hperiod, hchars⟩ := h.key_chars
  rw [State.keyToken, convertIdToTokenKeyId_of_period hlen hchars hperiod, Option.getD_some]

lemma WellNamed.getUniqueID_of_native (h : ft.WellNamed) (hnative : ft.source = .native) :
    ft.getUniqueID = ft.symbol := by
  have hsymbol := isLowerAlnum_of_isWord h.symbol
  simp only [getUniqueID, hnative]
  exact toLower_eq_self (fun c hc =>
    toLower_of_isDenomChar (isDenomChar_of_isLowerAlnum (hsymbol c hc)))

lemma WellNamed.getUniqueID_of_ne_native (h : ft.WellNamed) (hnative : ft.source ≠ .native) :
    ft.getUniqueID = ft.key := by
  have hlower := h.toLower_key
  unfold key at hlower ⊢
  unfold getUniqueID
  cases hsource : ft.source with
  | native => exact absurd hsource hnative
  | unknown b => exact absurd hsource (h.source b)
  | _ => simp only [hsource] at hlower ⊢; rw [hlower]

lemma WellNamed.getUniqueID_chars (h : ft.WellNamed) :
    3 ≤ ft.getUniqueID.toList.length ∧ ∀ c ∈ ft.getUniqueID.toList, isKeyChar c = true := by
  by_cases hnative : ft.source = .native
  · rw [h.getUniqueID_of_native hnative]
    exact ⟨length_of_isWord h.symbol, fun c hc =>
      isKeyChar_of_isLowerAlnum (isLowerAlnum_of_isWord h.symbol c hc)⟩
  · rw [h.getUniqueID_of_ne_native hnative]
    exact ⟨h.key_chars.1, h.key_chars.2.2⟩

lemma WellNamed.getDenom_eq (h : ft.WellNamed) :
    ft.getDenom = ft.getUniqueID ++ minDenomSuffix := by
  have hne : ft.getUniqueID ≠ iris := by
    by_cases hnative : ft.source = .native
    · rw [h.getUniqueID_of_native hnative]
      exact h.ne_iris
    · rw [h.getUniqueID_of_ne_native hnative]
      intro he
      have hperiod := h.key_chars.2.1
      rw [he] at hperiod
      exact absurd hperiod (by decide)
  exact getCoinMinDenom_of_chars
    (fun c hc => isDenomChar_of_isKeyChar (h.getUniqueID_chars.2 c hc)) hne

lemma WellNamed.hasSuffix_getDenom (h : ft.WellNamed) :
    hasSuffix ft.getDenom minDenomSuffix = true := by
  rw [h.getDenom_eq]
  exact hasSuffix_append _ _

lemma WellNamed.getDenom_ne_iris (h : ft.WellNamed) : ft.getDenom ≠ irisAtto := by
  intro he
  have hsuffix := h.hasSuffix_getDenom
  rw [he] at hsuffix
  exact absurd hsuffix (by decide)

lemma WellNamed.colon_not_mem_getDenom (h : ft.WellNamed) : ':' ∉ ft.getDenom.toList := by
  rw [h.getDenom_eq, String.toList_append, mem_append]
  rintro (hmem | hmem)
  · exact absurd (h.getUniqueID_chars.2 ':' hmem) (by decide)
  · exact absurd hmem (by decide)

lemma WellNamed.totalSupplyStoreKey_getDenom (h : ft.WellNamed) :
    totalSupplyStoreKey ft.getDenom = ft.key := by
  obtain ⟨hlen, hchars⟩ := h.getUniqueID_chars
  rw [h.getDenom_eq, totalSupplyStoreKey, convertDenomToTokenId_of_chars hlen hchars,
    Option.bind_some]
  by_cases hnative : ft.source = .native
  · rw [h.getUniqueID_of_native hnative, convertIdToTokenKeyId_of_isWord h.symbol,
      Option.getD_some, key]
    simp only [hnative]
  · obtain ⟨_, hperiod, _⟩ := h.key_chars
    rw [h.getUniqueID_of_ne_native hnative] at hlen hchars ⊢
    rw [convertIdToTokenKeyId_of_period hlen hchars hperiod, Option.getD_some]

lemma WellNamed.key_ne_of_colon (h : ft.WellNamed) {u : String}
    (hu : ':' ∈ u.toList.takeWhile (· != '-')) : totalSupplyStoreKey u ≠ ft.key := by
  have hlower : ∀ {s : String}, ':' ∈ s.toList → ':' ∈ (toLower s).toList := by
    intro s hs
    rw [toList_toLower]
    exact mem_map.mpr ⟨':', hs, by decide⟩
  have hid : ':' ∈ (toLower (String.ofList (u.toList.takeWhile (· != '-')))).toList :=
    hlower (by rwa [String.toList_ofList])
  have hempty : ft.key ≠ "" := by
    intro he
    have hlen := h.key_chars.1
    rw [he] at hlen
    exact absurd hlen (by decide)
  intro he
  have hcolon : totalSupplyStoreKey u = "" ∨ ':' ∈ (totalSupplyStoreKey u).toList := by
    unfold totalSupplyStoreKey convertDenomToTokenId
    split_ifs with hrun
    · exact Or.inl rfl
    · rw [Option.bind_some]
      unfold convertIdToTokenKeyId
      split_ifs
      · exact Or.inl rfl
      · exact Or.inr (hlower hid)
      · refine Or.inr (hlower ?_)
        rw [String.toList_append]
        exact mem_append_right _ hid
  rcases hcolon with hnone | hmem
  · exact hempty (he.symm.trans hnone)
  · rw [he] at hmem
    exact absurd (h.key_chars.2.2 ':' hmem) (by decide)

def space (ft : FungibleToken) : String :=
  match ft.source with
  | .native => "i"
  | .external => "x"
  | .gateway => ft.gateway
  | .unknown _ => ""

lemma WellNamed.space_spec (h : ft.WellNamed) :
    (ft.space = "i" ↔ ft.source = .native) ∧ (ft.space = "x" ↔ ft.source = .external) ∧
      ft.space ≠ "" ∧ '.' ∉ ft.space.toList := by
  unfold space
  cases hs : ft.source with
  | native | external => simp
  | gateway =>
    have hword := length_of_isWord (h.gateway hs)
    have hne : ∀ m : String, m.toList.length < 3 → ft.gateway ≠ m := by
      rintro m hm rfl
      omega
    simp only [hne "i" (by decide), hne "x" (by decide), reduceCtorEq, iff_self, true_and]
    exact ⟨hne "" (by decide), fun hmem =>
      ne_of_isLowerAlnum (by decide) (isLowerAlnum_of_isWord (h.gateway hs) '.' hmem) rfl⟩
  | unknown b => exact absurd hs (h.source b)

lemma WellNamed.key_toList (h : ft.WellNamed) :
    ft.key.toList = ft.space.toList ++ '.' :: ft.symbol.toList := by
  unfold key space
  cases hs : ft.source with
  | unknown b => exact absurd hs (h.source b)
  | _ => simp [String.toList_append]

lemma WellNamed.period_notMem_symbol (h : ft.WellNamed) : '.' ∉ ft.symbol.toList := fun hmem =>
  ne_of_isLowerAlnum (by decide) (isLowerAlnum_of_isWord h.symbol '.' hmem) rfl

lemma WellNamed.key_inj {ft' : FungibleToken} (h : ft.WellNamed) (h' : ft'.WellNamed)
    (hkey : ft.key = ft'.key) :
    ft.source = ft'.source ∧ (ft.source = .gateway → ft.gateway = ft'.gateway) ∧
      ft.symbol = ft'.symbol := by
  have hlist := congrArg String.toList hkey
  rw [h.key_toList, h'.key_toList] at hlist
  obtain ⟨hspaces, hsymbol⟩ := last_part_inj h.period_notMem_symbol h'.period_notMem_symbol hlist
  have hspace : ft.space = ft'.space := String.toList_inj.mp hspaces
  have hsource : ft.source = ft'.source := by
    obtain ⟨hi, hx, -⟩ := h.space_spec
    obtain ⟨hi', hx', -⟩ := h'.space_spec
    rw [hspace] at hi hx
    cases hs : ft.source with
    | native => exact (hi'.mp (hi.mpr hs)).symm
    | external => exact (hx'.mp (hx.mpr hs)).symm
    | unknown b => exact absurd hs (h.source b)
    | gateway =>
      cases hs' : ft'.source with
      | native => simp [hs, hi'.mpr hs'] at hi
      | external => simp [hs, hx'.mpr hs'] at hx
      | unknown b => exact absurd hs' (h'.source b)
      | gateway => rfl
  refine ⟨hsource, fun hs => ?_, String.toList_inj.mp hsymbol⟩
  simpa only [space, hs, ← hsource] using hspace

/-- An accepted spelling of the id of a token: `GetTokenIDParts` finds its symbol and its gateway,
or the mark of its source, which native tokens may leave out. -/
structure SpelledBy (ft : FungibleToken) (id : String) : Prop where
  accepted : checkTokenID id = .ok ()
  symbol : (getTokenIDParts id).2 = ft.symbol
  source : (getTokenIDParts id).1 = ft.space ∨ ft.source = .native ∧ (getTokenIDParts id).1 = ""

def OneKey (ft : FungibleToken) (id : String) : Prop :=
  ∃ tokenId, getTokenID ft.source ft.symbol ft.gateway = .ok tokenId ∧
    State.keyToken tokenId = State.keyToken id ∧
    totalSupplyStoreKey ft.getDenom = State.keyToken id

lemma toLower_eq_period {c : Char} : Unicode.toLower c = '.' ↔ c = '.' := by
  constructor
  · intro h
    have hcode : (Unicode.toLower c).toNat = 46 := by rw [h]; rfl
    rcases Unicode.ascii_or_of_toLower (c := c) (by omega) with hascii | ⟨_, hi⟩ | ⟨_, hk⟩
    · rw [Unicode.toNat_toLower_of_ascii hascii] at hcode
      have hself : c.toNat = 46 := by split_ifs at hcode <;> omega
      exact Char.ext (UInt32.toNat_inj.mp hself)
    · exact absurd (hi.symm.trans h) (by decide)
    · exact absurd (hk.symm.trans h) (by decide)
  · rintro rfl
    rfl

/-- A character whose lower case may stand in a key is one of the regular expression of
`ConvertIdToTokenKeyId` unless it is `U+0130` or `U+212A`. -/
lemma isTokenChar_of_toLower {c : Char} (h : isKeyChar (Unicode.toLower c) = true) :
    isTokenChar c = Unicode.isASCII c := by
  have hdenom := toNat_of_isDenomChar (isDenomChar_of_isKeyChar h)
  rw [Bool.eq_iff_iff, Unicode.isASCII, decide_eq_true_eq]
  have hbig : isTokenChar c = true → c.toNat < 0x80 := by
    simp only [isTokenChar, Bool.or_eq_true, isLowerAlnum_iff, Bool.and_eq_true,
      decide_eq_true_eq, Char.le_def, UInt32.le_iff_toNat_le, beq_iff_eq]
    rintro ((hlower | ⟨_, hupper⟩) | rfl)
    · omega
    · exact hupper.trans_lt (by decide)
    · decide
  refine ⟨hbig, fun hascii => ?_⟩
  by_cases hupper : 65 ≤ c.toNat ∧ c.toNat ≤ 90
  · have hletter : (decide ('A' ≤ c) && decide (c ≤ 'Z')) = true := by
      simp only [Bool.and_eq_true, decide_eq_true_eq, Char.le_def, UInt32.le_iff_toNat_le]
      exact hupper
    rw [isTokenChar, hletter, Bool.or_true, Bool.true_or]
  · rw [Unicode.toLower_eq_self hascii (by omega)] at h
    exact isTokenChar_of_isKeyChar h

lemma hasRun_congr {p q : Char → Bool} (n : ℕ) {s : List Char} (h : ∀ c ∈ s, p c = q c) :
    hasRun p n s = hasRun q n s := by
  induction s with
  | nil => rfl
  | cons c s ih =>
    have hall : ((c :: s).take n).all p = ((c :: s).take n).all q := by
      rw [Bool.eq_iff_iff, all_eq_true, all_eq_true]
      exact forall₂_congr (fun d hd => by rw [h d (mem_of_mem_take hd)])
    rw [hasRun, hasRun, hall, ih (fun d hd => h d (mem_cons_of_mem _ hd))]

lemma convertIdToTokenKeyId_of_toLower {id : String}
    (hchars : ∀ c ∈ (toLower id).toList, isKeyChar c = true)
    (hlen : 3 ≤ (toLower id).toList.length) :
    convertIdToTokenKeyId id =
      if hasRun Unicode.isASCII 3 id.toList = true then convertIdToTokenKeyId (toLower id)
      else none := by
  have hperiod : '.' ∈ (toLower id).toList ↔ '.' ∈ id.toList := by
    rw [toList_toLower, mem_map]
    simp only [toLower_eq_period, exists_eq_right]
  have hself : toLower (toLower id) = toLower id := toLower_of_isKeyChar hchars
  have happend : toLower ("i." ++ toLower id) = toLower ("i." ++ id) := by
    have hid := congrArg String.toList hself
    rw [toList_toLower] at hid
    rw [← String.toList_inj, toList_toLower, toList_toLower, String.toList_append,
      String.toList_append, map_append, map_append, hid, toList_toLower]
  have hrun : hasRun isTokenChar 3 id.toList = hasRun Unicode.isASCII 3 id.toList := by
    refine hasRun_congr 3 (fun c hc => isTokenChar_of_toLower (hchars _ ?_))
    rw [toList_toLower]
    exact mem_map_of_mem hc
  have hrun' : hasRun isTokenChar 3 (toLower id).toList = true :=
    hasRun_of_all hlen (fun c hc => isTokenChar_of_isKeyChar (hchars c (mem_of_mem_take hc)))
  rw [convertIdToTokenKeyId, convertIdToTokenKeyId, hrun, hrun', happend, hself]
  simp only [hperiod]
  cases hasRun Unicode.isASCII 3 id.toList <;> simp

lemma toLower_of_getTokenIDParts (id : String) :
    (toLower id).toList = (getTokenIDParts id).2.toList ∧ (getTokenIDParts id).1 = "" ∧
        '.' ∉ (toLower id).toList ∨
      (toLower id).toList =
        (getTokenIDParts id).1.toList ++ '.' :: (getTokenIDParts id).2.toList := by
  unfold getTokenIDParts
  simp only
  split
  · rename_i c r hdrop
    right
    have hsplit := takeWhile_append_dropWhile (p := (· != '.')) (l := (toLower id).toList)
    have hc : c = '.' := by
      have hhead := List.head?_dropWhile_not (p := (· != '.')) (toLower id).toList
      rw [hdrop] at hhead
      simpa using hhead
    rw [hdrop, hc] at hsplit
    simpa only [String.toList_ofList] using hsplit.symm
  · rename_i hdrop
    left
    refine ⟨by simp, rfl, fun hmem => ?_⟩
    exact absurd (dropWhile_eq_nil_iff.mp hdrop '.' hmem) (by decide)

/-- The characters that an accepted spelling is made of, in lower case. -/
lemma SpelledBy.toLower_chars {id : String} (h : ft.WellNamed) (hid : ft.SpelledBy id) :
    3 ≤ (toLower id).toList.length ∧ ∀ c ∈ (toLower id).toList, isKeyChar c = true := by
  have hlen := length_of_isWord h.symbol
  have hsymbol : ∀ c ∈ ft.symbol.toList, isKeyChar c = true := fun c hc =>
    isKeyChar_of_isLowerAlnum (isLowerAlnum_of_isWord h.symbol c hc)
  rcases toLower_of_getTokenIDParts id with ⟨hlist, _⟩ | hlist
  · rw [hlist, hid.symbol]
    exact ⟨hlen, hsymbol⟩
  · rw [hid.symbol] at hlist
    rcases hid.source with hspace | ⟨_, hnone⟩
    · rw [hspace, ← h.key_toList] at hlist
      rw [hlist]
      exact ⟨h.key_chars.1, h.key_chars.2.2⟩
    · rw [hlist, hnone, String.toList_empty, nil_append, length_cons]
      refine ⟨by omega, fun c hc => ?_⟩
      rcases mem_cons.mp hc with rfl | hc
      · decide
      · exact hsymbol c hc

lemma SpelledBy.keyToken_toLower_iff {id : String} (h : ft.WellNamed) (hid : ft.SpelledBy id) :
    State.keyToken (toLower id) = ft.key ↔ id.toList.head? ≠ some '.' := by
  obtain ⟨-, -, hnonempty, hperiods⟩ := h.space_spec
  obtain ⟨hlen, hchars⟩ := hid.toLower_chars h
  have hhead : (toLower id).toList.head? = some '.' ↔ id.toList.head? = some '.' := by
    rw [toList_toLower]
    simp [toLower_eq_period]
  rw [Ne, ← hhead, State.keyToken]
  rcases toLower_of_getTokenIDParts id with ⟨hlist, hnone, hperiod⟩ | hlist
  · -- no period: a native token
    rw [hid.symbol] at hlist
    have hnative : ft.source = .native := by
      rcases hid.source with hspace | ⟨hnative, _⟩
      · exact absurd (hspace.symm.trans hnone) hnonempty
      · exact hnative
    rw [String.toList_inj.mp hlist, convertIdToTokenKeyId_of_isWord h.symbol, Option.getD_some]
    refine iff_of_true (by simp only [key, hnative]) (fun hdot => ?_)
    exact h.period_notMem_symbol (mem_of_mem_head? hdot)
  · rw [hid.symbol] at hlist
    rcases hid.source with hspace | ⟨hnative, hnone⟩
    · have hkey : toLower id = ft.key := by rw [← String.toList_inj, hlist, hspace, h.key_toList]
      rw [hkey, ← State.keyToken, h.keyToken_key, h.key_toList]
      refine iff_of_true rfl (fun hdot => ?_)
      rw [List.head?_append_of_ne_nil _ (by simpa using hnonempty)] at hdot
      exact hperiods (mem_of_mem_head? hdot)
    · -- the spelling begins with the period
      rw [hnone] at hlist
      refine iff_of_false (fun hkey => ?_) (fun hne => hne (by rw [hlist]; rfl))
      rw [convertIdToTokenKeyId_of_period hlen hchars (by rw [hlist]; simp),
        Option.getD_some] at hkey
      have hkeys := congrArg String.toList hkey
      rw [hlist, h.key_toList] at hkeys
      obtain ⟨hspace, -⟩ := last_part_inj h.period_notMem_symbol h.period_notMem_symbol hkeys
      exact hnonempty (String.toList_inj.mp hspace).symm

lemma SpelledBy.keyToken_eq_iff {id : String} (h : ft.WellNamed) (hid : ft.SpelledBy id) :
    State.keyToken id = ft.key ↔
      id.toList.head? ≠ some '.' ∧ hasRun Unicode.isASCII 3 id.toList = true := by
  obtain ⟨hlen, hchars⟩ := hid.toLower_chars h
  rw [← hid.keyToken_toLower_iff h, State.keyToken, State.keyToken,
    convertIdToTokenKeyId_of_toLower hchars hlen]
  split_ifs with hrun
  · rw [and_iff_left hrun]
  · -- the id matches no regular expression, and no token has an empty key
    refine iff_of_false (fun hkey => ?_) (fun hand => hrun hand.2)
    have hlenkey := h.key_chars.1
    rw [← hkey] at hlenkey
    exact absurd hlenkey (by decide)

/-- Tokens never share a key, a denomination or a supply key; and an accepted spelling of an id
leads to the key of its token exactly when it does not begin with a period and has three ASCII
characters in a row. -/
theorem identifiers_agree_iff {id : String} (h : ft.WellNamed) (hid : ft.SpelledBy id) :
    (∀ ft' : FungibleToken, ft'.WellNamed →
      (∃ tokenId tokenId', getTokenID ft.source ft.symbol ft.gateway = .ok tokenId ∧
          getTokenID ft'.source ft'.symbol ft'.gateway = .ok tokenId' ∧
          State.keyToken tokenId = State.keyToken tokenId') ∨ ft.getDenom = ft'.getDenom ∨
        totalSupplyStoreKey ft.getDenom = totalSupplyStoreKey ft'.getDenom →
      ft.source = ft'.source ∧ (ft.source = .gateway → ft.gateway = ft'.gateway) ∧
        ft.symbol = ft'.symbol) ∧
      (ft.OneKey id ↔
        id.toList.head? ≠ some '.' ∧ hasRun Unicode.isASCII 3 id.toList = true) := by
  constructor
  · intro ft' h' hequal
    have hsupply : totalSupplyStoreKey ft.getDenom = totalSupplyStoreKey ft'.getDenom →
        ft.key = ft'.key := by
      rw [h.totalSupplyStoreKey_getDenom, h'.totalSupplyStoreKey_getDenom]
      exact fun heq => heq
    refine h.key_inj h' ?_
    rcases hequal with ⟨_, _, hid, hid', hkey⟩ | hdenom | hkey
    · cases h.getTokenID_eq.symm.trans hid
      cases h'.getTokenID_eq.symm.trans hid'
      rwa [h.keyToken_key, h'.keyToken_key] at hkey
    · exact hsupply (congrArg totalSupplyStoreKey hdenom)
    · exact hsupply hkey
  · rw [← hid.keyToken_eq_iff h, OneKey, h.getTokenID_eq, h.totalSupplyStoreKey_getDenom]
    constructor
    · rintro ⟨_, _, _, hkey⟩
      exact hkey.symm
    · intro hkey
      exact ⟨ft.key, rfl, by rw [h.keyToken_key, hkey], hkey.symm⟩

/-- A native token with the symbol `abc`. -/
def sampleNative : FungibleToken :=
  newFungibleToken .native "" "abc" "abc" 6 "" "" 0 0 true (some 1)

lemma sampleNative_wellNamed : sampleNative.WellNamed :=
  ⟨by decide +kernel, by decide +kernel, by decide, fun _ => nofun⟩

/-- Spelling `.abc` is accepted and has the parts of `abc`, but another key. -/
theorem period_spelling_differs : sampleNative.WellNamed ∧ sampleNative.SpelledBy ".abc" ∧
      State.keyToken "abc" = "i.abc" ∧ State.keyToken ".abc" = ".abc" ∧
      ¬sampleNative.OneKey ".abc" := by
  refine ⟨sampleNative_wellNamed, ⟨rfl, by decide +kernel, .inr ⟨rfl, by decide +kernel⟩⟩,
    by decide +kernel, by decide +kernel, ?_⟩
  rintro ⟨_, _, _, hkey⟩
  exact absurd hkey (by decide +kernel)

theorem identifiers_agree_iff_abc : sampleNative.OneKey "ABC" := by
  refine (identifiers_agree_iff sampleNative_wellNamed
    ⟨rfl, by decide +kernel, .inr ⟨rfl, by decide +kernel⟩⟩).2.mpr (by decide +kernel)

end FungibleToken
end Irishub.Asset
