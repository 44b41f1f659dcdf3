import Irishub.Types.Dec
import Irishub.Types.IntRange
import Mathlib.Data.List.TakeWhile

/-!
# The texts of decimals

`NewDecFromStr` of `types/decimal.go` and the JSON encoding of a decimal. The text is cut at the
period and given without it to `big.Int.SetString`, which reads a sign of its own. So the parser
accepts a second sign behind the negative symbol (`newDecFromStr_documented_iff`).

`String` prints the sign as one of the last eleven characters of a decimal between minus one and
zero, and the parser refuses what it prints (`text_round_trip_iff`).
-/

namespace Irishub
open List

section
variable {base n m : ℕ} {c : Char} {s : List Char}

/-- A decimal digit that is a digit of the base. -/
def isDigitBelow (base : ℕ) (c : Char) : Bool := c.isDigit && c.toNat - '0'.toNat < base

lemma isDigit_iff : c.isDigit = true ↔ '0' ≤ c ∧ c ≤ '9' := by simp [Char.isDigit, Char.le_def]

lemma scanDigits_eq_some (hbase : base ≤ 10) : SdkInt.scanDigits base n s = some m ↔
    s.all (isDigitBelow base) = true ∧ m = Nat.ofDigitChars base s n := by
  induction s generalizing n with
  | nil => simp [SdkInt.scanDigits, eq_comm]
  | cons c s ih =>
    rw [SdkInt.scanDigits, SdkInt.digitVal]
    by_cases hc : c.isDigit = true
    · rw [if_pos (isDigit_iff.mp hc)]
      simp [isDigitBelow, hc, ih, Nat.ofDigitChars_cons, mul_comm n, and_assoc]
    · -- the value of a letter is at least ten
      have hvalue : ∀ k, ¬ k + 10 < base := by omega
      rw [if_neg (fun h => hc (isDigit_iff.mpr h))]
      split_ifs <;> simp [isDigitBelow, hc, hvalue]

lemma scanNumber_eq_some (hbase : base ≤ 10) : SdkInt.scanNumber base s = some n ↔
    (s ≠ [] ∧ s.all (isDigitBelow base) = true) ∧ n = Nat.ofDigitChars base s 0 := by
  cases s with
  | nil => simp [SdkInt.scanNumber]
  | cons c s => simp [SdkInt.scanNumber, scanDigits_eq_some hbase]

lemma isDigitBelow_ten : isDigitBelow 10 = Char.isDigit := by
  funext c
  have hlt : c.isDigit = true → c.toNat - '0'.toNat < 10 := by
    intro h
    have hle := UInt32.le_iff_toNat_le.mp (Char.le_def.mp (isDigit_iff.mp h).2)
    have hnine : ('9' : Char).val.toNat = 57 := rfl
    have hzero : '0'.toNat = 48 := rfl
    have hval : c.toNat = c.val.toNat := rfl
    omega
  cases hc : c.isDigit with
  | false => simp [isDigitBelow, hc]
  | true => rw [isDigitBelow, hc, Bool.true_and, decide_eq_true (hlt hc)]

end

namespace Dec
variable {s whole decs : List Char} {z : ℤ} {c : Char} {t : UnsignedText}

/-- `big.Int.SetString` in base ten: digits behind an optional sign. -/
def setString : List Char → Option ℤ
  | '-' :: s => (SdkInt.scanNumber 10 s).map (fun n : ℕ => -(n : ℤ))
  | '+' :: s => (SdkInt.scanNumber 10 s).map (fun n : ℕ => (n : ℤ))
  | s => (SdkInt.scanNumber 10 s).map (fun n : ℕ => (n : ℤ))

/-- `NewDecFromStr` from the length test on, with the characters around the period. -/
def combine (whole decs : List Char) : Except String ℤ :=
  if 10 < decs.length then
    .error ("too much precision, maximum 10, len decimal " ++ toString decs.length)
  else
    let combinedStr := whole ++ decs ++ replicate (10 - decs.length) '0'
    match setString combinedStr with
    | none => .error
        ("bad string to integer conversion, combinedStr: " ++ String.ofList combinedStr)
    | some combined => .ok combined

/-- `NewDecFromStr` behind the negative symbol. -/
def newDecUnsigned (str : List Char) : Except String ℤ :=
  if str = [] then .error "decimal string is empty"
  else match str.dropWhile (· != '.') with
    | [] => combine str []
    | _ :: decs =>
      if '.' ∈ decs then .error "too many periods to be a decimal string"
      else if decs = [] ∨ str.takeWhile (· != '.') = [] then .error "bad decimal length"
      else combine (str.takeWhile (· != '.')) decs

def newDecFromStr (str : String) : Except String Dec :=
  match str.toList with
  | '-' :: s => (newDecUnsigned s).map (fun combined => ⟨-combined⟩)
  | s => (newDecUnsigned s).map (fun combined => ⟨combined⟩)

/-- Decimal places, with the period before them. -/
def point (decs : List Char) : List Char := if decs = [] then [] else '.' :: decs

lemma combine_ok : combine whole decs = .ok z ↔
    decs.length ≤ 10 ∧ setString (whole ++ decs ++ replicate (10 - decs.length) '0') = some z := by
  unfold combine
  split_ifs with hlen
  · simp [Nat.not_le.mpr hlen]
  · dsimp only
    cases setString (whole ++ decs ++ replicate (10 - decs.length) '0') <;>
      simp [Nat.not_lt.mp hlen]

lemma takeWhile_point (decs : List Char) (h : '.' ∉ whole) :
    (whole ++ point decs).takeWhile (· != '.') = whole ∧
      (whole ++ point decs).dropWhile (· != '.') = point decs := by
  have hall : ∀ c ∈ whole, (c != '.') = true := by
    intro c hc
    simpa using ne_of_mem_of_not_mem hc h
  rw [takeWhile_append_of_pos hall, dropWhile_append_of_pos hall, point]
  split_ifs <;> simp

/-- What is read: a part before the period and at most ten places behind it. -/
lemma newDecUnsigned_ok : newDecUnsigned s = .ok z ↔ ∃ whole decs, s = whole ++ point decs ∧
    whole ≠ [] ∧ '.' ∉ whole ∧ '.' ∉ decs ∧ combine whole decs = .ok z := by
  constructor
  · intro h
    unfold newDecUnsigned at h
    have hsplit := takeWhile_append_dropWhile (p := (· != '.')) (l := s)
    have hwhole : '.' ∉ s.takeWhile (· != '.') := fun hmem => by simpa using mem_takeWhile_imp hmem
    split_ifs at h with hempty
    split at h
    · next hdrop =>
      rw [hdrop, append_nil] at hsplit
      exact ⟨s, [], by simp [point], hempty, hsplit ▸ hwhole, not_mem_nil, h⟩
    · next c decs hdrop =>
      obtain rfl : '.' = c := by
        have hhead := head_dropWhile_not (· != '.') (l := s) (by simp [hdrop])
        simp only [hdrop, head_cons, bne_eq_false_iff_eq] at hhead
        exact hhead.symm
      split_ifs at h with hmany hbad
      rw [not_or] at hbad
      refine ⟨_, decs, ?_, hbad.2, hwhole, hmany, h⟩
      rw [point, if_neg hbad.1, ← hdrop, hsplit]
  · rintro ⟨whole, decs, rfl, hne, hwhole, hdecs, h⟩
    obtain ⟨htake, hdrop⟩ := takeWhile_point decs hwhole
    rw [newDecUnsigned, if_neg (by simp [hne]), hdrop, htake]
    by_cases hnil : decs = []
    · subst hnil
      simpa [point] using h
    · simp [point, hnil, hne, hdecs, h]

/-- A text that is read behind the negative symbol. In a documented one there is no sign. -/
structure UnsignedText where
  sign : List Char
  whole : List Char
  decs : List Char
  sign_cases : sign = [] ∧ whole ≠ [] ∨ sign = ['+'] ∨ sign = ['-']
  digits : (whole ++ decs).all Char.isDigit = true
  length_le : decs.length ≤ 10

/-- A number with the sign of its text. -/
def signed (sign : List Char) (n : ℕ) : ℤ := if sign = ['-'] then -n else n

namespace UnsignedText

def text (t : UnsignedText) : List Char := t.sign ++ t.whole ++ point t.decs

/-- Number that the text denotes without its sign, in units of `10 ^ (-10)`. -/
def units (t : UnsignedText) : ℕ :=
  Nat.ofDigitChars 10 t.whole 0 * 10 ^ 10 +
    Nat.ofDigitChars 10 t.decs 0 * 10 ^ (10 - t.decs.length)

lemma ofDigitChars_padded (t : UnsignedText) :
    Nat.ofDigitChars 10 (t.whole ++ t.decs ++ replicate (10 - t.decs.length) '0') 0 = t.units := by
  have hpow : 10 ^ (10 - t.decs.length) * 10 ^ t.decs.length = 10 ^ 10 := by
    rw [← pow_add, Nat.sub_add_cancel t.length_le]
  rw [Nat.ofDigitChars_append, Nat.ofDigitChars_replicate_zero, Nat.ofDigitChars_append,
    Nat.ofDigitChars_eq_ofDigitChars_zero, mul_add, ← mul_assoc, hpow, units]
  ring

end UnsignedText

/-- `s` is a documented text: at most one negative symbol, digits, and places behind a period. -/
def Documented (s : List Char) (d : Dec) : Prop :=
  ∃ t : UnsignedText, t.sign = [] ∧
    (s = t.text ∧ d.raw = t.units ∨ s = '-' :: t.text ∧ d.raw = -t.units)

/-- A sign stands where only digits are documented. -/
def SignedTwice (s : List Char) : Prop :=
  ∃ t : UnsignedText, t.sign ≠ [] ∧ (s = '-' :: t.text ∨ t.sign = ['+'] ∧ s = t.text)

lemma not_mem_of_digits (h : s.all Char.isDigit = true) (hc : c.isDigit = false) : c ∉ s := by
  intro hmem
  have hdigit := all_eq_true.mp h c hmem
  rw [hc] at hdigit
  cases hdigit

lemma setString_eq_some : setString s = some z ↔ ∃ sign t, s = sign ++ t ∧
    (sign = [] ∨ sign = ['+'] ∨ sign = ['-']) ∧ (t ≠ [] ∧ t.all Char.isDigit = true) ∧
      z = signed sign (Nat.ofDigitChars 10 t 0) := by
  have hread : ∀ {t n}, SdkInt.scanNumber 10 t = some n ↔
      (t ≠ [] ∧ t.all Char.isDigit = true) ∧ n = Nat.ofDigitChars 10 t 0 :=
    isDigitBelow_ten ▸ scanNumber_eq_some le_rfl
  constructor
  · intro h
    unfold setString at h
    split at h <;> obtain ⟨n, hn, rfl⟩ := Option.map_eq_some_iff.mp h <;>
      obtain ⟨ht, rfl⟩ := hread.mp hn
    · exact ⟨['-'], _, rfl, by simp, ht, rfl⟩
    · exact ⟨['+'], _, rfl, by simp, ht, rfl⟩
    · exact ⟨[], _, rfl, by simp, ht, rfl⟩
  · rintro ⟨sign, t, rfl, hsign, ht, rfl⟩
    have hn := hread.mpr ⟨ht, rfl⟩
    rcases hsign with rfl | rfl | rfl
    · have hminus : ∀ r, t ≠ '-' :: r := fun r hr => not_mem_of_digits ht.2 rfl (hr ▸ mem_cons_self)
      have hplus : ∀ r, t ≠ '+' :: r := fun r hr => not_mem_of_digits ht.2 rfl (hr ▸ mem_cons_self)
      unfold setString
      split
      · next r hr => exact absurd hr (hminus r)
      · next r hr => exact absurd hr (hplus r)
      · simp [hn, signed]
    · simp [setString, hn, signed]
    · simp [setString, hn, signed]

lemma newDecUnsigned_iff :
    newDecUnsigned s = .ok z ↔ ∃ t : UnsignedText, s = t.text ∧ z = signed t.sign t.units := by
  rw [newDecUnsigned_ok]
  constructor
  · rintro ⟨whole, decs, rfl, hne, _, _, h⟩
    obtain ⟨hlen, h⟩ := combine_ok.mp h
    obtain ⟨sign, t, ht, hsign, ⟨_, hall⟩, rfl⟩ := setString_eq_some.mp h
    obtain ⟨rest, rfl, rfl⟩ : ∃ rest, whole = sign ++ rest ∧
        t = rest ++ decs ++ replicate (10 - decs.length) '0' := by
      obtain ⟨c, r, rfl⟩ := exists_cons_of_ne_nil hne
      rcases hsign with rfl | rfl | rfl <;> simp_all
    have hdigits : (rest ++ decs).all Char.isDigit = true := by
      rw [all_append, Bool.and_eq_true] at hall
      exact hall.1
    have hcases : sign = [] ∧ rest ≠ [] ∨ sign = ['+'] ∨ sign = ['-'] :=
      hsign.imp_left (fun hnil => ⟨hnil, by simpa [hnil] using hne⟩)
    let text : UnsignedText := ⟨sign, rest, decs, hcases, hdigits, hlen⟩
    exact ⟨text, rfl, congrArg (signed sign) text.ofDigitChars_padded⟩
  · rintro ⟨t, rfl, rfl⟩
    have hparts := t.digits
    rw [all_append, Bool.and_eq_true] at hparts
    have hperiod : '.' ∉ t.sign ++ t.whole := by
      have hwhole : '.' ∉ t.whole := not_mem_of_digits hparts.1 rfl
      rcases t.sign_cases with ⟨h, _⟩ | h | h <;> simp [h, hwhole]
    refine ⟨t.sign ++ t.whole, t.decs, rfl, ?_, hperiod, not_mem_of_digits hparts.2 rfl,
      combine_ok.mpr ⟨t.length_le, setString_eq_some.mpr
        ⟨t.sign, _, by simp only [append_assoc], t.sign_cases.imp_left And.left, ⟨?_, ?_⟩,
          congrArg (signed t.sign) t.ofDigitChars_padded.symm⟩⟩⟩
    · rcases t.sign_cases with ⟨_, h⟩ | h | h <;> simp [h]
    · -- without places there are ten zeros
      intro hnil
      simp only [append_eq_nil_iff, replicate_eq_nil_iff] at hnil
      simp [hnil.1.2] at hnil
    · simp [hparts]

lemma newDecFromStr_ok {s : String} {d : Dec} : newDecFromStr s = .ok d ↔
    (∃ t, s.toList = '-' :: t ∧ newDecUnsigned t = .ok (-d.raw)) ∨
      (∀ t, s.toList ≠ '-' :: t) ∧ newDecUnsigned s.toList = .ok d.raw := by
  unfold newDecFromStr
  split
  · next t ht =>
    cases hread : newDecUnsigned t <;> simp [ht, hread, Except.map, Dec.ext_iff, neg_eq_iff_eq_neg]
  · next hne =>
    have hhead : ∀ t, ¬ s.toList = '-' :: t := hne
    cases hread : newDecUnsigned s.toList <;> simp [hhead, Except.map, Dec.ext_iff]

/-- A text begins with its only sign or with a digit. -/
lemma UnsignedText.first_eq (h : t.text = c :: s) :
    t.sign = [] ∧ c.isDigit = true ∧ '-' ∉ s ∨ t.sign = [c] ∧ (c = '+' ∨ c = '-') := by
  rcases t.sign_cases with ⟨hsign, hne⟩ | hsign | hsign
  · obtain ⟨x, w, hwhole⟩ := exists_cons_of_ne_nil hne
    simp only [text, hsign, hwhole, nil_append, cons_append, cons.injEq] at h
    obtain ⟨rfl, rfl⟩ := h
    have hminus : '-' ∉ t.whole ++ t.decs := not_mem_of_digits t.digits rfl
    refine .inl ⟨hsign, all_eq_true.mp t.digits x (by simp [hwhole]), ?_⟩
    simp only [hwhole, cons_append, mem_cons, mem_append, not_or] at hminus
    unfold point
    split_ifs <;> simp [hminus]
  all_goals
    simp only [text, hsign, cons_append, cons.injEq] at h
    simp [hsign, ← h.1]

lemma UnsignedText.text_ne (h : t.sign = [])
    (hc : c.isDigit = false) (r : List Char) : t.text ≠ c :: r := by
  intro htext
  rcases t.first_eq htext with ⟨_, hdigit, _⟩ | ⟨hsign, _⟩
  · simp [hc] at hdigit
  · simp [h] at hsign

/-- Parser accepts the documented texts and no others, and returns the number a text denotes,
unless a sign stands where digits are documented. -/
theorem newDecFromStr_documented_iff (s : String) :
    (∀ d, newDecFromStr s = .ok d ↔ Documented s.toList d) ↔ ¬ SignedTwice s.toList := by
  constructor
  · rintro hclaim ⟨t, hsign, hs⟩
    have hread : ∃ d, newDecFromStr s = .ok d := by
      simp only [newDecFromStr_ok, newDecUnsigned_iff]
      rcases hs with hs | ⟨hplus, hs⟩
      · exact ⟨⟨-signed t.sign t.units⟩, .inl ⟨_, hs, t, rfl, neg_neg _⟩⟩
      · exact ⟨⟨_⟩, .inr ⟨by simp [hs, UnsignedText.text, hplus], t, hs, rfl⟩⟩
    obtain ⟨d, hd⟩ := hread
    obtain ⟨t', hnil, ht'⟩ := (hclaim d).mp hd
    have hother : t'.text ≠ t.text := by
      intro heq
      rcases t.sign_cases with h | h | h
      · exact hsign h.1
      · exact t'.text_ne hnil (c := '+') rfl _ (heq.trans (by rw [UnsignedText.text, h]; rfl))
      · exact t'.text_ne hnil (c := '-') rfl _ (heq.trans (by rw [UnsignedText.text, h]; rfl))
    rcases hs with hs | ⟨hplus, hs⟩ <;> rcases ht' with ⟨h, _⟩ | ⟨h, _⟩ <;> rw [hs] at h
    · exact t'.text_ne hnil rfl _ h.symm
    · exact hother (cons.inj h).2.symm
    · exact hother h.symm
    · simp [UnsignedText.text, hplus] at h
  · refine fun hnot d => ⟨fun h => ?_, ?_⟩
    · simp only [newDecFromStr_ok, newDecUnsigned_iff] at h
      rcases h with ⟨_, hs, t, rfl, hvalue⟩ | ⟨hhead, t, hs, hvalue⟩
      · have hsign : t.sign = [] := by_contra (fun hne => hnot ⟨t, hne, .inl hs⟩)
        refine ⟨t, hsign, .inr ⟨hs, ?_⟩⟩
        simp [hsign, signed] at hvalue
        omega
      · have hsign : t.sign = [] := by
          by_contra hne
          rcases t.sign_cases with h | h | h
          · exact hne h.1
          · exact hnot ⟨t, hne, .inr ⟨h, hs⟩⟩
          · exact hhead _ (by rw [hs, UnsignedText.text, h]; rfl)
        exact ⟨t, hsign, .inl ⟨hs, by simpa [hsign, signed] using hvalue⟩⟩
    · rintro ⟨t, hsign, ⟨hs, hvalue⟩ | ⟨hs, hvalue⟩⟩ <;>
        simp only [newDecFromStr_ok, newDecUnsigned_iff]
      · exact .inr ⟨fun r => hs ▸ t.text_ne hsign rfl r, t, hs, by simp [hsign, signed, hvalue]⟩
      · exact .inl ⟨_, hs, t, rfl, by simp [hsign, signed, hvalue]⟩

/-- Two negative symbols are read as none. -/
theorem newDecFromStr_signed_twice :
    newDecFromStr "--5" = .ok (newDecFromInt 5) ∧ ¬ Documented "--5".toList (newDecFromInt 5) := by
  refine ⟨by decide +kernel, ?_⟩
  rintro ⟨t, hsign, ⟨h, _⟩ | ⟨h, _⟩⟩
  · exact t.text_ne hsign rfl _ h.symm
  · exact t.text_ne hsign (c := '-') rfl _ (cons.inj h).2.symm

def marshalJSON (d : Dec) : SdkInt.Json := .string d.string

/-- `UnmarshalJSON`; a value that is no string is the error of `json.Unmarshal`. -/
def unmarshalJSON (bz : SdkInt.Json) : Except String Dec :=
  match bz.text with
  | none => .error "json: cannot unmarshal into Go value of type string"
  | some text => newDecFromStr text

/-- Period stands before the last ten characters, behind a zero in a short text. -/
lemma insertPeriod_eq (bz : List Char) : ∃ whole decs k,
    insertPeriod bz = whole ++ '.' :: decs ∧ whole ≠ [] ∧ decs.length = 10 ∧
      whole ++ decs = replicate k '0' ++ bz := by
  unfold insertPeriod
  split_ifs with h
  · refine ⟨['0'], replicate (10 - bz.length) '0' ++ bz, 11 - bz.length, rfl, by simp, ?_, ?_⟩
    · simp
      omega
    · rw [← append_assoc, Nat.succ_sub h, replicate_succ]
      rfl
  · refine ⟨_, _, 0, rfl, ?_, ?_, by simp⟩
    · intro hnil
      simp only [take_eq_nil_iff] at hnil
      rcases hnil with hnil | rfl
      · omega
      · simp at h
    · simp
      omega

/-- Text of a number that is not negative has the documented form. -/
lemma insertPeriod_toDigits (n : ℕ) :
    ∃ t : UnsignedText, t.sign = [] ∧ insertPeriod (Nat.toDigits 10 n) = t.text ∧ t.units = n := by
  obtain ⟨whole, decs, k, heq, hne, hlen, hdigits⟩ := insertPeriod_eq (Nat.toDigits 10 n)
  have hall : (whole ++ decs).all Char.isDigit = true := by
    rw [hdigits]
    simp only [all_append, Bool.and_eq_true, all_eq_true]
    exact ⟨fun c hc => by simp [eq_of_mem_replicate hc],
      fun c hc => Nat.isDigit_of_mem_toDigits (by decide) (by decide) hc⟩
  have hdecs : decs ≠ [] := by
    rintro rfl
    simp at hlen
  let t : UnsignedText := ⟨[], whole, decs, .inl ⟨rfl, hne⟩, hall, hlen.le⟩
  refine ⟨t, rfl, by simp [heq, UnsignedText.text, t, point, hdecs], ?_⟩
  rw [← t.ofDigitChars_padded]
  simp only [t, hlen, Nat.sub_self, replicate_zero, append_nil, hdigits]
  rw [Nat.ofDigitChars_append, Nat.ofDigitChars_replicate_zero, mul_zero,
    Nat.ofDigitChars_ten_toDigits]

/-- A decimal is read back from its text unless it lies between minus one and zero. -/
theorem text_round_trip_iff (d : Dec) :
    (newDecFromStr d.string = .ok d ∧ unmarshalJSON d.marshalJSON = .ok d) ↔
      0 ≤ d.raw ∨ d.raw ≤ -precision := by
  have hjson : unmarshalJSON d.marshalJSON = newDecFromStr d.string := rfl
  rw [hjson, and_self, newDecFromStr_ok, string, String.toList_ofList, marshalText]
  obtain ⟨t, hsign, htext, hunits⟩ := insertPeriod_toDigits d.raw.natAbs
  have hlength := Nat.length_toDigits_le_iff (b := 10) (n := d.raw.natAbs) (k := 10) (by decide)
    (by decide)
  generalize Nat.toDigits 10 d.raw.natAbs = ds at *
  split_ifs with hneg
  · rcases lt_trichotomy ds.length 10 with hlt | heq | hgt
    · have hshort : insertPeriod ('-' :: ds) =
          '0' :: '.' :: (replicate (9 - ds.length) '0' ++ '-' :: ds) := by
        rw [insertPeriod, if_pos (by rw [length_cons]; omega), length_cons, Nat.succ_sub_succ]
      rw [hshort]
      refine iff_of_false ?_ (by simp only [precision]; omega)
      rintro (⟨_, h, _⟩ | ⟨_, h⟩)
      · cases h
      · obtain ⟨u, hu, _⟩ := newDecUnsigned_iff.mp h
        simpa using u.first_eq hu.symm
    · have hmiddle : insertPeriod ('-' :: ds) = '-' :: '.' :: ds := by
        rw [insertPeriod, if_neg (by simp [heq])]
        simp [heq]
      rw [hmiddle]
      refine iff_of_false ?_ (by simp only [precision]; omega)
      rintro (⟨_, h, hread⟩ | ⟨h, _⟩)
      · cases h
        obtain ⟨u, hu, _⟩ := newDecUnsigned_iff.mp hread
        simpa using u.first_eq hu.symm
      · exact h _ rfl
    · have hlong : insertPeriod ('-' :: ds) = '-' :: insertPeriod ds := by
        rw [insertPeriod, insertPeriod, if_neg (by simp; omega), if_neg (by omega), length_cons,
          Nat.succ_sub hgt.le, take_succ_cons, drop_succ_cons, cons_append]
      rw [hlong, htext]
      refine iff_of_true (.inl ⟨_, rfl, newDecUnsigned_iff.mpr ⟨t, rfl, ?_⟩⟩)
        (by simp only [precision]; omega)
      rw [signed, hsign, if_neg (by decide), hunits]
      omega
  · rw [htext]
    refine iff_of_true (.inr ⟨t.text_ne hsign rfl, newDecUnsigned_iff.mpr ⟨t, rfl, ?_⟩⟩) (by omega)
    rw [signed, hsign, if_neg (by decide), hunits]
    omega

theorem half_not_read :
    newDecFromStr (⟨-5000000000⟩ : Dec).string = .error "bad decimal length" := by
  decide +kernel

end Dec
end Irishub
