import Irishub.Lib.Unicode
import Mathlib.Data.String.Basic
import Mathlib.Data.List.TakeDrop

/-!
# String helpers

The affix, case and white-space functions of a string library, defined on the
list of characters so that they evaluate, with the equations that describe
them on concatenations.
-/

namespace Irishub.Lib
open List
variable {l : List Char} {s : String}

/-- `s` begins with `p`. -/
def hasPrefix (s p : String) : Bool := p.toList.isPrefixOf s.toList

/-- `s` ends with `p`. -/
def hasSuffix (s p : String) : Bool := p.toList.isSuffixOf s.toList

/-- `s` without the leading `p`, or `s` itself if it does not begin with `p`. -/
def trimPrefix (s p : String) : String :=
  if hasPrefix s p then String.ofList (s.toList.drop p.toList.length) else s

/-- `s` without the trailing `p`, or `s` itself if it does not end with `p`. -/
def trimSuffix (s p : String) : String :=
  if hasSuffix s p then String.ofList (s.toList.take (s.toList.length - p.toList.length)) else s

/-- `s` with each character in lower case. -/
def toLower (s : String) : String := String.ofList (s.toList.map Unicode.toLower)

/-- `s` without leading and trailing white space. -/
def trimSpace (s : String) : String :=
  String.ofList
    (((s.toList.dropWhile Unicode.isSpace).reverse.dropWhile Unicode.isSpace).reverse)

/-- Length of `s` in UTF-8 bytes. -/
def byteLen (s : String) : ℕ := s.toList.foldl (fun n c => n + c.utf8Size) 0

/-- `p` occurs in `s`. -/
def contains (s p : String) : Bool := s.toList.tails.any p.toList.isPrefixOf

lemma hasPrefix_iff {p : String} : hasPrefix s p = true ↔ ∃ r, s = p ++ r := by
  simp only [hasPrefix, isPrefixOf_iff_prefix]
  constructor
  · rintro ⟨r, hr⟩
    refine ⟨String.ofList r, ?_⟩
    rw [← String.toList_inj, String.toList_append, String.toList_ofList]
    exact hr.symm
  · rintro ⟨r, rfl⟩
    exact ⟨r.toList, String.toList_append.symm⟩

lemma hasSuffix_iff {p : String} : hasSuffix s p = true ↔ ∃ r, s = r ++ p := by
  simp only [hasSuffix, isSuffixOf_iff_suffix]
  constructor
  · rintro ⟨r, hr⟩
    refine ⟨String.ofList r, ?_⟩
    rw [← String.toList_inj, String.toList_append, String.toList_ofList]
    exact hr.symm
  · rintro ⟨r, rfl⟩
    exact ⟨r.toList, String.toList_append.symm⟩

@[simp] lemma hasPrefix_append (p r : String) : hasPrefix (p ++ r) p = true :=
  hasPrefix_iff.mpr ⟨r, rfl⟩

@[simp] lemma hasSuffix_append (r p : String) : hasSuffix (r ++ p) p = true :=
  hasSuffix_iff.mpr ⟨r, rfl⟩

@[simp] lemma trimPrefix_append (p r : String) : trimPrefix (p ++ r) p = r := by
  rw [trimPrefix, if_pos (hasPrefix_append p r), String.toList_append,
    drop_left, String.ofList_toList]

@[simp] lemma trimSuffix_append (r p : String) : trimSuffix (r ++ p) p = r := by
  have hlen : (r ++ p).toList.length - p.toList.length = r.toList.length := by
    rw [String.toList_append, length_append]
    omega
  rw [trimSuffix, if_pos (hasSuffix_append r p), hlen, String.toList_append,
    take_left, String.ofList_toList]

lemma trimSuffix_append_of_hasSuffix {p : String} (a : String) (h : hasSuffix s p = true) :
    trimSuffix (a ++ s) p = a ++ trimSuffix s p := by
  obtain ⟨r, rfl⟩ := hasSuffix_iff.mp h
  rw [← String.append_assoc, trimSuffix_append, trimSuffix_append]

lemma append_trimSuffix {p : String} (h : hasSuffix s p = true) : trimSuffix s p ++ p = s := by
  obtain ⟨r, rfl⟩ := hasSuffix_iff.mp h
  rw [trimSuffix_append]

lemma append_trimPrefix {p : String} (h : hasPrefix s p = true) : p ++ trimPrefix s p = s := by
  obtain ⟨r, rfl⟩ := hasPrefix_iff.mp h
  rw [trimPrefix_append]

lemma hasSuffix_of_append {a p : String} {c : Char} {r : List Char}
    (hp : p.toList = c :: r) (hc : c ∉ a.toList) (h : hasSuffix (a ++ s) p = true) :
    hasSuffix s p = true := by
  simp only [hasSuffix, isSuffixOf_iff_suffix, String.toList_append] at h ⊢
  rcases suffix_or_suffix_of_suffix h (suffix_append a.toList s.toList) with hps | hsp
  · exact hps
  · obtain ⟨x, hx⟩ := hsp
    cases x with
    | nil =>
      rw [← hx]
      exact suffix_refl _
    | cons d x =>
      -- otherwise the suffix would start inside `a`
      rw [← hx] at h
      have hd : d = c := by
        rw [hp] at hx
        exact (List.cons.inj hx).1
      have hmem : d ∈ a.toList := (suffix_append_self_iff.mp h).subset (mem_cons_self)
      exact absurd (hd ▸ hmem) hc

lemma toList_toLower (s : String) : (toLower s).toList = s.toList.map Unicode.toLower :=
  String.toList_ofList

lemma toLower_eq_self (h : ∀ c ∈ s.toList, Unicode.toLower c = c) : toLower s = s := by
  have hmap : s.toList.map Unicode.toLower = s.toList := by
    conv_rhs => rw [← map_id s.toList]
    exact map_congr_left h
  rw [toLower, hmap, String.ofList_toList]

lemma toLower_toLower (h : ∀ c ∈ (toLower s).toList, c.toNat < 0x80) :
    toLower (toLower s) = toLower s := by
  refine toLower_eq_self (fun c hc => ?_)
  have hascii := h c hc
  rw [toList_toLower] at hc
  obtain ⟨d, _, rfl⟩ := mem_map.mp hc
  exact Unicode.toLower_toLower hascii

lemma dropWhile_eq_self {α : Type} {p : α → Bool} :
    ∀ {l : List α}, (∀ a ∈ l, p a = false) → l.dropWhile p = l
  | [], _ => rfl
  | a :: l, h => by
    have ha : p a = false := h a (by simp)
    simp [List.dropWhile, ha]

lemma trimSpace_eq_self (h : ∀ c ∈ s.toList, Unicode.isSpace c = false) : trimSpace s = s := by
  have hrev : ∀ c ∈ s.toList.reverse, Unicode.isSpace c = false := by
    intro c hc
    exact h c (mem_reverse.mp hc)
  rw [trimSpace, dropWhile_eq_self h, dropWhile_eq_self hrev, reverse_reverse,
    String.ofList_toList]

lemma foldl_utf8Size (l : List Char) (n : ℕ) :
    l.foldl (fun n c => n + c.utf8Size) n = n + l.foldl (fun n c => n + c.utf8Size) 0 := by
  induction l generalizing n with
  | nil => rfl
  | cons c l ih =>
    rw [foldl_cons, foldl_cons, ih (n + c.utf8Size), ih (0 + c.utf8Size)]
    omega

lemma foldl_utf8Size_le_of_sublist {l' : List Char} (h : l.Sublist l') :
    l.foldl (fun n c => n + c.utf8Size) 0 ≤ l'.foldl (fun n c => n + c.utf8Size) 0 := by
  induction h with
  | slnil => simp
  | cons c _ ih =>
    rw [foldl_cons, foldl_utf8Size _ (0 + c.utf8Size)]
    omega
  | cons_cons c _ ih =>
    rw [foldl_cons, foldl_cons, foldl_utf8Size _ (0 + c.utf8Size),
      foldl_utf8Size _ (0 + c.utf8Size)]
    omega

lemma trimSpace_sublist (s : String) : (trimSpace s).toList.Sublist s.toList := by
  have hinner := (dropWhile_sublist Unicode.isSpace
    (l := (s.toList.dropWhile Unicode.isSpace).reverse)).reverse
  rw [reverse_reverse] at hinner
  rw [trimSpace, String.toList_ofList]
  exact hinner.trans (dropWhile_sublist Unicode.isSpace)

lemma byteLen_trimSpace_le (s : String) : byteLen (trimSpace s) ≤ byteLen s :=
  foldl_utf8Size_le_of_sublist (trimSpace_sublist s)

/-- A text has a byte for each character, and more exactly when it is not all ASCII. -/
lemma length_le_foldl_utf8Size (l : List Char) :
    l.length ≤ l.foldl (fun n c => n + c.utf8Size) 0 ∧
      (l.foldl (fun n c => n + c.utf8Size) 0 = l.length ↔ ∀ c ∈ l, c.toNat < 0x80) := by
  induction l with
  | nil => simp
  | cons c l ih =>
    obtain ⟨hle, hiff⟩ := ih
    have hpos := c.utf8Size_pos
    have hone : c.utf8Size = 1 ↔ c.toNat < 0x80 :=
      Char.utf8Size_eq_one_iff.trans (UInt32.le_iff_toNat_le.trans Nat.lt_succ_iff.symm)
    rw [foldl_cons, foldl_utf8Size, length_cons, forall_mem_cons, ← hiff, ← hone]
    refine ⟨by omega, by omega⟩

lemma byteLen_eq_length_iff :
    byteLen s = s.toList.length ↔ ∀ c ∈ s.toList, c.toNat < 0x80 :=
  (length_le_foldl_utf8Size s.toList).2

/-- An ASCII text that is the lower case of `s` without the white space around it has as many
bytes as `s` exactly when `s` is ASCII and has no white space around it. -/
lemma byteLen_toLower_trimSpace (h : ∀ c ∈ (toLower (trimSpace s)).toList, c.toNat < 0x80) :
    byteLen (toLower (trimSpace s)) ≤ byteLen s ∧
      (byteLen (toLower (trimSpace s)) = byteLen s ↔
        trimSpace s = s ∧ ∀ c ∈ s.toList, c.toNat < 0x80) := by
  have hlower : byteLen (toLower (trimSpace s)) = (trimSpace s).toList.length := by
    rw [byteLen_eq_length_iff.mpr h, toList_toLower, length_map]
  have hsub := trimSpace_sublist s
  have hbytes : s.toList.length ≤ byteLen s := (length_le_foldl_utf8Size s.toList).1
  have htrim := hsub.length_le
  rw [hlower]
  refine ⟨by omega, fun heq => ?_, ?_⟩
  · have hself := String.toList_inj.mp (hsub.eq_of_length (by omega))
    exact ⟨hself, byteLen_eq_length_iff.mp (by omega)⟩
  · rintro ⟨hself, hascii⟩
    rw [hself, byteLen_eq_length_iff.mpr hascii]

lemma byteLen_pos : 0 < byteLen s ↔ s ≠ "" := by
  constructor
  · rintro hpos rfl
    exact absurd hpos (by decide)
  · intro hne
    cases hs : s.toList with
    | nil => exact absurd (String.toList_eq_nil_iff.mp hs) hne
    | cons c r =>
      rw [byteLen, hs, foldl_cons, foldl_utf8Size]
      have := c.utf8Size_pos
      omega

end Irishub.Lib
