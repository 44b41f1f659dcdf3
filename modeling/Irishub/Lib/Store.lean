import Mathlib.Algebra.Order.BigOperators.Group.List
import Mathlib.Algebra.Order.Group.Unbundled.Basic
import Mathlib.Data.Prod.Lex
import Mathlib.Tactic.Abel

/-!
# Ordered key-value stores

A `Store κ ν` is a finite map kept as a list of entries with strictly
increasing keys, so that iterating over it visits the keys in order, as the
iterators of an ordered key-value database do. The order of the keys is a
field of the structure, hence every store is well formed.
-/

namespace Irishub.Lib
open List

universe u v w

section
variable {κ : Type u} {ν : Type v} [LinearOrder κ] {k : κ} {v : ν} {e : κ × ν}

/-- First value stored under `k`. -/
def lookupEntry (k : κ) : List (κ × ν) → Option ν
  | [] => none
  | e :: l => if k = e.1 then some e.2 else lookupEntry k l

/-- Write `v` under `k`, keeping the keys in order. -/
def insertEntry (k : κ) (v : ν) : List (κ × ν) → List (κ × ν)
  | [] => [(k, v)]
  | e :: l =>
    if k < e.1 then (k, v) :: e :: l
    else if k = e.1 then (k, v) :: l
    else e :: insertEntry k v l

/-- Remove the entry of `k`. -/
def eraseEntry (k : κ) : List (κ × ν) → List (κ × ν)
  | [] => []
  | e :: l => if k = e.1 then l else e :: eraseEntry k l

lemma mem_insertEntry : ∀ {l : List (κ × ν)}, e ∈ insertEntry k v l → e = (k, v) ∨ e ∈ l
  | [], h => by simpa [insertEntry] using h
  | e' :: l, h => by
    unfold insertEntry at h
    split_ifs at h with h1 h2
    · simpa using h
    · rcases mem_cons.mp h with rfl | h
      · exact Or.inl rfl
      · exact Or.inr (mem_cons_of_mem _ h)
    · rcases mem_cons.mp h with rfl | h
      · exact Or.inr (by simp)
      · rcases mem_insertEntry h with rfl | h
        · exact Or.inl rfl
        · exact Or.inr (mem_cons_of_mem _ h)

lemma mem_of_mem_eraseEntry : ∀ {l : List (κ × ν)}, e ∈ eraseEntry k l → e ∈ l
  | [], h => by simp [eraseEntry] at h
  | e' :: l, h => by
    unfold eraseEntry at h
    split_ifs at h with h1
    · exact mem_cons_of_mem _ h
    · rcases mem_cons.mp h with rfl | h
      · simp
      · exact mem_cons_of_mem _ (mem_of_mem_eraseEntry h)

def SortedKeys (l : List (κ × ν)) : Prop := l.Pairwise (fun a b => a.1 < b.1)

lemma SortedKeys.insertEntry : ∀ {l : List (κ × ν)}, SortedKeys l → SortedKeys (insertEntry k v l)
  | [], _ => by simp [Lib.insertEntry, SortedKeys]
  | e :: l, h => by
    obtain ⟨hhead, htail⟩ := pairwise_cons.mp h
    unfold Lib.insertEntry
    split_ifs with h1 h2
    · refine pairwise_cons.mpr ⟨?_, h⟩
      intro e' he'
      rcases mem_cons.mp he' with rfl | he'
      · exact h1
      · exact h1.trans (hhead e' he')
    · subst h2
      exact pairwise_cons.mpr ⟨hhead, htail⟩
    · refine pairwise_cons.mpr ⟨?_, SortedKeys.insertEntry htail⟩
      intro e' he'
      rcases mem_insertEntry he' with rfl | he'
      · exact lt_of_le_of_ne (not_lt.mp h1) (fun heq => h2 heq.symm)
      · exact hhead e' he'

lemma SortedKeys.eraseEntry : ∀ {l : List (κ × ν)}, SortedKeys l → SortedKeys (eraseEntry k l)
  | [], h => h
  | e :: l, h => by
    obtain ⟨hhead, htail⟩ := pairwise_cons.mp h
    unfold Lib.eraseEntry
    split_ifs with h1
    · exact htail
    · exact pairwise_cons.mpr
        ⟨fun e' he' => hhead e' (mem_of_mem_eraseEntry he'), SortedKeys.eraseEntry htail⟩

lemma lookupEntry_eq_none_of_forall :
    ∀ {l : List (κ × ν)}, (∀ e ∈ l, k < e.1) → lookupEntry k l = none
  | [], _ => rfl
  | e :: l, h => by
    have hne : k ≠ e.1 := (h e (by simp)).ne
    simp only [lookupEntry, hne, if_false]
    exact lookupEntry_eq_none_of_forall (fun e' he' => h e' (mem_cons_of_mem _ he'))

lemma lookupEntry_insertEntry (k k' : κ) (v : ν) : ∀ l : List (κ × ν),
      lookupEntry k' (insertEntry k v l) = if k' = k then some v else lookupEntry k' l
  | [] => rfl
  | e :: l => by
    have ih := lookupEntry_insertEntry k k' v l
    by_cases hk : k' = k
    · subst hk
      rw [if_pos rfl] at ih ⊢
      unfold insertEntry
      split_ifs with h1 h2
      · simp [lookupEntry]
      · simp [lookupEntry]
      · simpa [lookupEntry, h2] using ih
    · rw [if_neg hk] at ih ⊢
      unfold insertEntry
      split_ifs with h1 h2
      · simp [lookupEntry, hk]
      · have : k' ≠ e.1 := fun heq => hk (heq.trans h2.symm)
        simp [lookupEntry, hk, this]
      · simp [lookupEntry, ih]

lemma lookupEntry_eraseEntry (k k' : κ) : ∀ {l : List (κ × ν)}, SortedKeys l →
      lookupEntry k' (eraseEntry k l) = if k' = k then none else lookupEntry k' l
  | [], _ => by simp [eraseEntry, lookupEntry]
  | e :: l, h => by
    obtain ⟨hhead, htail⟩ := pairwise_cons.mp h
    have ih := lookupEntry_eraseEntry k k' htail
    by_cases hk : k' = k
    · subst hk
      rw [if_pos rfl] at ih ⊢
      unfold eraseEntry
      split_ifs with h1
      · subst h1
        exact lookupEntry_eq_none_of_forall hhead
      · simpa [lookupEntry, h1] using ih
    · rw [if_neg hk] at ih ⊢
      unfold eraseEntry
      split_ifs with h1
      · subst h1
        simp [lookupEntry, hk]
      · simp [lookupEntry, ih]

lemma mem_iff_lookupEntry :
    ∀ {l : List (κ × ν)}, SortedKeys l → ((k, v) ∈ l ↔ lookupEntry k l = some v)
  | [], _ => by simp [lookupEntry]
  | e :: l, h => by
    obtain ⟨hhead, htail⟩ := pairwise_cons.mp h
    rw [mem_cons, mem_iff_lookupEntry htail]
    by_cases hk : k = e.1
    · subst hk
      have hnone : lookupEntry e.1 l = none := lookupEntry_eq_none_of_forall hhead
      simp only [lookupEntry, if_true, hnone, reduceCtorEq, or_false, Option.some.injEq]
      constructor
      · intro heq
        rw [← heq]
      · rintro rfl
        rfl
    · have : (k, v) ≠ e := fun heq => hk (by rw [← heq])
      simp [lookupEntry, hk, this]

/-- A new key adds one entry. -/
lemma perm_insertEntry :
    ∀ {l : List (κ × ν)}, lookupEntry k l = none → (insertEntry k v l).Perm ((k, v) :: l)
  | [], _ => Perm.refl _
  | e :: l, h => by
    unfold lookupEntry at h
    split_ifs at h with hk
    unfold insertEntry
    split_ifs with hlt
    · exact Perm.refl _
    · exact ((perm_insertEntry h).cons e).trans (Perm.swap _ _ _)

/-- A deleted key takes one entry away. -/
lemma perm_eraseEntry :
    ∀ {l : List (κ × ν)}, lookupEntry k l = some v → l.Perm ((k, v) :: eraseEntry k l)
  | [], h => by simp [lookupEntry] at h
  | e :: l, h => by
    unfold lookupEntry at h
    unfold eraseEntry
    split_ifs at h ⊢ with hk
    · cases h
      rw [hk]
    · exact ((perm_eraseEntry h).cons e).trans (Perm.swap _ _ _)

end

/-- A finite map with ordered iteration. -/
structure Store (κ : Type u) (ν : Type v) [LinearOrder κ] where
  entries : List (κ × ν)
  sorted : SortedKeys entries

namespace Store
variable {κ : Type u} {ν : Type v} [LinearOrder κ] {k k' : κ} {s : Store κ ν} {v : ν}

instance [DecidableEq ν] : DecidableEq (Store κ ν) := fun s t =>
  decidable_of_iff (s.entries = t.entries) (by cases s; cases t; simp)

def empty : Store κ ν := ⟨[], List.Pairwise.nil⟩

instance : Inhabited (Store κ ν) := ⟨empty⟩

/-- Value stored under `k`. -/
def get (s : Store κ ν) (k : κ) : Option ν := lookupEntry k s.entries

/-- Whether something is stored under `k`. -/
def has (s : Store κ ν) (k : κ) : Bool := (s.get k).isSome

/-- Write `v` under `k`. -/
def set (s : Store κ ν) (k : κ) (v : ν) : Store κ ν :=
  ⟨insertEntry k v s.entries, s.sorted.insertEntry⟩

/-- Remove what is stored under `k`. -/
def delete (s : Store κ ν) (k : κ) : Store κ ν :=
  ⟨eraseEntry k s.entries, s.sorted.eraseEntry⟩

def values (s : Store κ ν) : List ν := s.entries.map Prod.snd

@[simp] lemma get_empty (k : κ) : (empty : Store κ ν).get k = none := rfl

lemma get_set (s : Store κ ν) (k k' : κ) (v : ν) :
    (s.set k v).get k' = if k' = k then some v else s.get k' :=
  lookupEntry_insertEntry k k' v s.entries

@[simp] lemma get_set_self (s : Store κ ν) (k : κ) (v : ν) : (s.set k v).get k = some v := by
  simp [get_set]

lemma get_set_ne (s : Store κ ν) (v : ν) (h : k' ≠ k) : (s.set k v).get k' = s.get k' := by
  simp [get_set, h]

lemma get_delete (s : Store κ ν) (k k' : κ) :
    (s.delete k).get k' = if k' = k then none else s.get k' :=
  lookupEntry_eraseEntry k k' s.sorted

@[simp] lemma get_delete_self (s : Store κ ν) (k : κ) : (s.delete k).get k = none := by
  simp [get_delete]

lemma get_delete_ne (s : Store κ ν) (h : k' ≠ k) : (s.delete k).get k' = s.get k' := by
  simp [get_delete, h]

lemma mem_entries : (k, v) ∈ s.entries ↔ s.get k = some v := mem_iff_lookupEntry s.sorted

lemma mem_values : v ∈ s.values ↔ ∃ k, s.get k = some v := by
  simp only [values, mem_map, Prod.exists, mem_entries, exists_eq_right]

lemma entries_eq_of_lookupEntry : ∀ {l l' : List (κ × ν)}, SortedKeys l → SortedKeys l' →
      (∀ k, lookupEntry k l = lookupEntry k l') → l = l' := by
  intro l l' hl hl' h
  have hmem : ∀ e, e ∈ l ↔ e ∈ l' := by
    rintro ⟨k, v⟩
    rw [mem_iff_lookupEntry hl, mem_iff_lookupEntry hl', h]
  have hperm : l.Perm l' := (perm_ext_iff_of_nodup
    (hl.imp (fun hlt heq => absurd (congrArg Prod.fst heq) hlt.ne))
    (hl'.imp (fun hlt heq => absurd (congrArg Prod.fst heq) hlt.ne))).mpr hmem
  exact hperm.eq_of_pairwise (fun a b _ _ hab hba => absurd (hab.trans hba) (lt_irrefl _)) hl hl'

lemma ext_get {t : Store κ ν} (h : ∀ k, s.get k = t.get k) : s = t := by
  obtain ⟨l, hl⟩ := s
  obtain ⟨l', hl'⟩ := t
  have heq : l = l' := entries_eq_of_lookupEntry hl hl' h
  subst heq
  rfl

@[simp] lemma set_set (s : Store κ ν) (k : κ) (v w : ν) : (s.set k v).set k w = s.set k w := by
  refine ext_get (fun k' => ?_)
  simp only [get_set]
  split_ifs <;> rfl

@[simp] lemma delete_delete (s : Store κ ν) (k : κ) : (s.delete k).delete k = s.delete k := by
  refine ext_get (fun k' => ?_)
  simp only [get_delete]
  split_ifs <;> rfl

/-- Entries whose keys satisfy `p`. -/
def filter (s : Store κ ν) (p : κ → Bool) : Store κ ν :=
  ⟨s.entries.filter (fun e => p e.1), List.Pairwise.filter _ s.sorted⟩

lemma get_filter (s : Store κ ν) (p : κ → Bool) (k : κ) :
    (s.filter p).get k = if p k then s.get k else none := by
  refine Option.ext (fun v => ?_)
  rw [← mem_entries]
  simp only [filter, mem_filter, mem_entries]
  split_ifs with h <;> simp [h]

lemma get_foldl_delete (l : List (κ × ν)) (s : Store κ ν) (k : κ) :
    (l.foldl (fun t e => t.delete e.1) s).get k = if k ∈ l.map Prod.fst then none else s.get k := by
  induction l generalizing s with
  | nil => simp
  | cons e l ih =>
    rw [foldl_cons, ih, get_delete, map_cons]
    by_cases hk : k = e.1
    · rw [if_pos hk, if_pos (mem_cons.mpr (Or.inl hk)), ite_self]
    · rw [if_neg hk]
      exact if_congr (by rw [mem_cons, or_iff_right hk]) rfl rfl

lemma get_foldl_set {l : List (κ × ν)} (hl : SortedKeys l) (s : Store κ ν) (k : κ) :
    (l.foldl (fun t e => t.set e.1 e.2) s).get k = (lookupEntry k l).or (s.get k) := by
  induction l generalizing s with
  | nil => rfl
  | cons e l ih =>
    obtain ⟨hlt, hl⟩ := pairwise_cons.mp hl
    rw [foldl_cons, ih hl, get_set, lookupEntry]
    by_cases hk : k = e.1
    · subst hk
      rw [if_pos rfl, if_pos rfl, lookupEntry_eq_none_of_forall hlt]
      rfl
    · rw [if_neg hk, if_neg hk]

lemma foldl_set_values {f : ν → κ} (h : ∀ k v, s.get k = some v → k = f v) :
    s.values.foldl (fun t v => t.set (f v) v) empty = s := by
  have hkeys : s.values.foldl (fun t v => t.set (f v) v) empty =
      s.entries.foldl (fun t e => t.set e.1 e.2) empty := by
    rw [values, foldl_map]
    refine foldl_ext _ _ _ (fun t e he => ?_)
    rw [← h e.1 e.2 (mem_entries.mp he)]
  rw [hkeys]
  refine ext_get (fun k => ?_)
  rw [get_foldl_set s.sorted, get_empty, Option.or_none]
  rfl

lemma foldl_delete_filter (s : Store κ ν) (p : κ → Bool) :
    (s.entries.filter (fun e => p e.1)).foldl (fun t e => t.delete e.1) s =
      s.filter (fun k => !p k) := by
  refine ext_get (fun k => ?_)
  rw [get_foldl_delete, get_filter]
  have hmem : k ∈ (s.entries.filter (fun e => p e.1)).map Prod.fst ↔
      p k = true ∧ ∃ v, s.get k = some v := by
    constructor
    · intro h
      obtain ⟨⟨k', v⟩, he, rfl⟩ := mem_map.mp h
      obtain ⟨hmem, hp⟩ := mem_filter.mp he
      exact ⟨hp, v, mem_entries.mp hmem⟩
    · rintro ⟨hp, v, hv⟩
      exact mem_map.mpr ⟨(k, v), mem_filter.mpr ⟨mem_entries.mpr hv, hp⟩, rfl⟩
  cases hp : p k with
  | false => simp [hmem, hp]
  | true =>
    cases hk : s.get k with
    | none => simp
    | some v => simp [hmem, hp, hk]

/-- Values after a write under a new key. -/
lemma perm_values_set (h : s.get k = none) (v : ν) : (s.set k v).values.Perm (v :: s.values) :=
  (perm_insertEntry h).map Prod.snd

/-- Values without a key. -/
lemma perm_values_delete (h : s.get k = some v) : s.values.Perm (v :: (s.delete k).values) :=
  (perm_eraseEntry h).map Prod.snd

/-- Values after a write over an old one. -/
lemma perm_values_replace {old : ν} (h : s.get k = some old) (v : ν) :
    (old :: (s.set k v).values).Perm (v :: s.values) := by
  have hset : (s.delete k).set k v = s.set k v := by
    refine ext_get (fun k' => ?_)
    rw [get_set, get_set, get_delete]
    split_ifs <;> rfl
  have hvalues := perm_values_set (s.get_delete_self k) v
  rw [hset] at hvalues
  exact ((hvalues.cons old).trans (.swap _ _ _)).trans ((perm_values_delete h).symm.cons v)

section
variable {s : Store κ ν} {P : κ → ν → Prop}

lemma forall_set (h : ∀ k v, s.get k = some v → P k v) {k0 : κ} {v0 : ν} (h0 : P k0 v0) :
    ∀ k v, (s.set k0 v0).get k = some v → P k v := by
  intro k v hk
  rw [get_set] at hk
  split_ifs at hk with heq
  · cases hk
    rw [heq]
    exact h0
  · exact h k v hk

lemma forall_delete (h : ∀ k v, s.get k = some v → P k v) (k0 : κ) :
    ∀ k v, (s.delete k0).get k = some v → P k v := by
  intro k v hk
  rw [get_delete] at hk
  split_ifs at hk with heq
  exact h k v hk

lemma exists_get_set {k : κ} (h : ∃ v, s.get k = some v) (k0 : κ) (v0 : ν) :
    ∃ v, (s.set k0 v0).get k = some v := by
  rw [get_set]
  split_ifs
  · exact ⟨v0, rfl⟩
  · exact h

lemma nodup_keys (s : Store κ ν) : (s.entries.map Prod.fst).Nodup :=
  pairwise_map.mpr (s.sorted.imp (fun h => h.ne))

lemma nodup_values {f : ν → κ} (h : ∀ k v, s.get k = some v → k = f v) : s.values.Nodup := by
  have hkeys : s.values.map f = s.entries.map Prod.fst := by
    rw [values, map_map]
    exact map_congr_left (fun e he => (h e.1 e.2 (mem_entries.mp he)).symm)
  have hnodup : (s.values.map f).Nodup := by
    rw [hkeys]
    exact s.nodup_keys
  exact (pairwise_map.mp hnodup).imp (fun hne heq => hne (congrArg f heq))

end

section
variable {M : Type w} [AddCommGroup M] {f g : κ → ν → M} {s : Store κ ν}

/-- Sum of `f k v` over the entries of the store. -/
def total (f : κ → ν → M) (s : Store κ ν) : M := (s.entries.map (fun e => f e.1 e.2)).sum

/-- What `k` contributes to `total f`. -/
def contribution (f : κ → ν → M) (s : Store κ ν) (k : κ) : M := (s.get k).elim 0 (f k)

lemma sum_insertEntry (f : κ → ν → M) (k : κ) (v : ν) : ∀ {l : List (κ × ν)}, SortedKeys l →
      ((insertEntry k v l).map (fun e => f e.1 e.2)).sum =
        (l.map (fun e => f e.1 e.2)).sum + f k v - (lookupEntry k l).elim 0 (f k)
  | [], _ => by simp [insertEntry, lookupEntry]
  | e :: l, h => by
    obtain ⟨hhead, htail⟩ := pairwise_cons.mp h
    unfold insertEntry
    split_ifs with h1 h2
    · have hnone : lookupEntry k (e :: l) = none := by
        refine lookupEntry_eq_none_of_forall (fun e' he' => ?_)
        rcases mem_cons.mp he' with rfl | he'
        · exact h1
        · exact h1.trans (hhead e' he')
      simp only [hnone, map_cons, sum_cons, Option.elim_none]
      abel
    · subst h2
      simp only [lookupEntry, if_true, map_cons, sum_cons, Option.elim_some]
      abel
    · simp only [lookupEntry, h2, if_false, map_cons, sum_cons, sum_insertEntry f k v htail]
      abel

lemma sum_eraseEntry (f : κ → ν → M) (k : κ) : ∀ l : List (κ × ν),
      ((eraseEntry k l).map (fun e => f e.1 e.2)).sum =
        (l.map (fun e => f e.1 e.2)).sum - (lookupEntry k l).elim 0 (f k)
  | [] => by simp [eraseEntry, lookupEntry]
  | e :: l => by
    unfold eraseEntry
    split_ifs with h1
    · subst h1
      simp [lookupEntry]
    · simp only [lookupEntry, h1, if_false, map_cons, sum_cons, sum_eraseEntry f k l]
      abel

@[simp] lemma total_empty (f : κ → ν → M) : total f (empty : Store κ ν) = 0 := rfl

lemma total_set (f : κ → ν → M) (s : Store κ ν) (k : κ) (v : ν) :
    total f (s.set k v) = total f s + f k v - contribution f s k :=
  sum_insertEntry f k v s.sorted

lemma total_delete (f : κ → ν → M) (s : Store κ ν) (k : κ) :
    total f (s.delete k) = total f s - contribution f s k :=
  sum_eraseEntry f k s.entries

lemma total_congr (h : ∀ k v, s.get k = some v → f k v = g k v) : total f s = total g s := by
  unfold total
  refine congrArg sum (map_congr_left (fun e he => ?_))
  exact h e.1 e.2 (mem_entries.mp he)

lemma total_sub_contribution_congr {k : κ} (h : ∀ k' v, k' ≠ k → f k' v = g k' v) :
    total f s - contribution f s k = total g s - contribution g s k := by
  rw [← total_delete, ← total_delete]
  refine total_congr (fun k' v hk' => h k' v ?_)
  rintro rfl
  simp at hk'

lemma total_add (f g : κ → ν → M) (s : Store κ ν) :
    total (fun k v => f k v + g k v) s = total f s + total g s := by
  unfold total
  exact sum_map_add

end

section
variable {M : Type w} [AddCommGroup M] [PartialOrder M] [IsOrderedAddMonoid M] {f : κ → ν → M}
  {s : Store κ ν}

lemma total_nonneg (hf : ∀ k v, s.get k = some v → 0 ≤ f k v) : 0 ≤ total f s := by
  refine sum_nonneg (fun x hx => ?_)
  obtain ⟨e, he, rfl⟩ := mem_map.mp hx
  exact hf e.1 e.2 (mem_entries.mp he)

lemma le_total (hf : ∀ k v, s.get k = some v → 0 ≤ f k v)
    {k : κ} {v : ν} (h : s.get k = some v) : f k v ≤ total f s := by
  have hdel : 0 ≤ total f (s.delete k) := by
    refine total_nonneg (fun k' v' h' => ?_)
    rw [get_delete] at h'
    split_ifs at h' with hk
    exact hf k' v' h'
  rw [total_delete, contribution, h] at hdel
  exact sub_nonneg.mp hdel

lemma total_le_total {g : κ → ν → M}
    (h : ∀ k v, s.get k = some v → f k v ≤ g k v) : total f s ≤ total g s :=
  sum_le_sum (fun e he => h e.1 e.2 (mem_entries.mp he))

end
end Store
end Irishub.Lib
