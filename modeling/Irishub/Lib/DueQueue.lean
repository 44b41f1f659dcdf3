import Irishub.Lib.Outcome
import Irishub.Lib.Store
import Mathlib.Data.List.Nodup

/-!
# Queues ordered by time

A `Store (τ ×ₗ ι) ι` whose key is a due time followed by an item, and whose value
is the item, is a queue that is read up to a time. `Tracks q due` says that the
queue holds each item once, at its due time, and nothing else; inserting an item
that is not due yet and removing one at its time keep it.

A `Store τ (List ι)` is such a queue too: the slice of a time lists what is due at
it, in the order of insertion. `Sliced q due` says the same of it as `Tracks` does
of the other.

`foldlM_each` is the loop over such a reading in which every iteration changes
what is looked up for its own item only.
-/

namespace Irishub.Lib
open Store List

universe u v w

section
variable {τ : Type u} {ι : Type v} [LinearOrder τ] [LinearOrder ι]

/-- Queue holds the item `i` under `(t, i)` exactly when it is due at `t`. -/
def Tracks (q : Store (τ ×ₗ ι) ι) (due : ι → Option τ) : Prop :=
  ∀ t i, q.get (toLex (t, i)) = if due i = some t then some i else none

/-- Items read up to the time `now`. -/
def dueItems (q : Store (τ ×ₗ ι) ι) (now : τ) : List ι :=
  (q.entries.filter (fun e => (ofLex e.1).1 ≤ now)).map Prod.snd

variable {q : Store (τ ×ₗ ι) ι} {due : ι → Option τ} {t : τ} {i : ι}

lemma tracks_empty : Tracks (Store.empty : Store (τ ×ₗ ι) ι) (fun _ => none) := fun _ _ => rfl

lemma Tracks.congr {due' : ι → Option τ} (h : Tracks q due) (heq : due' = due) :
    Tracks q due' := heq ▸ h

lemma Tracks.insert (h : Tracks q due) (hi : due i = none) :
    Tracks (q.set (toLex (t, i)) i) (Function.update due i (some t)) := by
  intro t' i'
  simp only [get_set, h t' i', EmbeddingLike.apply_eq_iff_eq, Prod.mk.injEq]
  by_cases hi' : i' = i
  · subst hi'
    simp [hi, eq_comm]
  · simp [hi']

lemma Tracks.remove (h : Tracks q due) (hi : ∀ t', due i = some t' → t' = t) :
    Tracks (q.delete (toLex (t, i))) (Function.update due i none) := by
  intro t' i'
  simp only [get_delete, h t' i', EmbeddingLike.apply_eq_iff_eq, Prod.mk.injEq]
  by_cases hi' : i' = i
  · subst hi'
    by_cases ht : due i' = some t'
    · simp [hi t' ht]
    · simp [ht]
  · simp [hi']

lemma Tracks.entry_eq (h : Tracks q due) {e : (τ ×ₗ ι) × ι} (he : e ∈ q.entries) :
    (ofLex e.1).2 = e.2 ∧ due e.2 = some (ofLex e.1).1 := by
  have hget := mem_entries.mp he
  have htrack := h (ofLex e.1).1 (ofLex e.1).2
  rw [Prod.mk.eta, toLex_ofLex, hget] at htrack
  split_ifs at htrack with hdue
  have heq : e.2 = (ofLex e.1).2 := Option.some.inj htrack
  exact ⟨heq.symm, by rw [heq]; exact hdue⟩

lemma Tracks.mem_dueItems (h : Tracks q due) (now : τ) :
    i ∈ dueItems q now ↔ ∃ t, due i = some t ∧ t ≤ now := by
  constructor
  · intro hi
    obtain ⟨e, he, rfl⟩ := mem_map.mp hi
    obtain ⟨hmem, hle⟩ := mem_filter.mp he
    exact ⟨_, (h.entry_eq hmem).2, by simpa using hle⟩
  · rintro ⟨t, ht, hle⟩
    have hget : q.get (toLex (t, i)) = some i := by rw [h t i, if_pos ht]
    exact mem_map.mpr
      ⟨(toLex (t, i), i), mem_filter.mpr ⟨mem_entries.mpr hget, decide_eq_true hle⟩, rfl⟩

lemma Tracks.nodup_dueItems (h : Tracks q due) (now : τ) : (dueItems q now).Nodup := by
  have hkeys : ((q.entries.filter (fun e => (ofLex e.1).1 ≤ now)).map Prod.fst).Nodup :=
    q.nodup_keys.sublist (List.filter_sublist.map Prod.fst)
  have hentries : (q.entries.filter (fun e => decide ((ofLex e.1).1 ≤ now))).Nodup :=
    List.Nodup.of_map Prod.fst hkeys
  refine List.Nodup.map_on (fun e he e' he' heq => ?_) hentries
  have hmem := h.entry_eq (mem_of_mem_filter he)
  have hmem' := h.entry_eq (mem_of_mem_filter he')
  -- equal items have one due time, hence one key
  have htime : (ofLex e.1).1 = (ofLex e'.1).1 :=
    Option.some.inj (hmem.2.symm.trans ((congrArg due heq).trans hmem'.2))
  have hitem : (ofLex e.1).2 = (ofLex e'.1).2 := hmem.1.trans (heq.trans hmem'.1.symm)
  exact Prod.ext (ofLex.injective (Prod.ext htime hitem)) heq

end

section
variable {τ : Type u} {ι : Type v} [LinearOrder τ]

/-- Items listed for the time `t`. -/
def slice (q : Store τ (List ι)) (t : τ) : List ι := (q.get t).getD []

lemma slice_set (q : Store τ (List ι)) (t t' : τ) (l : List ι) :
    slice (q.set t l) t' = if t' = t then l else slice q t' := by
  unfold slice
  rw [get_set]
  split_ifs <;> rfl

lemma slice_delete (q : Store τ (List ι)) (t t' : τ) :
    slice (q.delete t) t' = if t' = t then [] else slice q t' := by
  unfold slice
  rw [get_delete]
  split_ifs <;> rfl

/-- Items listed up to the time `now`. -/
def matureItems (q : Store τ (List ι)) (now : τ) : List ι :=
  (q.entries.filter (fun e => e.1 ≤ now)).flatMap Prod.snd

variable [DecidableEq ι]

def Sliced (q : Store τ (List ι)) (due : ι → Option τ) : Prop :=
  ∀ t i, (slice q t).count i = if due i = some t then 1 else 0

variable {q q' : Store τ (List ι)} {due : ι → Option τ} {t : τ} {i : ι}

lemma sliced_empty : Sliced (Store.empty : Store τ (List ι)) (fun _ => none) := fun _ _ => rfl

lemma Sliced.congr {due' : ι → Option τ} (h : Sliced q due) (heq : due' = due) :
    Sliced q due' := heq ▸ h

lemma Sliced.mem_slice (h : Sliced q due) : i ∈ slice q t ↔ due i = some t := by
  rw [← count_pos_iff, h t i]
  split_ifs with hdue <;> simp [hdue]

lemma Sliced.nodup_slice (h : Sliced q due) (t : τ) : (slice q t).Nodup := by
  rw [nodup_iff_count_le_one]
  intro i
  rw [h t i]
  split_ifs <;> simp

lemma Sliced.push (h : Sliced q due) (hi : due i = none)
    (hq : ∀ t', slice q' t' = if t' = t then slice q t ++ [i] else slice q t') :
    Sliced q' (Function.update due i (some t)) := by
  intro t' j
  rw [hq t', Function.update_apply]
  by_cases ht : t' = t
  · subst ht
    rw [if_pos rfl, count_append, h t' j]
    by_cases hj : j = i
    · subst hj
      simp [hi]
    · simp [hj, Ne.symm hj]
  · rw [if_neg ht, h t' j]
    by_cases hj : j = i
    · subst hj
      simp [hi, Ne.symm ht]
    · rw [if_neg hj]

lemma Sliced.drop (h : Sliced q due) (hi : ∀ t', due i = some t' → t' = t)
    (hq : ∀ t', slice q' t' = if t' = t then (slice q t).filter (fun j => j ≠ i) else slice q t') :
    Sliced q' (Function.update due i none) := by
  intro t' j
  rw [hq t', Function.update_apply]
  by_cases hj : j = i
  · subst hj
    simp only [if_true, reduceCtorEq, if_false]
    split_ifs with ht
    · exact count_eq_zero.mpr (by simp)
    · rw [h t' j, if_neg (fun hdue => ht (hi t' hdue))]
  · rw [if_neg hj]
    split_ifs with ht hdue hdue
    · rw [count_filter (by simpa using hj), h t j, if_pos (ht ▸ hdue)]
    · rw [count_filter (by simpa using hj), h t j, if_neg (ht ▸ hdue)]
    · rw [h t' j, if_pos hdue]
    · rw [h t' j, if_neg hdue]

lemma Sliced.delete (h : Sliced q due) (t : τ) :
    Sliced (q.delete t) (fun i => if due i = some t then none else due i) := by
  intro t' i
  rw [slice_delete]
  by_cases ht : t' = t
  · subst ht
    by_cases hdue : due i = some t' <;> simp [hdue]
  · rw [if_neg ht, h t' i]
    by_cases hdue : due i = some t
    · simp [hdue, Ne.symm ht]
    · simp [hdue]

lemma Sliced.dequeue (h : Sliced q due) (now : τ) :
    Sliced ((q.entries.filter (fun e => e.1 ≤ now)).foldl (fun q e => q.delete e.1) q)
      (fun i => (due i).filter (fun t => now < t)) := by
  intro t i
  have hfilter := foldl_delete_filter q (fun t => decide (t ≤ now))
  have hslice :
      slice ((q.entries.filter (fun e => e.1 ≤ now)).foldl (fun q e => q.delete e.1) q) t =
      if t ≤ now then [] else slice q t := by
    rw [hfilter]
    unfold slice
    rw [get_filter]
    by_cases ht : t ≤ now <;> simp [ht]
  rw [hslice]
  split_ifs with ht hdue hdue
  · simp only [Option.filter_eq_some_iff, decide_eq_true_eq] at hdue
    exact absurd hdue.2 (not_lt.mpr ht)
  · rfl
  · simp only [Option.filter_eq_some_iff] at hdue
    rw [h t i, if_pos hdue.1]
  · have hnone : due i ≠ some t := by
      intro hsome
      refine hdue ?_
      simp only [Option.filter_eq_some_iff, decide_eq_true_eq]
      exact ⟨hsome, not_le.mp ht⟩
    rw [h t i, if_neg hnone]

lemma Sliced.mem_matureItems (h : Sliced q due) (now : τ) :
    i ∈ matureItems q now ↔ ∃ t, due i = some t ∧ t ≤ now := by
  simp only [matureItems, mem_flatMap, mem_filter, decide_eq_true_eq, Prod.exists, mem_entries]
  constructor
  · rintro ⟨t, l, ⟨hget, hle⟩, hi⟩
    refine ⟨t, h.mem_slice.mp ?_, hle⟩
    rw [slice, hget]
    exact hi
  · rintro ⟨t, hdue, hle⟩
    have hi := h.mem_slice.mpr hdue
    unfold slice at hi
    cases hget : q.get t with
    | none => simp [hget] at hi
    | some l => exact ⟨t, l, ⟨hget, hle⟩, by simpa [hget] using hi⟩

lemma Sliced.nodup_matureItems (h : Sliced q due) (now : τ) : (matureItems q now).Nodup := by
  have hslice : ∀ e ∈ q.entries, slice q e.1 = e.2 := fun e he => by
    rw [slice, mem_entries.mp he]
    rfl
  have hkeys : (q.entries.filter (fun e => decide (e.1 ≤ now))).Pairwise (fun a b => a.1 < b.1) :=
    List.Pairwise.filter _ q.sorted
  refine nodup_flatMap.mpr ⟨fun e he => ?_, hkeys.imp_of_mem (fun ha hb hlt => ?_)⟩
  · rw [← hslice e (mem_of_mem_filter he)]
    exact h.nodup_slice e.1
  · -- an item of two slices would have two due times
    rename_i a b
    intro i hia hib
    rw [← hslice a (mem_of_mem_filter ha), h.mem_slice] at hia
    rw [← hslice b (mem_of_mem_filter hb), h.mem_slice, hia] at hib
    exact hlt.ne (Option.some.inj hib)

end

section
variable {ε : Type u} {σ : Type v} {ι : Type w} {α : Type w}

/-- A loop over distinct items in which an iteration changes the view of its own item only: every
iteration finds its item as it was before the loop, and what it leaves remains. -/
lemma foldlM_each {f : σ → ι → Except ε σ} {I : σ → Prop} {v : σ → ι → α} {P Q : ι → α → Prop}
    (hstep : ∀ s s' i, I s → P i (v s i) → f s i = .ok s' →
      I s' ∧ Q i (v s' i) ∧ ∀ k, k ≠ i → v s' k = v s k) :
    ∀ {l : List ι} {s t : σ}, l.Nodup → I s → (∀ i ∈ l, P i (v s i)) → l.foldlM f s = .ok t →
      I t ∧ (∀ i ∈ l, Q i (v t i)) ∧ ∀ i, i ∉ l → v t i = v s i
  | [], s, t, _, hs, _, h => by
    cases h
    exact ⟨hs, by simp, fun _ _ => rfl⟩
  | i :: l, s, t, hnodup, hs, hP, h => by
    rw [List.foldlM_cons] at h
    obtain ⟨s1, h1, h⟩ := bind_ok.mp h
    obtain ⟨hni, hnodup⟩ := List.nodup_cons.mp hnodup
    obtain ⟨hs1, hQ1, hview1⟩ := hstep s s1 i hs (hP i (by simp)) h1
    have hne : ∀ k ∈ l, k ≠ i := fun k hk heq => hni (heq ▸ hk)
    have hP1 : ∀ k ∈ l, P k (v s1 k) := fun k hk => by
      rw [hview1 k (hne k hk)]
      exact hP k (List.mem_cons_of_mem _ hk)
    obtain ⟨ht, hQ, hview⟩ := foldlM_each hstep hnodup hs1 hP1 h
    refine ⟨ht, fun k hk => ?_, fun k hk => ?_⟩
    · rcases List.mem_cons.mp hk with rfl | hk
      · rw [hview k hni]
        exact hQ1
      · exact hQ k hk
    · rw [hview k (fun hmem => hk (List.mem_cons_of_mem _ hmem)),
        hview1 k (fun heq => hk (heq ▸ List.mem_cons_self))]

end
end Irishub.Lib
