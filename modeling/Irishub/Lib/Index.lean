import Irishub.Lib.Store

/-!
# Secondary indexes

An index of a store of records is a second store, from keys computed from the
records back to where the records are. `Indexes key records index` says that the
index holds the key of each record that has one, and nothing else.

A record is rewritten in two halves: its key leaves the index, after which the
index is right about all the other records (`IndexesBut`), and its new key, if it
has one, enters. Nothing is asked of the keys but that a key tells whose it is.
-/

namespace Irishub.Lib
open Store

universe u v w

variable {κ : Type u} {α : Type v} {ρ : Type w} [LinearOrder κ] [LinearOrder ρ]
  {key : κ → α → Option ρ} {owner : ρ → κ} {records : Store κ α} {index : Store ρ κ} {k₀ : κ}
  {r0 : ρ} {a0 : α}

def Indexes (key : κ → α → Option ρ) (records : Store κ α) (index : Store ρ κ) : Prop :=
  ∀ r k, index.get r = some k ↔ ∃ a, records.get k = some a ∧ key k a = some r

/-- Index is right about every record but that at `k₀`, of which it holds no key. -/
def IndexesBut (key : κ → α → Option ρ) (k₀ : κ) (records : Store κ α) (index : Store ρ κ) : Prop :=
  ∀ r k, index.get r = some k ↔ k ≠ k₀ ∧ ∃ a, records.get k = some a ∧ key k a = some r

lemma indexes_empty : Indexes key (Store.empty : Store κ α) (Store.empty : Store ρ κ) := by
  intro r k
  simp

/-- Records determine their index. -/
lemma Indexes.unique {index' : Store ρ κ} (h : Indexes key records index)
    (h' : Indexes key records index') : index' = index :=
  ext_get (fun r => Option.ext (fun k => (h' r k).trans (h r k).symm))

/-- Record at `k₀` has no key. -/
lemma Indexes.but (h : Indexes key records index)
    (hnone : ∀ a, records.get k₀ = some a → key k₀ a = none) : IndexesBut key k₀ records index := by
  intro r k
  rw [h r k]
  constructor
  · rintro ⟨a, ha, hkey⟩
    refine ⟨?_, a, ha, hkey⟩
    rintro rfl
    rw [hnone a ha] at hkey
    cases hkey
  · rintro ⟨_, h⟩
    exact h

lemma Indexes.but_delete (h : Indexes key records index)
    (howner : ∀ k a r, key k a = some r → owner r = k) (hr0 : owner r0 = k₀)
    (hrecord : ∀ a, records.get k₀ = some a → key k₀ a = none ∨ key k₀ a = some r0) :
    IndexesBut key k₀ records (index.delete r0) := by
  intro r k
  rw [get_delete]
  split_ifs with hr
  · subst hr
    constructor
    · intro hk
      cases hk
    · rintro ⟨hne, a, _, hkey⟩
      exact absurd ((howner k a r hkey).symm.trans hr0) hne
  · rw [h r k]
    constructor
    · rintro ⟨a, ha, hkey⟩
      refine ⟨?_, a, ha, hkey⟩
      rintro rfl
      rcases hrecord a ha with hnone | hsome
      · rw [hnone] at hkey
        cases hkey
      · rw [hsome] at hkey
        exact hr (Option.some.inj hkey).symm
    · rintro ⟨_, h⟩
      exact h

lemma IndexesBut.set (h : IndexesBut key k₀ records index)
    (hkey : key k₀ a0 = none) : Indexes key (records.set k₀ a0) index := by
  intro r k
  rw [h r k, get_set]
  split_ifs with hk
  · subst hk
    simp [hkey]
  · simp [hk]

lemma IndexesBut.enter (h : IndexesBut key k₀ records index)
    (howner : ∀ k a r, key k a = some r → owner r = k) (hkey : key k₀ a0 = some r0) :
    Indexes key (records.set k₀ a0) (index.set r0 k₀) := by
  intro r k
  rw [get_set, get_set]
  by_cases hr : r = r0
  · subst hr
    rw [if_pos rfl]
    constructor
    · intro hk
      cases hk
      exact ⟨a0, if_pos rfl, hkey⟩
    · rintro ⟨a, _, ha⟩
      rw [← howner k a r ha, howner k₀ a0 r hkey]
  · rw [if_neg hr, h r k]
    split_ifs with hk
    · subst hk
      simp [hkey, Ne.symm hr]
    · simp [hk]

lemma IndexesBut.delete (h : IndexesBut key k₀ records index) :
    Indexes key (records.delete k₀) index := by
  intro r k
  rw [h r k, get_delete]
  split_ifs with hk
  · simp [hk]
  · simp [hk]

lemma Indexes.rewrite {a : α} (h : Indexes key records index)
    (ha : records.get k₀ = some a) (hkey : key k₀ a0 = key k₀ a) :
    Indexes key (records.set k₀ a0) index := by
  intro r k
  rw [h r k, get_set]
  split_ifs with hk
  · subst hk
    simp [ha, hkey]
  · rfl

/-- Index after the key of the record at `k` has changed from `old` to `new`. -/
def reindex (index : Store ρ κ) (k : κ) (old new : Option ρ) : Store ρ κ :=
  if new = old then index
  else new.elim (old.elim index index.delete) ((old.elim index index.delete).set · k)

lemma Indexes.reindex (h : Indexes key records index)
    (howner : ∀ k a r, key k a = some r → owner r = k) (k₀ : κ) (a0 : α) :
    Indexes key (records.set k₀ a0)
      (reindex index k₀ ((records.get k₀).bind (key k₀)) (key k₀ a0)) := by
  unfold Lib.reindex
  split_ifs with hsame
  · cases ha : records.get k₀ with
    | none =>
      rw [ha] at hsame
      exact (h.but (by simp [ha])).set hsame
    | some a =>
      rw [ha] at hsame
      exact h.rewrite ha hsame
  · have hbut : IndexesBut key k₀ records
        (((records.get k₀).bind (key k₀)).elim index index.delete) := by
      cases hold : (records.get k₀).bind (key k₀) with
      | none => exact h.but (fun a ha => by simpa [ha] using hold)
      | some r =>
        obtain ⟨a, ha, hr⟩ := Option.bind_eq_some_iff.mp hold
        refine h.but_delete howner (howner k₀ a r hr) (fun a' ha' => .inr ?_)
        rw [ha, Option.some.injEq] at ha'
        rw [← ha', hr]
    cases hnew : key k₀ a0 with
    | none => exact hbut.set hnew
    | some r => exact hbut.enter howner hnew

end Irishub.Lib
