import Mathlib.Order.Compare

/-!
# Overlays and their listings

Writes over a map: `overlay w m` is the map `m` with the writes `w` on top, where a
write of `none` is a deletion. `Lists cmp l m` says that the list `l` holds the
entries of `m`, each once and in the order of `cmp`.

`merge` walks two such lists side by side, one of a map and one of the writes, and
drops the deletions. It lists the overlay (`Lists.merge`).
-/

namespace Irishub.Lib
open List

universe u v

variable {κ : Type u} {ν α : Type v}

/-- Writes `w` over the map `m`. -/
def overlay (w : κ → Option (Option ν)) (m : κ → Option ν) (k : κ) : Option ν := (w k).getD (m k)

/-- Part of a map whose keys satisfy `D`. -/
def restrict (D : κ → Bool) (m : κ → Option α) (k : κ) : Option α := if D k then m k else none

lemma restrict_eq_some {D : κ → Bool} {m : κ → Option α} {k : κ} {a : α} :
    restrict D m k = some a ↔ D k = true ∧ m k = some a := by
  unfold restrict
  split_ifs with h <;> simp [h]

lemma overlay_restrict (D : κ → Bool) (w : κ → Option (Option ν)) (m : κ → Option ν) :
    overlay (restrict D w) (restrict D m) = restrict D (overlay w m) := by
  funext k
  unfold overlay restrict
  split_ifs <;> rfl

section
variable (cmp : κ → κ → Ordering)

/-- Keys stand in the order of `cmp`, each once. -/
def Ordered (l : List (κ × α)) : Prop := l.Pairwise (fun a b => cmp a.1 b.1 = .lt)

/-- List holds the entries of the map, in the order of `cmp` and each once. -/
structure Lists (l : List (κ × α)) (m : κ → Option α) : Prop where
  ordered : Ordered cmp l
  mem_iff : ∀ k a, (k, a) ∈ l ↔ m k = some a

def live (e : κ × Option ν) : Option (κ × ν) := e.2.map (e.1, ·)

/-- Walk along the entries of a map and along writes. -/
def merge : List (κ × ν) → List (κ × Option ν) → List (κ × ν)
  | [], c => c.filterMap live
  | eP :: p, [] => eP :: p
  | eP :: p, eC :: c =>
    match cmp eP.1 eC.1 with
    | .lt => eP :: merge p (eC :: c)
    | .eq => (live eC).toList ++ merge p c
    | .gt => (live eC).toList ++ merge (eP :: p) c
  termination_by p c => p.length + c.length

end

section
variable {cmp : κ → κ → Ordering} {p : List (κ × ν)} {c : List (κ × Option ν)} {eP : κ × ν}
  {eC : κ × Option ν} {k : κ} {o : Option ν}

@[simp] lemma merge_nil_left : merge cmp [] c = c.filterMap live := by rw [merge]

@[simp] lemma merge_nil_right : merge cmp p ([] : List (κ × Option ν)) = p := by
  cases p <;> simp [merge]

lemma merge_of_lt (h : cmp eP.1 k = .lt) :
    merge cmp (eP :: p) ((k, o) :: c) = eP :: merge cmp p ((k, o) :: c) := by rw [merge, h]

lemma merge_of_eq (h : cmp eP.1 k = .eq) :
    merge cmp (eP :: p) ((k, o) :: c) = (live (k, o)).toList ++ merge cmp p c := by rw [merge, h]

lemma merge_of_gt (h : cmp eP.1 k = .gt) :
    merge cmp (eP :: p) ((k, o) :: c) = (live (k, o)).toList ++ merge cmp (eP :: p) c := by
  rw [merge, h]

lemma mem_live_toList {e : κ × ν} : e ∈ (live eC).toList ↔ (e.1, some e.2) = eC := by
  obtain ⟨k, v⟩ := e
  obtain ⟨kC, o⟩ := eC
  cases o <;> simp [live, eq_comm]

lemma mem_filterMap_live {e : κ × ν} : e ∈ c.filterMap live ↔ (e.1, some e.2) ∈ c := by
  induction c with
  | nil => simp
  | cons eC c ih =>
    rw [mem_cons, ← ih, ← mem_live_toList]
    cases h : live eC with
    | none | some e' => simp [h]

lemma Ordered.tail {l : List (κ × α)} {e : κ × α} (h : Ordered cmp (e :: l)) : Ordered cmp l :=
  (pairwise_cons.mp h).2

lemma not_lt_self [Std.ReflCmp cmp] (k : κ) : cmp k k ≠ .lt := by
  have hself : cmp k k = .eq := Std.ReflCmp.compare_self
  rw [hself]
  exact Ordering.noConfusion

lemma ordered_live_append {l : List (κ × ν)} {eC : κ × Option ν} (hl : Ordered cmp l)
    (hlt : ∀ e ∈ l, cmp eC.1 e.1 = .lt) : Ordered cmp ((live eC).toList ++ l) := by
  obtain ⟨kC, o⟩ := eC
  cases o with
  | none => exact hl
  | some v => exact pairwise_cons.mpr ⟨hlt, hl⟩

end

section
variable {cmp : κ → κ → Ordering} [Std.TransCmp cmp] [Std.LawfulEqCmp cmp] {p : List (κ × ν)}
  {c : List (κ × Option ν)}

lemma Ordered.not_mem {l : List (κ × α)} {e : κ × α} {k : κ} (h : Ordered cmp (e :: l))
    (hk : cmp k e.1 = .lt) (a : α) : (k, a) ∉ e :: l := by
  intro hmem
  rcases mem_cons.mp hmem with rfl | hmem
  · exact not_lt_self _ hk
  · exact not_lt_self k (Std.TransCmp.lt_trans hk (rel_of_pairwise_cons h hmem))

lemma mem_merge {e : κ × ν} (hp : Ordered cmp p) (hc : Ordered cmp c) :
    e ∈ merge cmp p c ↔ (e.1, some e.2) ∈ c ∨ e ∈ p ∧ ∀ o, (e.1, o) ∉ c := by
  fun_induction merge cmp p c with
  | case1 c =>
    rw [mem_filterMap_live]
    simp
  | case2 eP p => simp
  | case3 eP p eC c hlt ih =>
    have hnot : ∀ o, (eP.1, o) ∉ eC :: c := hc.not_mem hlt
    rw [mem_cons, ih hp.tail hc]
    constructor
    · rintro (rfl | hwritten | ⟨hmem, hkept⟩)
      · exact .inr ⟨mem_cons_self, hnot⟩
      · exact .inl hwritten
      · exact .inr ⟨mem_cons_of_mem _ hmem, hkept⟩
    · rintro (hwritten | ⟨hmem, hkept⟩)
      · exact .inr (.inl hwritten)
      · rcases mem_cons.mp hmem with rfl | hmem
        · exact .inl rfl
        · exact .inr (.inr ⟨hmem, hkept⟩)
  | case4 eP p eC c heq ih =>
    have hkey : eP.1 = eC.1 := Std.LawfulEqCmp.eq_of_compare heq
    have hlater : ∀ e ∈ p, e.1 ≠ eC.1 := by
      intro e he h
      have hbefore : cmp eP.1 e.1 = .lt := rel_of_pairwise_cons hp he
      rw [hkey, ← h] at hbefore
      exact not_lt_self _ hbefore
    rw [mem_append, mem_live_toList, ih hp.tail hc.tail]
    constructor
    · rintro (rfl | hwritten | ⟨hmem, hkept⟩)
      · exact .inl mem_cons_self
      · exact .inl (mem_cons_of_mem _ hwritten)
      · refine .inr ⟨mem_cons_of_mem _ hmem, fun o ho => ?_⟩
        rcases mem_cons.mp ho with rfl | ho
        · exact hlater e hmem rfl
        · exact hkept o ho
    · rintro (hwritten | ⟨hmem, hkept⟩)
      · rcases mem_cons.mp hwritten with hhead | hwritten
        · exact .inl hhead
        · exact .inr (.inl hwritten)
      · rcases mem_cons.mp hmem with rfl | hmem
        · exact absurd (by rw [hkey]; exact mem_cons_self) (hkept eC.2)
        · exact .inr (.inr ⟨hmem, fun o ho => hkept o (mem_cons_of_mem _ ho)⟩)
  | case5 eP p eC c hgt ih =>
    have hlt : cmp eC.1 eP.1 = .lt := Std.OrientedCmp.lt_of_gt hgt
    rw [mem_append, mem_live_toList, ih hp hc.tail]
    constructor
    · rintro (rfl | hwritten | ⟨hmem, hkept⟩)
      · exact .inl mem_cons_self
      · exact .inl (mem_cons_of_mem _ hwritten)
      · refine .inr ⟨hmem, fun o ho => ?_⟩
        rcases mem_cons.mp ho with rfl | ho
        · exact hp.not_mem hlt _ hmem
        · exact hkept o ho
    · rintro (hwritten | ⟨hmem, hkept⟩)
      · rcases mem_cons.mp hwritten with hhead | hwritten
        · exact .inl hhead
        · exact .inr (.inl hwritten)
      · exact .inr (.inr ⟨hmem, fun o ho => hkept o (mem_cons_of_mem _ ho)⟩)

lemma key_of_mem_merge {e : κ × ν} (hp : Ordered cmp p) (hc : Ordered cmp c)
    (h : e ∈ merge cmp p c) : (∃ o, (e.1, o) ∈ c) ∨ e ∈ p := by
  rcases (mem_merge hp hc).mp h with hwritten | ⟨hmem, -⟩
  · exact .inl ⟨_, hwritten⟩
  · exact .inr hmem

lemma Ordered.merge (hp : Ordered cmp p) (hc : Ordered cmp c) : Ordered cmp (merge cmp p c) := by
  fun_induction Lib.merge cmp p c with
  | case1 c =>
    refine List.Pairwise.filterMap _ (fun e e' hlt a ha a' ha' => ?_) hc
    obtain ⟨v, -, rfl⟩ := Option.map_eq_some_iff.mp ha
    obtain ⟨v', -, rfl⟩ := Option.map_eq_some_iff.mp ha'
    exact hlt
  | case2 eP p => exact hp
  | case3 eP p eC c hlt ih =>
    refine pairwise_cons.mpr ⟨fun e he => ?_, ih hp.tail hc⟩
    rcases key_of_mem_merge hp.tail hc he with ⟨o, ho⟩ | hmem
    · rcases mem_cons.mp ho with rfl | ho
      · exact hlt
      · exact Std.TransCmp.lt_trans hlt (rel_of_pairwise_cons hc ho)
    · exact rel_of_pairwise_cons hp hmem
  | case4 eP p eC c heq ih =>
    refine ordered_live_append (ih hp.tail hc.tail) (fun e he => ?_)
    rcases key_of_mem_merge hp.tail hc.tail he with ⟨o, ho⟩ | hmem
    · exact rel_of_pairwise_cons hc ho
    · rw [← Std.LawfulEqCmp.eq_of_compare heq]
      exact rel_of_pairwise_cons hp hmem
  | case5 eP p eC c hgt ih =>
    have hlt : cmp eC.1 eP.1 = .lt := Std.OrientedCmp.lt_of_gt hgt
    refine ordered_live_append (ih hp hc.tail) (fun e he => ?_)
    rcases key_of_mem_merge hp hc.tail he with ⟨o, ho⟩ | hmem
    · exact rel_of_pairwise_cons hc ho
    · rcases mem_cons.mp hmem with rfl | hmem
      · exact hlt
      · exact Std.TransCmp.lt_trans hlt (rel_of_pairwise_cons hp hmem)

lemma Lists.merge {m : κ → Option ν} {w : κ → Option (Option ν)} (hp : Lists cmp p m)
    (hc : Lists cmp c w) : Lists cmp (merge cmp p c) (overlay w m) where
  ordered := hp.ordered.merge hc.ordered
  mem_iff k v := by
    rw [mem_merge hp.ordered hc.ordered, hp.mem_iff, hc.mem_iff]
    simp only [hc.mem_iff, overlay]
    cases hw : w k with
    | none | some o => simp

end
end Irishub.Lib
