import Irishub.KVStore.CacheKV
import Mathlib.Data.List.Induction
import Mathlib.Data.Set.List

/-!
# Key-value stores: views under a prefix

`store/prefixstore.go` and `PrefixEndBytes`. A `prefixStore` puts its prefix before
every key; its iterators are those of the parent from the prefix to its end, with
the prefix removed.

A prefix may be nil. An empty one that is not nil has no end: `PrefixEndBytes` reads
its last byte and panics, and so does an iterator without an end.

**Results**

* `prefix_views_exact`: the range of a prefix, and the operations and iterators of
  nested views.
-/

namespace Irishub.KV
open Lib List Bytes

section
variable {σ ν : Type}

/-- Loop of `PrefixEndBytes`, from the last byte to the first. -/
def incrementLast : Bytes → Option Bytes
  | [] => none
  | b :: rest => if b ≠ byte 255 then some (byte (b + 1) :: rest).reverse else incrementLast rest

/-- `PrefixEndBytes`. -/
def prefixEndBytes : Option Bytes → Outcome (Option Bytes)
  | none => .ok none
  | some [] => raise .indexOutOfRange
  | some pre => .ok (incrementLast pre.reverse)

/-- A store, or a `prefixStore` over a parent. -/
inductive View (ν : Type)
  | store (s : KVStore Bytes ν)
  | prefixStore (parent : View ν) (pre : Option Bytes)

/-- `prefixStore.key`. -/
def prefixKey (pre : Bytes) : Option Bytes → Outcome (Option Bytes)
  | none => raise .nilKeyOnPrefixStore
  | some key => .ok (some (pre ++ key))

/-- Operation of the parent. -/
def Op.onParent (pre : Bytes) : Op Bytes ν → Outcome (Op Bytes ν)
  | .get key => return .get (← prefixKey pre key)
  | .has key => return .has (← prefixKey pre key)
  | .set key value => return .set (← prefixKey pre key) value
  | .delete key => return .delete (← prefixKey pre key)

/-- `Get`, `Has`, `Set` and `Delete`. -/
def View.step : View ν → Op Bytes ν → Outcome (Answer ν × View ν)
  | .store s, op => do
    let (answer, s) ← s.step op
    return (answer, .store s)
  | .prefixStore parent pre, op => do
    let (answer, parent) ← parent.step (← op.onParent (pre.getD []))
    return (answer, .prefixStore parent pre)

def stripPrefix (key pre : Bytes) : Outcome Bytes :=
  if pre.isPrefixOf key then .ok (key.drop pre.length) else raise .shouldNotHappen

variable (P : Iterator σ Bytes ν) (pre : Bytes)

/-- `Valid() && HasPrefix(Key(), pre)`, of the parent. -/
def atPrefix : StateT σ Outcome Bool := do
  if ← P.valid then return pre.isPrefixOf (← P.key)
  else return false

/-- `prefixIterator`; its state are that of the parent and `valid`. -/
def prefixIterator : Iterator (σ × Bool) Bytes ν where
  valid s := if s.2 then onFst P.valid s else .ok (false, s)
  next s := if s.2 then do
      let (_, x) ← P.next s.1
      let (valid, x) ← atPrefix P pre x
      return ((), x, valid)
    else raise .prefixIteratorInvalid
  key s := if s.2 then do
      let (key, x) ← P.key s.1
      return (← stripPrefix key pre, x, s.2)
    else raise .prefixIteratorInvalid
  value s := if s.2 then onFst P.value s else raise .prefixIteratorInvalid

/-- `newPrefixIterator`. -/
def newPrefixIterator (iter : OpenIterator Bytes ν) : Except Fault (OpenIterator Bytes ν) :=
  match atPrefix iter.methods pre iter.state with
  | .error e => .error e
  | .ok (valid, x) => .ok ⟨_, prefixIterator iter.methods pre, x, valid⟩

/-- End that an iterator asks its parent for. -/
def parentEnd (pre stop : Option Bytes) : Outcome (Option Bytes) :=
  match stop with
  | none => prefixEndBytes pre
  | some stop => .ok (some (pre.getD [] ++ stop))

/-- `Iterator` and `ReverseIterator`. -/
def View.iterator (start stop : Option Bytes) (ascending : Bool) :
    View ν → Except Fault (OpenIterator Bytes ν)
  | .store s => .ok (s.iterator start stop ascending)
  | .prefixStore parent pre =>
    match parentEnd pre stop with
    | .error e => .error e
    | .ok newend =>
      match parent.iterator (some (pre.getD [] ++ start.getD [])) newend ascending with
      | .error e => .error e
      | .ok iter => newPrefixIterator (pre.getD []) iter

end

section
variable {p k a b e : Bytes} {pre start stop newend : Option Bytes}

lemma append_lt_append_left : p ++ a < p ++ b ↔ a < b := by
  rw [append_lt_append_iff rfl]
  simp

lemma append_le_append_left : p ++ a ≤ p ++ b ↔ a ≤ b := by
  rw [← not_lt, ← not_lt, append_lt_append_left]

lemma le_append_self (p a : Bytes) : p ≤ p ++ a := by
  have h : p ++ [] ≤ p ++ a := append_le_append_left.mpr (not_lt.mp (List.not_lt_nil a))
  rwa [append_nil] at h

lemma isPrefix_of_between (hle : p ≤ k) (hlt : k < p ++ e) : p <+: k := by
  induction p generalizing k with
  | nil => exact ⟨k, rfl⟩
  | cons x p ih =>
    cases k with
    | nil => exact absurd hle (not_le.mpr (nil_lt_cons x p))
    | cons y k =>
      rw [← not_lt, cons_lt_cons_iff, not_or, not_and] at hle
      rw [cons_append, cons_lt_cons_iff] at hlt
      obtain hyx | ⟨rfl, hlt⟩ := hlt
      · exact absurd hyx hle.1
      · exact (prefix_cons_inj _).mpr (ih (not_lt.mp (hle.2 rfl)) hlt)

/-- Keys from a prefix to its end are the keys with the prefix. -/
lemma incrementLast_iff (p k : Bytes) :
    (p ≤ k ∧ ∀ e, incrementLast p.reverse = some e → k < e) ↔ p <+: k := by
  induction p using List.reverseRecOn with
  | nil => simpa [incrementLast] using le_append_self [] k
  | append_singleton q b ih =>
    have hend : incrementLast (q ++ [b]).reverse =
        if b ≠ byte 255 then some (q ++ [byte (b + 1)]) else incrementLast q.reverse := by
      simp [incrementLast]
    have hnext : b ≠ byte 255 → ∀ c : Byte, c < byte (b + 1) ↔ c ≤ b := by
      intro hb c
      have hval : (b : ℕ) ≠ 255 := fun h => hb (Fin.ext h)
      simp only [Fin.lt_def, Fin.le_def, byte, Fin.val_ofNat]
      omega
    constructor
    · rintro ⟨hle, hlt⟩
      have hq : q <+: k := by
        rw [hend] at hlt
        split_ifs at hlt with hb
        · exact isPrefix_of_between ((le_append_self q [b]).trans hle) (hlt _ rfl)
        · exact ih.mp ⟨(le_append_self q [b]).trans hle, hlt⟩
      obtain ⟨t, rfl⟩ := hq
      rw [append_le_append_left] at hle
      cases t with
      | nil => exact absurd hle (not_le.mpr (nil_lt_cons b []))
      | cons c t =>
        have hbc : b ≤ c := by
          rw [← not_lt, cons_lt_cons_iff, not_or] at hle
          exact not_lt.mp hle.1
        have hcb : c ≤ b := by
          by_cases hb : b = byte 255
          · rw [hb, Fin.le_def]
            exact Nat.le_of_lt_succ c.isLt
          · have hc := hlt _ (by rw [hend, if_pos hb])
            rw [append_lt_append_left, cons_lt_cons_iff] at hc
            exact (hnext hb c).mp (hc.resolve_right (fun h => List.not_lt_nil t h.2))
        rw [le_antisymm hbc hcb]
        exact ⟨t, by simp⟩
    · rintro ⟨t, rfl⟩
      refine ⟨le_append_self _ t, fun e he => ?_⟩
      rw [hend] at he
      split_ifs at he with hb
      · cases he
        rw [append_assoc]
        exact append_lt_append_left.mpr (cons_lt_cons_iff.mpr (.inl ((hnext hb b).mpr le_rfl)))
      · exact (ih.mpr ⟨[b] ++ t, by simp⟩).2 e he

lemma isKeyInDomain_iff : isKeyInDomain k start stop = true ↔
    (∀ a, start = some a → a ≤ k) ∧ ∀ e, stop = some e → k < e := by
  cases start <;> cases stop <;>
    simp [isKeyInDomain, compare_lt_iff_lt, compare_gt_iff_gt]

/-- The end of a prefix is nil for a nil prefix, and is not defined for an empty one. -/
lemma prefixEndBytes_ok (hpre : pre ≠ some []) :
    prefixEndBytes pre = .ok (incrementLast (pre.getD []).reverse) := by
  match pre, hpre with
  | none, _ => rfl
  | some (b :: pre), _ => rfl

lemma parentEnd_ok (hpre : pre ≠ some []) (stop : Option Bytes) :
    ∃ newend, parentEnd pre stop = .ok newend := by
  cases stop with
  | none => exact ⟨_, prefixEndBytes_ok hpre⟩
  | some stop => exact ⟨_, rfl⟩

lemma isKeyInDomain_prefixed (hpre : pre ≠ some []) (hend : parentEnd pre stop = .ok newend) :
    isKeyInDomain k (some (pre.getD [] ++ start.getD [])) newend = true ↔
      ∃ t, k = pre.getD [] ++ t ∧ isKeyInDomain t start stop = true := by
  simp only [isKeyInDomain_iff, Option.some.injEq, forall_eq']
  constructor
  · rintro ⟨hle, hlt⟩
    have hp : pre.getD [] <+: k := by
      cases stop with
      | none =>
        cases (prefixEndBytes_ok hpre).symm.trans hend
        exact (incrementLast_iff _ k).mp ⟨(le_append_self _ _).trans hle, hlt⟩
      | some e =>
        cases hend
        exact isPrefix_of_between ((le_append_self _ _).trans hle) (hlt _ rfl)
    obtain ⟨t, rfl⟩ := hp
    refine ⟨t, rfl, ?_, ?_⟩
    · rintro a rfl
      exact append_le_append_left.mp hle
    · rintro e rfl
      cases hend
      exact append_lt_append_left.mp (hlt _ rfl)
  · rintro ⟨t, rfl, hstart, hstop⟩
    refine ⟨append_le_append_left.mpr ?_, ?_⟩
    · cases start with
      | none => exact not_lt.mp (List.not_lt_nil t)
      | some a => exact hstart a rfl
    · cases stop with
      | none =>
        cases (prefixEndBytes_ok hpre).symm.trans hend
        exact ((incrementLast_iff _ _).mpr ⟨t, rfl⟩).2
      | some e =>
        cases hend
        rintro _ ⟨⟩
        exact append_lt_append_left.mpr (hstop e rfl)

lemma compareKeys_congr {κ : Type} [LinearOrder κ] {a b c d : κ} (hlt : a < b ↔ c < d)
    (hgt : b < a ↔ d < c) (ascending : Bool) :
    compareKeys ascending a b = compareKeys ascending c d := by
  have hcompare : compare a b = compare c d := by
    rcases lt_trichotomy c d with h | h | h
    · rw [compare_lt_iff_lt.mpr h, compare_lt_iff_lt.mpr (hlt.mpr h)]
    · rw [compare_eq_iff_eq.mpr h, compare_eq_iff_eq]
      exact le_antisymm (not_lt.mp (fun hba => (hgt.mp hba).ne' h))
        (not_lt.mp (fun hab => (hlt.mp hab).ne h))
    · rw [compare_gt_iff_gt.mpr h, compare_gt_iff_gt.mpr (hgt.mpr h)]
  rw [compareKeys, compareKeys, hcompare]

end

section
variable {σ ν : Type} {P : Iterator σ Bytes ν} {R : σ → List (Bytes × ν) → Prop} {pre : Bytes}

/-- Entry of the parent. -/
def underPrefix (pre : Bytes) (e : Bytes × ν) : Bytes × ν := (pre ++ e.1, e.2)

/-- The parent's iterator has the entries with their prefix. -/
def Stripped (R : σ → List (Bytes × ν) → Prop) (pre : Bytes) (s : σ × Bool)
    (l : List (Bytes × ν)) : Prop := R s.1 (l.map (underPrefix pre)) ∧ s.2 = !l.isEmpty

lemma atPrefix_finishes (hP : P.Simulates R) {x : σ} {l : List (Bytes × ν)}
    (hR : R x (l.map (underPrefix pre))) : Finishes (atPrefix P pre) x
      (fun valid x => R x (l.map (underPrefix pre)) ∧ valid = !l.isEmpty) := by
  refine (hP.valid x _ hR).bind (fun valid x h => ?_)
  obtain ⟨rfl, hR⟩ := h
  cases l with
  | nil => exact .pure ⟨hR, rfl⟩
  | cons e l =>
    refine (hP.key x _ _ hR).bind (fun key x h => ?_)
    obtain ⟨rfl, hR⟩ := h
    exact .pure ⟨hR, by simp [underPrefix]⟩

lemma prefixIterator_simulates (hP : P.Simulates R) :
    (prefixIterator P pre).Simulates (Stripped R pre) where
  valid := by
    rintro ⟨x, valid⟩ l ⟨hR, hvalid⟩
    cases l with
    | nil =>
      cases hvalid
      exact ⟨_, _, rfl, rfl, hR, rfl⟩
    | cons e l =>
      cases hvalid
      exact (hP.valid x _ hR).onFst.imp (fun _ _ h => ⟨h.1.1, h.1.2, h.2⟩)
  next := by
    rintro ⟨x, valid⟩ e l ⟨hR, hvalid⟩
    cases hvalid
    obtain ⟨_, x1, hnext, hR1⟩ := hP.next x _ _ hR
    obtain ⟨valid, x2, hat, hR2, hvalid⟩ := atPrefix_finishes hP hR1
    refine ⟨(), (x2, valid), ?_, hR2, hvalid⟩
    change (P.next x >>= _) = _
    rw [hnext, ok_bind]
    dsimp only
    rw [hat]
    rfl
  key := by
    rintro ⟨x, valid⟩ e l ⟨hR, hvalid⟩
    cases hvalid
    obtain ⟨_, x1, hkey, rfl, hR1⟩ := hP.key x _ _ hR
    refine ⟨e.1, (x1, true), ?_, rfl, hR1, rfl⟩
    change (P.key x >>= _) = _
    rw [hkey, ok_bind]
    simp [stripPrefix, underPrefix]
  value := by
    rintro ⟨x, valid⟩ e l ⟨hR, hvalid⟩
    cases hvalid
    exact (hP.value x _ _ hR).onFst.imp (fun _ _ h => ⟨h.1.1, h.1.2, h.2⟩)

end

namespace View
variable {ν : Type}

/-- Store beneath all prefixes. -/
def base : View ν → KVStore Bytes ν
  | store s => s
  | prefixStore parent _ => parent.base

/-- The prefixes, one behind the other. -/
def full : View ν → Bytes
  | store _ => []
  | prefixStore parent pre => parent.full ++ pre.getD []

def withBase (s : KVStore Bytes ν) : View ν → View ν
  | store _ => store s
  | prefixStore parent pre => prefixStore (parent.withBase s) pre

/-- No prefix is empty without being nil. -/
def HasEnds : View ν → Prop
  | store _ => True
  | prefixStore parent pre => parent.HasEnds ∧ pre ≠ some []

/-- Entries under the prefixes. -/
def map (v : View ν) (k : Bytes) : Option ν := v.base.view (v.full ++ k)

lemma step_of_base {f : Bytes → Op Bytes ν} {answer : Answer ν} {s : KVStore Bytes ν}
    (hf : ∀ pre k, (f k).onParent pre = .ok (f (pre ++ k))) (v : View ν) (k : Bytes)
    (h : v.base.step (f (v.full ++ k)) = .ok (answer, s)) :
    v.step (f k) = .ok (answer, v.withBase s) := by
  induction v generalizing k with
  | store s' =>
    rw [View.step, show s'.step (f k) = .ok (answer, s) from h]
    rfl
  | prefixStore parent pre ih =>
    rw [View.step, hf, ok_bind, ih (pre.getD [] ++ k) (by rwa [← append_assoc])]
    rfl

lemma iterator_lists (v : View ν) (hends : v.HasEnds) (start stop : Option Bytes)
    (ascending : Bool) :
    ∃ iter R l, v.iterator start stop ascending = .ok iter ∧ iter.methods.Simulates R ∧
      R iter.state l ∧
      Lists (compareKeys ascending) l (restrict (isKeyInDomain · start stop) v.map) := by
  induction v generalizing start stop with
  | store s =>
    obtain ⟨R, l, hsimulates, hR, hlists⟩ := s.iterator_lists start stop ascending
    exact ⟨_, R, l, rfl, hsimulates, hR, hlists⟩
  | prefixStore parent pre ih =>
    obtain ⟨hparent, hpre⟩ := hends
    obtain ⟨newend, hend⟩ := parentEnd_ok hpre stop
    obtain ⟨iter, R, l', hiter, hsimulates, hR, hordered, hmem⟩ :=
      ih hparent (some (pre.getD [] ++ start.getD [])) newend
    simp only [restrict_eq_some, isKeyInDomain_prefixed hpre hend] at hmem
    obtain ⟨l, rfl⟩ : l' ∈ Set.range (List.map (underPrefix (pre.getD []))) := by
      rw [Set.range_list_map]
      intro e he
      obtain ⟨⟨t, ht, _⟩, _⟩ := (hmem e.1 e.2).mp he
      exact ⟨(t, e.2), by rw [underPrefix, ← ht]⟩
    obtain ⟨valid, x, hat, hstripped⟩ := atPrefix_finishes hsimulates hR
    refine ⟨⟨_, prefixIterator iter.methods (pre.getD []), x, valid⟩, Stripped R (pre.getD []), l,
      ?_, prefixIterator_simulates hsimulates, hstripped, ?_, fun k a => ?_⟩
    · rw [iterator, hend]
      dsimp only
      rw [hiter]
      dsimp only [newPrefixIterator]
      rw [hat]
    · refine (pairwise_map.mp hordered).imp (fun {a b} h => ?_)
      exact (compareKeys_congr append_lt_append_left append_lt_append_left ascending).symm.trans h
    · have hinj : Function.Injective (underPrefix (ν := ν) (pre.getD [])) := by
        intro e e' h
        simpa [underPrefix, Prod.ext_iff] using h
      rw [← mem_map_of_injective hinj, underPrefix, hmem, restrict_eq_some]
      simp [map, base, full]

/-- What a view provides: its operations are those of the store beneath on the keys with the
prefixes, and its iterators read the entries under the prefixes in order. -/
structure Exact (v : View ν) : Prop where
  get : ∀ k, ∃ s, v.step (.get (some k)) = .ok (.value (v.map k), v.withBase s) ∧
    s.view = v.base.view
  has : ∀ k, ∃ s, v.step (.has (some k)) = .ok (.present (v.map k).isSome, v.withBase s) ∧
    s.view = v.base.view
  set : ∀ k x, ∃ s, v.step (.set (some k) (some x)) = .ok (.done, v.withBase s) ∧
    s.view = Function.update v.base.view (v.full ++ k) (some x)
  delete : ∀ k, ∃ s, v.step (.delete (some k)) = .ok (.done, v.withBase s) ∧
    s.view = Function.update v.base.view (v.full ++ k) none
  iterators : ∀ start stop ascending, ∃ iter l, v.iterator start stop ascending = .ok iter ∧
    Lists (compareKeys ascending) l (restrict (isKeyInDomain · start stop) v.map) ∧
    ∀ n, l.length ≤ n → Finishes (collect iter.methods n) iter.state
      (fun r _ => r = (l.map (fun e => (e.1, some e.2)), true))

/-- A prefix that is not empty and its end bound the keys with the prefix, and a view under such
prefixes reads and writes these keys only. -/
theorem prefix_views_exact (v : View ν) (hbase : Reachable v.base) (hends : v.HasEnds) :
    (∀ p k : Bytes, p ≠ [] → ∃ stop, prefixEndBytes (some p) = .ok stop ∧
      ((p ≤ k ∧ ∀ e, stop = some e → k < e) ↔ p <+: k)) ∧ v.Exact := by
  have hcoherent := hbase.coherent
  refine ⟨fun p k hp => ⟨_, prefixEndBytes_ok (by simpa using hp), incrementLast_iff p k⟩,
    fun k => ?_, fun k => ?_, fun k x => ?_, fun k => ?_, fun start stop ascending => ?_⟩
  · obtain ⟨hvalue, _, hview, _⟩ := KVStore.get_spec hcoherent (v.full ++ k)
    refine ⟨_, step_of_base (f := fun k => .get (some k)) (fun _ _ => rfl) v k ?_, hview⟩
    rw [map, ← hvalue]
    rfl
  · obtain ⟨hvalue, _, hview, _⟩ := KVStore.get_spec hcoherent (v.full ++ k)
    refine ⟨_, step_of_base (f := fun k => .has (some k)) (fun _ _ => rfl) v k ?_, hview⟩
    rw [map, ← hvalue]
    rfl
  · refine ⟨_, step_of_base (f := fun k => .set (some k) (some x)) (fun _ _ => rfl) v k rfl, ?_⟩
    convert (KVStore.set_spec hcoherent (v.full ++ k) x).2.1
  · refine ⟨_, step_of_base (f := fun k => .delete (some k)) (fun _ _ => rfl) v k rfl, ?_⟩
    convert (KVStore.delete_spec hcoherent (v.full ++ k)).2.1
  · obtain ⟨iter, R, l, hiter, hsimulates, hR, hlists⟩ := v.iterator_lists hends start stop
      ascending
    exact ⟨iter, l, hiter, hlists, fun n hn => hsimulates.collect hR hn⟩

/-- Two prefixes over a cache. -/
theorem prefix_views_exact_nested :
    Exact (prefixStore (prefixStore
      (store (KVStore.base Store.empty : KVStore Bytes Bytes).newCacheKVStore)
      (some [byte 255])) (some [byte 1, byte 255])) :=
  And.right (prefix_views_exact _ (.wrap (.base _)) ⟨⟨trivial, by simp⟩, by simp⟩)

end View
end Irishub.KV
