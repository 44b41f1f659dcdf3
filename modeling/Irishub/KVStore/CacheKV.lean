import Irishub.KVStore.Iterator
import Irishub.Lib.Bytes
import Irishub.Lib.Store
import Mathlib.Order.Fin.Basic

/-!
# Key-value stores: the cache

`store/cachekvstore.go`. A `cacheKVStore` keeps in a map what was written to it, and
what was read from its parent, and passes the writes on when `Write` is called. Its
parent is any store, possibly a cache itself.

What a store holds is a map (`view`): that of a cache is the overlay of its dirty
items on the map of the parent. A clean item repeats the parent (`Coherent`), which
makes reads right. The theorems compare every sequence of operations with the same
operations on the map.
-/

namespace Irishub.KV
open Lib Store List

section

structure CValue (ν : Type) where
  value : Option ν
  deleted : Bool
  dirty : Bool
  deriving DecidableEq

/-- A store that holds its entries, or a `cacheKVStore` over a parent. -/
inductive KVStore (κ ν : Type) [LinearOrder κ]
  | base (entries : Store κ ν)
  | cache (items : Store κ (CValue ν)) (parent : KVStore κ ν)

variable {κ ν : Type} [LinearOrder κ]

def assertValidKey : Option κ → Outcome κ
  | none => raise .keyIsNil
  | some key => .ok key

def assertValidValue : Option ν → Outcome ν
  | none => raise .valueIsNil
  | some value => .ok value

def setCacheValue (items : Store κ (CValue ν)) (key : κ) (value : Option ν) (deleted dirty : Bool) :
    Store κ (CValue ν) :=
  items.set key ⟨value, deleted, dirty⟩

namespace KVStore

def newCacheKVStore (parent : KVStore κ ν) : KVStore κ ν := cache Store.empty parent

/-- `Get` of a valid key. -/
def get (key : κ) : KVStore κ ν → Option ν × KVStore κ ν
  | base entries => (entries.get key, base entries)
  | cache items parent =>
    match items.get key with
    | some cacheValue => (cacheValue.value, cache items parent)
    | none =>
      let (value, parent) := parent.get key
      (value, cache (setCacheValue items key value false false) parent)

/-- `Set` of a valid key and value. -/
def set (key : κ) (value : ν) : KVStore κ ν → KVStore κ ν
  | base entries => base (entries.set key value)
  | cache items parent => cache (setCacheValue items key (some value) false true) parent

/-- `Delete` of a valid key. -/
def delete (key : κ) : KVStore κ ν → KVStore κ ν
  | base entries => base (entries.delete key)
  | cache items parent => cache (setCacheValue items key none true true) parent

/-- Body of the loop of `Write`. -/
def writeItem (parent : KVStore κ ν) (item : κ × CValue ν) : KVStore κ ν :=
  if item.2.deleted then parent.delete item.1
  else
    match item.2.value with
    | none => parent
    | some value => parent.set item.1 value

/-- `Write`, of a `cacheKVStore`; the dirty keys are sorted. -/
def write : KVStore κ ν → KVStore κ ν
  | base entries => base entries
  | cache items parent =>
    cache Store.empty ((items.entries.filter (fun item => item.2.dirty)).foldl writeItem parent)

end KVStore

/-- `IsKeyInDomain`; a nil start is before and a nil end is after every key. -/
def isKeyInDomain (key : κ) (start stop : Option κ) : Bool :=
  !start.any (fun start => compare key start = .lt) &&
    !stop.any (fun stop => compare stop key ≠ .gt)

def newMemIterator (start stop : Option κ) (items : List (κ × Option ν)) : List (κ × Option ν) :=
  items.filter (fun item => isKeyInDomain item.1 start stop)

def directed {α : Type} (ascending : Bool) (entries : List α) : List α :=
  if ascending then entries else entries.reverse

def dirtyItems (items : Store κ (CValue ν)) (start stop : Option κ) (ascending : Bool) :
    List (κ × Option ν) :=
  directed ascending ((items.entries.filter
    (fun item => item.2.dirty && isKeyInDomain item.1 start stop)).map
      (fun item => (item.1, item.2.value)))

/-- An iterator object, of which the methods and the state are known. -/
structure OpenIterator (κ ν : Type) where
  σ : Type
  methods : Iterator σ κ ν
  state : σ

/-- `Iterator` and `ReverseIterator`. -/
def KVStore.iterator (start stop : Option κ) (ascending : Bool) : KVStore κ ν → OpenIterator κ ν
  | .base entries =>
    ⟨_, memIterator, directed ascending ((entries.entries.filter
      (fun e => isKeyInDomain e.1 start stop)).map (fun e => (e.1, some e.2)))⟩
  | .cache items parent =>
    let iter := parent.iterator start stop ascending
    ⟨_, cacheMergeIterator iter.methods ascending,
      iter.state, newMemIterator start stop (dirtyItems items start stop ascending)⟩

end

section
variable {κ ν : Type} [LinearOrder κ]

def writes (items : Store κ (CValue ν)) (k : κ) : Option (Option ν) :=
  (items.get k).bind (fun item => if item.dirty then some item.value else none)

namespace KVStore
variable {s parent : KVStore κ ν} {items : Store κ (CValue ν)}

def view : KVStore κ ν → κ → Option ν
  | base entries => entries.get
  | cache items parent => overlay (writes items) parent.view

def beneath : KVStore κ ν → List (κ → Option ν)
  | base _ => []
  | cache _ parent => parent.view :: parent.beneath

def Coherent : KVStore κ ν → Prop
  | base _ => True
  | cache items parent => parent.Coherent ∧ ∀ k item, items.get k = some item →
      if item.dirty then (item.deleted = true ↔ item.value = none)
      else item.value = parent.view k

lemma coherent_newCacheKVStore (h : s.Coherent) :
    s.newCacheKVStore.Coherent := ⟨h, fun k item hitem => by simp at hitem⟩

lemma view_newCacheKVStore (s : KVStore κ ν) : s.newCacheKVStore.view = s.view := by
  funext k
  simp [newCacheKVStore, view, overlay, writes]

lemma get_spec (h : s.Coherent) (k : κ) :
    (s.get k).1 = s.view k ∧ (s.get k).2.Coherent ∧ (s.get k).2.view = s.view ∧
      (s.get k).2.beneath = s.beneath := by
  induction s with
  | base entries => exact ⟨rfl, trivial, rfl, rfl⟩
  | cache items parent ih =>
    obtain ⟨hparent, hitems⟩ := h
    cases hk : items.get k with
    | some item =>
      have hget : (cache items parent).get k = (item.value, cache items parent) := by
        simp only [get, hk]
      rw [hget]
      refine ⟨?_, ⟨hparent, hitems⟩, rfl, rfl⟩
      have hitem := hitems k item hk
      simp only [view, overlay, writes, hk, Option.bind_some]
      split_ifs at hitem ⊢ with hdirty
      · rfl
      · exact hitem
    | none =>
      obtain ⟨hvalue, hcoherent, hview, hbelow⟩ := ih hparent
      have hwrites :
          writes (setCacheValue items k (parent.get k).1 false false) = writes items := by
        funext k'
        unfold writes setCacheValue
        rw [get_set]
        split_ifs with hk'
        · rw [hk', hk]
          rfl
        · rfl
      simp only [get, hk]
      refine ⟨?_, ⟨hcoherent, ?_⟩, ?_, ?_⟩
      · simp only [view, overlay, writes, hk, hvalue]
        rfl
      · refine forall_set (fun k' item hitem => ?_) ?_
        · rw [hview]
          exact hitems k' item hitem
        · rw [hview]
          exact hvalue
      · simp only [view, hwrites, hview]
      · simp only [beneath, hview, hbelow]

lemma setCacheValue_spec (k : κ)
    (value : Option ν) (deleted : Bool) (hdeleted : deleted = true ↔ value = none)
    (h : (cache items parent).Coherent) :
    (cache (setCacheValue items k value deleted true) parent).Coherent ∧
      (cache (setCacheValue items k value deleted true) parent).view =
        Function.update (cache items parent).view k value := by
  refine ⟨⟨h.1, forall_set h.2 hdeleted⟩, ?_⟩
  funext k'
  simp only [view, overlay, writes, setCacheValue, get_set, Function.update_apply]
  split_ifs <;> rfl

lemma set_spec (h : s.Coherent) (k : κ) (v : ν) :
    (s.set k v).Coherent ∧ (s.set k v).view = Function.update s.view k (some v) ∧
      (s.set k v).beneath = s.beneath := by
  cases s with
  | base entries =>
    refine ⟨trivial, ?_, rfl⟩
    funext k'
    simp only [set, view, get_set, Function.update_apply]
  | cache items parent =>
    obtain ⟨hcoherent, hview⟩ := setCacheValue_spec k (some v) false (by simp) h
    exact ⟨hcoherent, hview, rfl⟩

lemma delete_spec (h : s.Coherent) (k : κ) :
    (s.delete k).Coherent ∧ (s.delete k).view = Function.update s.view k none ∧
      (s.delete k).beneath = s.beneath := by
  cases s with
  | base entries =>
    refine ⟨trivial, ?_, rfl⟩
    funext k'
    simp only [delete, view, get_delete, Function.update_apply]
  | cache items parent =>
    obtain ⟨hcoherent, hview⟩ := setCacheValue_spec k none true (by simp) h
    exact ⟨hcoherent, hview, rfl⟩

lemma writeItem_spec (h : s.Coherent) {item : κ × CValue ν}
    (hitem : item.2.deleted = true ↔ item.2.value = none) : (writeItem s item).Coherent ∧
      (writeItem s item).view = Function.update s.view item.1 item.2.value ∧
      (writeItem s item).beneath = s.beneath := by
  obtain ⟨k, value, deleted, dirty⟩ := item
  cases value with
  | none =>
    obtain rfl : deleted = true := hitem.mpr rfl
    exact delete_spec h k
  | some v =>
    obtain rfl : deleted = false := by simpa using hitem
    exact set_spec h k v

lemma foldl_writeItem_spec {l : List (κ × CValue ν)} (h : s.Coherent) (hsorted : SortedKeys l)
    (hl : ∀ item ∈ l, (item.2.deleted = true ↔ item.2.value = none)) :
    (l.foldl writeItem s).Coherent ∧ (l.foldl writeItem s).beneath = s.beneath ∧
      (l.foldl writeItem s).view =
        overlay (fun k => (lookupEntry k l).map CValue.value) s.view := by
  induction l generalizing s with
  | nil => exact ⟨h, rfl, rfl⟩
  | cons item l ih =>
    obtain ⟨hlt, hsorted⟩ := pairwise_cons.mp hsorted
    obtain ⟨hcoherent, hview, hbelow⟩ := writeItem_spec h (hl item (by simp))
    obtain ⟨hcoherent', hbelow', hview'⟩ :=
      ih hcoherent hsorted (fun item' hitem' => hl item' (mem_cons_of_mem _ hitem'))
    refine ⟨hcoherent', hbelow'.trans hbelow, ?_⟩
    rw [foldl_cons, hview', hview]
    funext k
    simp only [overlay, lookupEntry, Function.update_apply]
    by_cases hk : k = item.1
    · rw [hk, lookupEntry_eq_none_of_forall hlt]
      simp
    · simp [hk]

lemma map_lookupEntry_dirty (items : Store κ (CValue ν)) :
    (fun k => (lookupEntry k (items.entries.filter (fun item => item.2.dirty))).map CValue.value) =
      writes items := by
  have hsorted : SortedKeys (items.entries.filter (fun item => item.2.dirty)) :=
    Pairwise.filter _ items.sorted
  funext k
  refine Option.ext (fun v => ?_)
  simp only [Option.map_eq_some_iff, ← mem_iff_lookupEntry hsorted, mem_filter,
    mem_entries, writes, Option.bind_eq_some_iff]
  constructor
  · rintro ⟨item, ⟨hitem, hdirty⟩, rfl⟩
    exact ⟨item, hitem, if_pos hdirty⟩
  · rintro ⟨item, hitem, hv⟩
    split_ifs at hv with hdirty
    exact ⟨item, ⟨hitem, hdirty⟩, Option.some.inj hv⟩

lemma write_spec (h : (cache items parent).Coherent) : ∃ parent', (cache items parent).write =
      cache empty parent' ∧ parent'.Coherent ∧ parent'.view = (cache items parent).view ∧
        parent'.beneath = parent.beneath := by
  obtain ⟨hparent, hitems⟩ := h
  have hdirty : ∀ item ∈ items.entries.filter (fun item => item.2.dirty),
      (item.2.deleted = true ↔ item.2.value = none) := by
    intro item hitem
    obtain ⟨hmem, hdirty⟩ := mem_filter.mp hitem
    simpa [hdirty] using hitems item.1 item.2 (mem_entries.mp hmem)
  obtain ⟨hcoherent, hbelow, hview⟩ :=
    foldl_writeItem_spec hparent (Pairwise.filter _ items.sorted) hdirty
  exact ⟨_, rfl, hcoherent, by rw [hview, map_lookupEntry_dirty]; rfl, hbelow⟩

end KVStore
end

section
variable {κ ν α : Type} [LinearOrder κ]

lemma lists_directed {l : List (κ × α)} {m : κ → Option α} (hsorted : SortedKeys l)
    (hmem : ∀ k a, (k, a) ∈ l ↔ m k = some a) (ascending : Bool) :
    Lists (compareKeys ascending) (directed ascending l) m := by
  cases ascending with
  | true => exact ⟨hsorted.imp (fun hlt => compare_lt_iff_lt.mpr hlt), hmem⟩
  | false =>
    refine ⟨pairwise_reverse.mpr (hsorted.imp (fun {a b} hlt => ?_)), fun k a => ?_⟩
    · simp only [compareKeys, Bool.false_eq_true, if_false, compare_gt_iff_gt.mpr hlt,
        Ordering.swap_gt]
    · simpa [directed] using hmem k a

lemma directed_map {β : Type} (ascending : Bool) (f : α → β) (l : List α) :
    directed ascending (l.map f) = (directed ascending l).map f := by
  cases ascending <;> simp [directed]

lemma lists_entries (entries : Store κ ν) (start stop : Option κ) (ascending : Bool) :
    Lists (compareKeys ascending)
      (directed ascending (entries.entries.filter (fun e => isKeyInDomain e.1 start stop)))
      (restrict (isKeyInDomain · start stop) entries.get) := by
  refine lists_directed (Pairwise.filter _ entries.sorted) (fun k v => ?_) ascending
  rw [mem_filter, mem_entries, restrict_eq_some, and_comm]

lemma lists_dirtyItems (items : Store κ (CValue ν)) (start stop : Option κ) (ascending : Bool) :
    Lists (compareKeys ascending) (dirtyItems items start stop ascending)
      (restrict (isKeyInDomain · start stop) (writes items)) := by
  refine lists_directed ?_ (fun k o => ?_) ascending
  · exact pairwise_map.mpr (Pairwise.filter _ items.sorted)
  · rw [restrict_eq_some, writes, Option.bind_eq_some_iff]
    simp only [mem_map, mem_filter, Bool.and_eq_true, Prod.mk.injEq]
    constructor
    · rintro ⟨⟨k', item⟩, ⟨hmem, hdirty, hdomain⟩, rfl, rfl⟩
      exact ⟨hdomain, item, mem_entries.mp hmem, if_pos hdirty⟩
    · rintro ⟨hdomain, item, hitem, ho⟩
      split_ifs at ho with hdirty
      exact ⟨(k, item), ⟨mem_entries.mpr hitem, hdirty, hdomain⟩, rfl, Option.some.inj ho⟩

lemma newMemIterator_dirtyItems (items : Store κ (CValue ν)) (start stop : Option κ)
    (ascending : Bool) : newMemIterator start stop (dirtyItems items start stop ascending) =
      dirtyItems items start stop ascending := by
  refine filter_eq_self.mpr (fun item hitem => ?_)
  exact (restrict_eq_some.mp
    (((lists_dirtyItems items start stop ascending).mem_iff _ _).mp hitem)).1

lemma KVStore.iterator_lists (s : KVStore κ ν) (start stop : Option κ) (ascending : Bool) :
    ∃ R l, (s.iterator start stop ascending).methods.Simulates R ∧
      R (s.iterator start stop ascending).state l ∧
      Lists (compareKeys ascending) l (restrict (isKeyInDomain · start stop) s.view) := by
  induction s with
  | base entries =>
    exact ⟨_, _, memIterator_simulates, directed_map ascending _ _,
      lists_entries entries start stop ascending⟩
  | cache items parent ih =>
    obtain ⟨R, l, hsimulates, hR, hlists⟩ := ih
    refine ⟨Merged R ascending, _, cacheMergeIterator_simulates hsimulates, ⟨l, hR, rfl⟩, ?_⟩
    have hmerged := hlists.merge (lists_dirtyItems items start stop ascending)
    rw [overlay_restrict] at hmerged
    have hitems := newMemIterator_dirtyItems items start stop ascending
    change Lists _ (merge _ l (newMemIterator start stop _)) _
    rw [hitems]
    exact hmerged

end

section
variable {κ ν : Type}

/-- The operations; a nil key or value is `none`. -/
inductive Op (κ ν : Type)
  | get (key : Option κ)
  | has (key : Option κ)
  | set (key : Option κ) (value : Option ν)
  | delete (key : Option κ)

/-- What an operation returns. -/
inductive Answer (ν : Type)
  | value (value : Option ν)
  | present (b : Bool)
  | done
  deriving DecidableEq

def runOps {σ : Type} (step : σ → Op κ ν → Outcome (Answer ν × σ)) :
    List (Op κ ν) → σ → Outcome (List (Answer ν) × σ)
  | [], s => .ok ([], s)
  | op :: ops, s => do
    let (answer, s) ← step s op
    let (answers, s) ← runOps step ops s
    return (answer :: answers, s)

variable [LinearOrder κ]

/-- `Get`, `Has`, `Set` and `Delete`. -/
def KVStore.step (s : KVStore κ ν) : Op κ ν → Outcome (Answer ν × KVStore κ ν)
  | .get key => do
    let key ← assertValidKey key
    return (.value (s.get key).1, (s.get key).2)
  | .has key => do
    let key ← assertValidKey key
    return (.present (s.get key).1.isSome, (s.get key).2)
  | .set key value => do
    let key ← assertValidKey key
    let value ← assertValidValue value
    return (.done, s.set key value)
  | .delete key => do
    let key ← assertValidKey key
    return (.done, s.delete key)

/-- Same on writes `w` over a map: a read sees the overlay, a write is noted. -/
def onOverlay (m : κ → Option ν) (w : κ → Option (Option ν)) :
    Op κ ν → Outcome (Answer ν × (κ → Option (Option ν)))
  | .get key => do
    let key ← assertValidKey key
    return (.value (overlay w m key), w)
  | .has key => do
    let key ← assertValidKey key
    return (.present (overlay w m key).isSome, w)
  | .set key value => do
    let key ← assertValidKey key
    let value ← assertValidValue value
    return (.done, Function.update w key (some (some value)))
  | .delete key => do
    let key ← assertValidKey key
    return (.done, Function.update w key (some none))

def Agree {σ τ α : Type} (Rel : σ → τ → Prop) (x : Outcome (α × σ)) (y : Outcome (α × τ)) : Prop :=
  (∃ fault, x = .error fault ∧ y = .error fault) ∨
    ∃ a s t, x = .ok (a, s) ∧ y = .ok (a, t) ∧ Rel s t

lemma Agree.cons {α σ τ σ' τ' : Type} {Rel : σ → τ → Prop} {Rel' : σ' → τ' → Prop}
    {x : Outcome (α × σ)} {y : Outcome (α × τ)} {f : σ → Outcome (List α × σ')}
    {g : τ → Outcome (List α × τ')} (h : Agree Rel x y)
    (hnext : ∀ s t, Rel s t → Agree Rel' (f s) (g t)) :
    Agree Rel' (x >>= fun r => f r.2 >>= fun q => pure (r.1 :: q.1, q.2))
      (y >>= fun r => g r.2 >>= fun q => pure (r.1 :: q.1, q.2)) := by
  rcases h with ⟨fault, hx, hy⟩ | ⟨a, s, t, hx, hy, h⟩
  · rw [hx, hy]
    exact .inl ⟨fault, rfl, rfl⟩
  · rw [hx, hy, ok_bind, ok_bind]
    rcases hnext s t h with ⟨fault, hf, hg⟩ | ⟨as, s', t', hf, hg, h'⟩
    · rw [hf, hg]
      exact .inl ⟨fault, rfl, rfl⟩
    · rw [hf, hg]
      exact .inr ⟨a :: as, s', t', rfl, rfl, h'⟩

omit [LinearOrder κ] in
lemma runOps_agree {σ τ : Type} {Rel : σ → τ → Prop}
    {step : σ → Op κ ν → Outcome (Answer ν × σ)} {step' : τ → Op κ ν → Outcome (Answer ν × τ)}
    (hstep : ∀ s t op, Rel s t → Agree Rel (step s op) (step' t op)) (ops : List (Op κ ν)) {s : σ}
    {t : τ} (h : Rel s t) : Agree Rel (runOps step ops s) (runOps step' ops t) := by
  induction ops generalizing s t with
  | nil => exact .inr ⟨[], s, t, rfl, rfl, h⟩
  | cons op ops ih => exact (hstep s t op h).cons fun _ _ h1 => ih h1

lemma overlay_update (m : κ → Option ν) (w : κ → Option (Option ν)) (k : κ) (o : Option ν) :
    overlay (Function.update w k (some o)) m = Function.update (overlay w m) k o := by
  funext k'
  simp only [overlay, Function.update_apply]
  split_ifs <;> rfl

/-- A store with the entries of the writes `w` on the map `m`. -/
def Shows (m : κ → Option ν) (below : List (κ → Option ν)) (s : KVStore κ ν)
    (w : κ → Option (Option ν)) : Prop :=
  s.Coherent ∧ s.view = overlay w m ∧ s.beneath = below

/-- A cache that holds the writes `w` over its parent, whose maps have not changed. -/
def Holds (parent : KVStore κ ν) (s : KVStore κ ν) (w : κ → Option (Option ν)) : Prop :=
  s.Coherent ∧ s.view = overlay w parent.view ∧ s.beneath = parent.view :: parent.beneath

variable {parent s : KVStore κ ν} {w : κ → Option (Option ν)}

lemma step_shows {m : κ → Option ν} {below : List (κ → Option ν)} (h : Shows m below s w)
    (op : Op κ ν) : Agree (Shows m below) (s.step op) (onOverlay m w op) := by
  obtain ⟨hcoherent, hview, hbelow⟩ := h
  have hget : ∀ k, (s.get k).1 = overlay w m k ∧ Shows m below (s.get k).2 w := by
    intro k
    obtain ⟨hvalue, hcoherent', hview', hbelow'⟩ := KVStore.get_spec hcoherent k
    exact ⟨by rw [hvalue, hview], hcoherent', hview'.trans hview, hbelow'.trans hbelow⟩
  cases op with
  | get key | has key =>
    cases key with
    | none => exact .inl ⟨_, rfl, rfl⟩
    | some k =>
      refine .inr ⟨_, _, w, rfl, ?_, (hget k).2⟩
      rw [(hget k).1]
      rfl
  | set key value =>
    cases key with
    | none => exact .inl ⟨_, rfl, rfl⟩
    | some k =>
      cases value with
      | none => exact .inl ⟨_, rfl, rfl⟩
      | some v =>
        obtain ⟨hcoherent', hview', hbelow'⟩ := KVStore.set_spec hcoherent k v
        refine .inr ⟨_, _, _, rfl, rfl, hcoherent', ?_, hbelow'.trans hbelow⟩
        rw [hview', hview, overlay_update]
  | delete key =>
    cases key with
    | none => exact .inl ⟨_, rfl, rfl⟩
    | some k =>
      obtain ⟨hcoherent', hview', hbelow'⟩ := KVStore.delete_spec hcoherent k
      refine .inr ⟨_, _, _, rfl, rfl, hcoherent', ?_, hbelow'.trans hbelow⟩
      rw [hview', hview, overlay_update]

lemma step_agree (h : Holds parent s w) (op : Op κ ν) :
    Agree (Holds parent) (s.step op) (onOverlay parent.view w op) :=
  step_shows h op

/-- Stores that operations lead to: caches over caches, written and dropped. -/
inductive Reachable : KVStore κ ν → Prop
  | base (entries : Store κ ν) : Reachable (.base entries)
  | wrap {s : KVStore κ ν} (h : Reachable s) : Reachable s.newCacheKVStore
  | step {s s' : KVStore κ ν} {op : Op κ ν} {answer : Answer ν} (h : Reachable s)
      (hstep : s.step op = .ok (answer, s')) : Reachable s'
  | write {s : KVStore κ ν} (h : Reachable s) : Reachable s.write
  | parent {items : Store κ (CValue ν)} {s : KVStore κ ν} (h : Reachable (.cache items s)) :
      Reachable s

lemma KVStore.coherent_step {s s' : KVStore κ ν} {op : Op κ ν} {answer : Answer ν}
    (h : s.Coherent) (hstep : s.step op = .ok (answer, s')) : s'.Coherent := by
  cases op with
  | get key | has key =>
    obtain ⟨k, -, hstep⟩ := bind_ok.mp hstep
    obtain ⟨-, rfl⟩ := Prod.mk.inj (Except.ok.inj hstep)
    exact (get_spec h k).2.1
  | set key value =>
    obtain ⟨k, -, hstep⟩ := bind_ok.mp hstep
    obtain ⟨v, -, hstep⟩ := bind_ok.mp hstep
    obtain ⟨-, rfl⟩ := Prod.mk.inj (Except.ok.inj hstep)
    exact (set_spec h k v).1
  | delete key =>
    obtain ⟨k, -, hstep⟩ := bind_ok.mp hstep
    obtain ⟨-, rfl⟩ := Prod.mk.inj (Except.ok.inj hstep)
    exact (delete_spec h k).1

lemma Reachable.coherent (h : Reachable s) : s.Coherent := by
  induction h with
  | base entries => trivial
  | wrap _ ih => exact KVStore.coherent_newCacheKVStore ih
  | step _ hstep ih => exact KVStore.coherent_step ih hstep
  | @write s _ ih =>
    cases s with
    | base entries => trivial
    | cache items parent =>
      obtain ⟨parent', hwrite, hcoherent, -, -⟩ := KVStore.write_spec ih
      rw [hwrite]
      exact KVStore.coherent_newCacheKVStore hcoherent
  | parent _ ih => exact ih.1

lemma holds_newCacheKVStore (h : parent.Coherent) :
    Holds parent parent.newCacheKVStore (fun _ => none) :=
  ⟨KVStore.coherent_newCacheKVStore h, KVStore.view_newCacheKVStore parent, rfl⟩

/-- What a cache with the writes `w` over a parent provides: the parent's maps are unchanged, its
iterators read the entries of the overlay in order, and writing gives the parent that overlay. -/
structure Serves (parent s : KVStore κ ν) (w : κ → Option (Option ν)) : Prop where
  parent_unchanged : ∃ items parent', s = .cache items parent' ∧ parent'.view = parent.view ∧
    parent'.beneath = parent.beneath
  iterators : ∀ start stop ascending, ∃ l, Lists (compareKeys ascending) l
      (restrict (isKeyInDomain · start stop) (overlay w parent.view)) ∧
    ∀ n, l.length ≤ n → Finishes (collect (s.iterator start stop ascending).methods n)
      (s.iterator start stop ascending).state
      (fun r _ => r = (l.map (fun e => (e.1, some e.2)), true))
  written : ∃ parent' : KVStore κ ν, s.write = parent'.newCacheKVStore ∧
    parent'.view = overlay w parent.view ∧ parent'.beneath = parent.beneath

lemma Holds.serves (h : Holds parent s w) : Serves parent s w := by
  obtain ⟨hcoherent, hview, hbelow⟩ := h
  cases s with
  | base entries => exact absurd hbelow (by simp [KVStore.beneath])
  | cache items parent' =>
    obtain ⟨hparent, hbeneath⟩ := List.cons.inj hbelow
    refine ⟨⟨items, parent', rfl, hparent, hbeneath⟩, fun start stop ascending => ?_, ?_⟩
    · obtain ⟨R, l, hsimulates, hR, hlists⟩ :=
        (KVStore.cache items parent').iterator_lists start stop ascending
      rw [hview] at hlists
      exact ⟨l, hlists, fun n hn => hsimulates.collect hR hn⟩
    · obtain ⟨parent'', hwrite, -, hview', hbelow'⟩ := KVStore.write_spec hcoherent
      exact ⟨parent'', hwrite, hview'.trans hview, hbelow'.trans hbeneath⟩

/-- A cache over any store, after any operations, is the overlay of what was written on the map of
its parent. -/
theorem cacheKVStore_refines_overlay (hparent : Reachable parent) (ops : List (Op κ ν)) :
    Agree (Serves parent) (runOps KVStore.step ops parent.newCacheKVStore)
      (runOps (onOverlay parent.view) ops (fun _ => none)) := by
  have hstep : ∀ s w op, Holds parent s w →
      Agree (Holds parent) (s.step op) (onOverlay parent.view w op) :=
    fun _ _ op h => step_agree h op
  have hagree := runOps_agree hstep ops (holds_newCacheKVStore hparent.coherent)
  rcases hagree with hfault | ⟨answers, s, w, hs, hw, h⟩
  · exact .inl hfault
  · exact .inr ⟨answers, s, w, hs, hw, h.serves⟩

/-- Operations on a cache over a cache over an empty store. -/
theorem cacheKVStore_refines_overlay_nested :
    Reachable (KVStore.base Store.empty : KVStore Bytes Bytes).newCacheKVStore ∧
      Agree (Serves (KVStore.base Store.empty).newCacheKVStore)
        (runOps KVStore.step [.set (some [1]) (some [2]), .get (some [1]), .delete (some [3])]
          (KVStore.base Store.empty).newCacheKVStore.newCacheKVStore)
        (runOps (onOverlay (KVStore.base Store.empty).newCacheKVStore.view)
          [.set (some [1]) (some [2]), .get (some [1]), .delete (some [3])] (fun _ => none)) :=
  ⟨.wrap (.base _), cacheKVStore_refines_overlay (.wrap (.base _)) _⟩

end
end Irishub.KV
