import Irishub.Lib.Finishes
import Irishub.Lib.Overlay
import Irishub.Types.Fault

/-!
# Key-value stores: the iterators of a cache

`store/memiterator.go` and `store/cachemergeiterator.go`. An iterator is an object
behind an interface: a state with the four methods of `Iterator`, each of which may
move the state or panic. `cacheMergeIterator` is built from the iterator of the
parent, of which only these methods are known, and from the items of the cache, in
which a nil value marks a deletion.

`Simulates it R` says that the iterator behaves like a list: from a state that `R`
relates to a list, `Valid` tells whether the list has ended, `Key` and `Value` return
its first entry and `Next` drops it. If the parent simulates a list then the merge
iterator simulates its merge with the items of the cache
(`cacheMergeIterator_simulates`), whatever the direction.
-/

namespace Irishub.KV
open Lib Option

section
variable {σ κ ν : Type}

/-- Methods of an `Iterator`; a nil value is `none`. -/
structure Iterator (σ κ ν : Type) where
  valid : StateT σ Outcome Bool
  next : StateT σ Outcome Unit
  key : StateT σ Outcome κ
  value : StateT σ Outcome (Option ν)

/-- `memIterator`; its state are the items that remain. -/
def memIterator : Iterator (List (κ × Option ν)) κ ν where
  valid items := .ok (!items.isEmpty, items)
  next
    | [] => raise .memIteratorInvalid
    | _ :: items => .ok ((), items)
  key
    | [] => raise .memIteratorInvalid
    | item :: items => .ok (item.1, item :: items)
  value
    | [] => raise .memIteratorInvalid
    | item :: items => .ok (item.2, item :: items)

variable [LinearOrder κ] (P : Iterator σ κ ν) (ascending : Bool)

/-- `compare`, which is `bytes.Compare`, or its opposite if not ascending. -/
def compareKeys (a b : κ) : Ordering := if ascending then compare a b else (compare a b).swap

def skipCacheDeletes (limit : Option κ) (cache : List (κ × Option ν)) : List (κ × Option ν) :=
  cache.dropWhile (fun item =>
    item.2.isNone && limit.all (fun key => compareKeys ascending item.1 key = .lt))

lemma compareKeys_swap (a b : κ) :
    compareKeys ascending a b = (compareKeys ascending b a).swap := by
  cases ascending <;> simp [compareKeys, Std.OrientedCmp.eq_swap (a := a) (b := b)]

lemma skipCacheDeletes_cons {keyP keyC : κ} (cache : List (κ × Option ν))
    (h : compareKeys ascending keyP keyC = .gt) :
    skipCacheDeletes ascending (some keyP) ((keyC, none) :: cache) =
      skipCacheDeletes ascending (some keyP) cache := by
  have hlt : compareKeys ascending keyC keyP = .lt := by
    rw [compareKeys_swap, h]
    rfl
  simp [skipCacheDeletes, hlt]

/-- Loop of `skipUntilExistsOrInvalid`. -/
def skipLoop (x : σ) (cache : List (κ × Option ν)) :
    Outcome (Bool × σ × List (κ × Option ν)) := do
  let (validP, x) ← P.valid x
  if !validP then
    let cache := skipCacheDeletes ascending none cache
    return (!cache.isEmpty, x, cache)
  match cache with
  | [] => return (true, x, [])
  | (keyC, valueC) :: rest =>
    let (keyP, x) ← P.key x
    match _h : compareKeys ascending keyP keyC, valueC with
    | .eq, none =>
      let (_, x) ← P.next x
      skipLoop x rest
    | .gt, none => skipLoop x (skipCacheDeletes ascending (some keyP) ((keyC, none) :: rest))
    | _, _ => return (true, x, (keyC, valueC) :: rest)
  termination_by cache.length
  decreasing_by
    · exact Nat.lt_succ_self _
    · rw [skipCacheDeletes_cons ascending rest _h]
      exact Nat.lt_succ_of_le (List.dropWhile_sublist _).length_le

/-- `skipUntilExistsOrInvalid`, which is also `Valid`. -/
def skipUntilExistsOrInvalid : StateT (σ × List (κ × Option ν)) Outcome Bool :=
  fun iter => skipLoop P ascending iter.1 iter.2

def assertValid : StateT (σ × List (κ × Option ν)) Outcome Unit := do
  let valid ← skipUntilExistsOrInvalid P ascending
  StateT.lift (assert valid .iteratorInvalid)

/-- Common part of `Next`, `Key` and `Value`: what to do if only the cache is valid, if only
the parent is, and if both are. -/
def onCurrent {α : Type} (onlyCache onlyParent : StateT (σ × List (κ × Option ν)) Outcome α)
    (both : κ → κ → Ordering → StateT (σ × List (κ × Option ν)) Outcome α) :
    StateT (σ × List (κ × Option ν)) Outcome α := do
  let _ ← skipUntilExistsOrInvalid P ascending
  assertValid P ascending
  let validP ← onFst P.valid
  if !validP then onlyCache
  else
    let validC ← onSnd memIterator.valid
    if !validC then onlyParent
    else
      let keyP ← onFst P.key
      let keyC ← onSnd memIterator.key
      both keyP keyC (compareKeys ascending keyP keyC)

/-- `Next` of a `cacheMergeIterator`. -/
def mergeNext : StateT (σ × List (κ × Option ν)) Outcome Unit :=
  onCurrent P ascending (onSnd (memIterator (κ := κ)).next) (onFst P.next) fun _ _ cmp =>
    match cmp with
    | .lt => onFst P.next
    | .eq => do
      onFst P.next
      onSnd (memIterator (κ := κ)).next
    | .gt => onSnd (memIterator (κ := κ)).next

/-- `Key` of a `cacheMergeIterator`. -/
def mergeKey : StateT (σ × List (κ × Option ν)) Outcome κ :=
  onCurrent P ascending (onSnd memIterator.key) (onFst P.key) fun keyP keyC cmp =>
    match cmp with
    | .lt => pure keyP
    | .eq => pure keyP
    | .gt => pure keyC

/-- `Value` of a `cacheMergeIterator`. -/
def mergeValue : StateT (σ × List (κ × Option ν)) Outcome (Option ν) :=
  onCurrent P ascending (onSnd (memIterator (κ := κ)).value) (onFst P.value) fun _ _ cmp =>
    match cmp with
    | .lt => onFst P.value
    | .eq => onSnd (memIterator (κ := κ)).value
    | .gt => onSnd (memIterator (κ := κ)).value

/-- `cacheMergeIterator`; its state are that of the parent and the items of the cache. -/
def cacheMergeIterator : Iterator (σ × List (κ × Option ν)) κ ν where
  valid := skipUntilExistsOrInvalid P ascending
  next := mergeNext P ascending
  key := mergeKey P ascending
  value := mergeValue P ascending

end

section
variable {κ : Type} [LinearOrder κ]

instance (ascending : Bool) : Std.TransCmp (compareKeys ascending : κ → κ → Ordering) := by
  cases ascending
  · have hswap : (compareKeys false : κ → κ → Ordering) = fun a b => compare b a := by
      funext a b
      have hab : compare a b = (compare b a).swap := Std.OrientedCmp.eq_swap
      simp only [compareKeys, Bool.false_eq_true, if_false, hab, Ordering.swap_swap]
    rw [hswap]
    infer_instance
  · exact inferInstanceAs (Std.TransCmp (compare : κ → κ → Ordering))

instance (ascending : Bool) : Std.LawfulEqCmp (compareKeys ascending : κ → κ → Ordering) where
  eq_of_compare {a b} h := by
    cases ascending <;> simpa [compareKeys] using h

end

section
variable {σ κ ν : Type} {cmp : κ → κ → Ordering} {p l : List (κ × ν)} {c : List (κ × Option ν)}
  {e : κ × ν} {iter : σ × List (κ × Option ν)}

/-- Iterator behaves like the list that `R` relates to its state. -/
structure Iterator.Simulates (it : Iterator σ κ ν) (R : σ → List (κ × ν) → Prop) : Prop where
  valid : ∀ x l, R x l → Finishes it.valid x (fun b x' => b = !l.isEmpty ∧ R x' l)
  next : ∀ x e l, R x (e :: l) → Finishes it.next x (fun _ x' => R x' l)
  key : ∀ x e l, R x (e :: l) → Finishes it.key x (fun k x' => k = e.1 ∧ R x' (e :: l))
  value : ∀ x e l, R x (e :: l) → Finishes it.value x (fun v x' => v = some e.2 ∧ R x' (e :: l))

lemma memIterator_simulates : (memIterator : Iterator (List (κ × Option ν)) κ ν).Simulates
      (fun items l => items = l.map (fun e => (e.1, some e.2))) where
  valid := by
    rintro _ l rfl
    exact ⟨_, _, rfl, by simp, rfl⟩
  next := by
    rintro _ e l rfl
    exact ⟨_, _, rfl, rfl⟩
  key := by
    rintro _ e l rfl
    exact ⟨_, _, rfl, rfl, rfl⟩
  value := by
    rintro _ e l rfl
    exact ⟨_, _, rfl, rfl, rfl⟩

/-- Positions from which an entry can be read: nothing is left to skip. -/
inductive Settled (cmp : κ → κ → Ordering) : List (κ × ν) → List (κ × Option ν) → Prop
  | ended : Settled cmp [] []
  | cache {k : κ} {v : ν} {c : List (κ × Option ν)} : Settled cmp [] ((k, some v) :: c)
  | parent {e : κ × ν} {p : List (κ × ν)} : Settled cmp (e :: p) []
  | before {e : κ × ν} {p : List (κ × ν)} {k : κ} {o : Option ν} {c : List (κ × Option ν)}
      (h : cmp e.1 k = .lt) : Settled cmp (e :: p) ((k, o) :: c)
  | same {e : κ × ν} {p : List (κ × ν)} {k : κ} {v : ν} {c : List (κ × Option ν)}
      (h : cmp e.1 k = .eq) : Settled cmp (e :: p) ((k, some v) :: c)
  | after {e : κ × ν} {p : List (κ × ν)} {k : κ} {v : ν} {c : List (κ × Option ν)}
      (h : cmp e.1 k = .gt) : Settled cmp (e :: p) ((k, some v) :: c)

lemma Settled.isEmpty_merge (h : Settled cmp p c) :
    (merge cmp p c).isEmpty = (p.isEmpty && c.isEmpty) := by
  cases h with
  | ended => simp
  | cache => simp [live]
  | parent => simp
  | before h => simp [merge_of_lt h]
  | same h => simp [merge_of_eq h, live]
  | after h => simp [merge_of_gt h, live]

lemma Settled.of_live {k : κ} {o : Option ν} (heq : cmp e.1 k = .eq → o = none → False)
    (hgt : cmp e.1 k = .gt → o = none → False) : Settled cmp (e :: p) ((k, o) :: c) := by
  cases hcmp : cmp e.1 k with
  | lt => exact .before hcmp
  | eq =>
    obtain ⟨v, rfl⟩ := ne_none_iff_exists'.mp (heq hcmp)
    exact .same hcmp
  | gt =>
    obtain ⟨v, rfl⟩ := ne_none_iff_exists'.mp (hgt hcmp)
    exact .after hcmp

section
variable (x : σ) (eC : κ × Option ν) (c : List (κ × Option ν))

lemma onSnd_next : Finishes (onSnd (memIterator (κ := κ)).next) (x, eC :: c)
    (fun _ iter => iter = (x, c)) := ⟨(), (x, c), rfl, rfl⟩

lemma onSnd_key : Finishes (onSnd memIterator.key) (x, eC :: c)
    (fun k iter => k = eC.1 ∧ iter = (x, eC :: c)) := ⟨eC.1, (x, eC :: c), rfl, rfl, rfl⟩

lemma onSnd_value : Finishes (onSnd (memIterator (κ := κ)).value) (x, eC :: c)
    (fun v iter => v = eC.2 ∧ iter = (x, eC :: c)) := ⟨eC.2, (x, eC :: c), rfl, rfl, rfl⟩

end

lemma merge_cache (e : κ × ν) (c : List (κ × Option ν)) (cmp : κ → κ → Ordering) :
    merge cmp [] ((e.1, some e.2) :: c) = e :: merge cmp [] c := by simp [live]

variable [LinearOrder κ] {P : Iterator σ κ ν} {ascending : Bool} {R : σ → List (κ × ν) → Prop}

lemma skipCacheDeletes_none (ascending : Bool) (c : List (κ × Option ν)) :
    Settled (compareKeys ascending) [] (skipCacheDeletes ascending none c) ∧
      (skipCacheDeletes ascending none c).filterMap live = c.filterMap live := by
  induction c with
  | nil => exact ⟨.ended, rfl⟩
  | cons eC c ih =>
    obtain ⟨k, o⟩ := eC
    cases o with
    | none =>
      have hskip : skipCacheDeletes ascending none ((k, none) :: c) =
          skipCacheDeletes ascending none c := by simp [skipCacheDeletes]
      rw [hskip]
      exact ih
    | some v =>
      have hkeep : skipCacheDeletes ascending none ((k, some v) :: c) = (k, some v) :: c := by
        simp [skipCacheDeletes]
      rw [hkeep]
      exact ⟨.cache, rfl⟩

lemma merge_skipCacheDeletes (c : List (κ × Option ν)) :
    merge (compareKeys ascending) (e :: p) (skipCacheDeletes ascending (some e.1) c) =
      merge (compareKeys ascending) (e :: p) c := by
  induction c with
  | nil => rfl
  | cons eC c ih =>
    obtain ⟨k, o⟩ := eC
    by_cases hskip : o = none ∧ compareKeys ascending k e.1 = .lt
    · obtain ⟨rfl, hlt⟩ := hskip
      have hgt : compareKeys ascending e.1 k = .gt := by
        rw [compareKeys_swap, hlt]
        rfl
      rw [skipCacheDeletes_cons ascending c hgt, ih, merge_of_gt hgt]
      rfl
    · have hkeep : skipCacheDeletes ascending (some e.1) ((k, o) :: c) = (k, o) :: c := by
        cases o <;> simp_all [skipCacheDeletes]
      rw [hkeep]

lemma skip_settles (hP : P.Simulates R) (x : σ) (p : List (κ × ν)) (c : List (κ × Option ν))
    (hR : R x p) : Finishes (skipUntilExistsOrInvalid P ascending) (x, c) (fun b iter =>
      b = !(merge (compareKeys ascending) p c).isEmpty ∧ ∃ p', R iter.1 p' ∧
        Settled (compareKeys ascending) p' iter.2 ∧
        merge (compareKeys ascending) p' iter.2 = merge (compareKeys ascending) p c) := by
  induction hn : c.length using Nat.strongRecOn generalizing x p c with
  | ind n ih =>
    obtain ⟨_, x1, hvalid, rfl, hR⟩ := hP.valid x p hR
    change ∃ b iter, skipLoop P ascending x c = .ok (b, iter) ∧ _
    rw [skipLoop, hvalid, ok_bind]
    cases p with
    | nil =>
      obtain ⟨hsettled, hsame⟩ := skipCacheDeletes_none ascending c
      refine ⟨_, _, rfl, ?_, [], hR, hsettled, ?_⟩
      · rw [merge_nil_left, ← hsame, ← merge_nil_left, hsettled.isEmpty_merge]
        rfl
      · rw [merge_nil_left, merge_nil_left, hsame]
    | cons e p =>
      cases c with
      | nil => exact ⟨true, (x1, []), rfl, by simp, e :: p, hR, .parent, rfl⟩
      | cons eC c =>
        obtain ⟨keyC, valueC⟩ := eC
        obtain ⟨_, x2, hkey, rfl, hR⟩ := hP.key x1 e p hR
        simp only [List.isEmpty_cons, Bool.not_false, Bool.not_true, Bool.false_eq_true,
          if_false, hkey, ok_bind]
        split
        · -- the parent's entry is deleted
          rename_i heq
          obtain ⟨_, x3, hnext, hR⟩ := hP.next x2 e p hR
          rw [hnext, ok_bind, merge_of_eq heq]
          exact ih c.length (by rw [← hn]; exact Nat.lt_succ_self _) x3 p c hR rfl
        · -- deletions of keys that the parent does not have
          rename_i hgt
          rw [skipCacheDeletes_cons ascending c hgt, merge_of_gt hgt, ← merge_skipCacheDeletes c]
          refine ih (skipCacheDeletes ascending (some e.1) c).length ?_ x2 (e :: p) _ hR rfl
          rw [← hn]
          exact Nat.lt_succ_of_le (List.dropWhile_sublist _).length_le
        · rename_i heq hgt
          have hsettled := Settled.of_live (p := p) (c := c) heq hgt
          refine ⟨true, (x2, _), rfl, ?_, e :: p, hR, hsettled, rfl⟩
          rw [hsettled.isEmpty_merge]
          rfl

/-- A rule for `Next`, `Key` and `Value` at a position whose merge begins with `e`. -/
lemma onCurrent_finishes {α : Type}
    {onlyCache onlyParent : StateT (σ × List (κ × Option ν)) Outcome α}
    {both : κ → κ → Ordering → StateT (σ × List (κ × Option ν)) Outcome α}
    {Q : α → σ × List (κ × Option ν) → Prop} {x : σ} (hP : P.Simulates R) (hR : R x p)
    (hmerge : merge (compareKeys ascending) p c = e :: l)
    (hcache : ∀ x c, R x [] → merge (compareKeys ascending) [] c = l →
      Finishes onlyCache (x, (e.1, some e.2) :: c) Q)
    (hparent : ∀ x, R x (e :: l) → Finishes onlyParent (x, []) Q)
    (hboth : ∀ x eP p eC c, R x (eP :: p) → Settled (compareKeys ascending) (eP :: p) (eC :: c) →
      merge (compareKeys ascending) (eP :: p) (eC :: c) = e :: l →
      Finishes (both eP.1 eC.1 (compareKeys ascending eP.1 eC.1)) (x, eC :: c) Q) :
    Finishes (onCurrent P ascending onlyCache onlyParent both) (x, c) Q := by
  refine (skip_settles hP x p c hR).bind (fun _ iter h => ?_)
  obtain ⟨-, p1, hR1, -, hsame1⟩ := h
  refine Finishes.bind (Q := fun _ iter => ∃ p, R iter.1 p ∧
    Settled (compareKeys ascending) p iter.2 ∧
    merge (compareKeys ascending) p iter.2 = e :: l) ?_ (fun _ iter h => ?_)
  · refine (skip_settles hP iter.1 p1 iter.2 hR1).bind (fun b iter2 h2 => ?_)
    obtain ⟨rfl, p2, hR2, hsettled, hsame2⟩ := h2
    rw [hsame1, hmerge] at hsame2 ⊢
    exact ⟨(), iter2, rfl, p2, hR2, hsettled, hsame2⟩
  · obtain ⟨x, c⟩ := iter
    obtain ⟨p, hR, hsettled, hmerge⟩ := h
    refine (hP.valid x p hR).onFst.bind (fun validP iter h => ?_)
    obtain ⟨x1, c1⟩ := iter
    obtain ⟨⟨rfl, hR1⟩, rfl⟩ := h
    cases p with
    | nil =>
      cases hsettled with
      | ended => simp at hmerge
      | @cache k v c =>
        simp only [merge_nil_left, List.filterMap_cons, live, map_some] at hmerge
        obtain ⟨rfl, rfl⟩ := List.cons.inj hmerge
        exact hcache x1 c hR1 merge_nil_left
    | cons eP p =>
      have hvalidC : Finishes (memIterator : Iterator (List (κ × Option ν)) κ ν).valid c1
          (fun b c => b = !c1.isEmpty ∧ c = c1) := ⟨_, _, rfl, rfl, rfl⟩
      refine hvalidC.onSnd.bind (fun validC iter h => ?_)
      obtain ⟨x2, c2⟩ := iter
      obtain ⟨rfl, rfl, rfl⟩ := h
      cases c2 with
      | nil =>
        rw [merge_nil_right] at hmerge
        obtain ⟨rfl, rfl⟩ := List.cons.inj hmerge
        exact hparent x2 hR1
      | cons eC c =>
        refine (hP.key x2 eP p hR1).onFst.bind (fun keyP iter h => ?_)
        obtain ⟨x3, c3⟩ := iter
        obtain ⟨⟨rfl, hR3⟩, rfl⟩ := h
        exact hboth x3 eP p eC c hR3 hsettled hmerge

def Merged (R : σ → List (κ × ν) → Prop) (ascending : Bool) (iter : σ × List (κ × Option ν))
    (l : List (κ × ν)) : Prop :=
  ∃ p, R iter.1 p ∧ merge (compareKeys ascending) p iter.2 = l

lemma mergeNext_finishes (hP : P.Simulates R) (h : Merged R ascending iter (e :: l)) :
    Finishes (mergeNext P ascending) iter (fun _ iter => Merged R ascending iter l) := by
  obtain ⟨x, c⟩ := iter
  obtain ⟨p, hR, hmerge⟩ := h
  refine onCurrent_finishes hP hR hmerge (fun x c hR hl => ?_) (fun x hR => ?_)
    (fun x eP p eC c hR hsettled hmerge => ?_)
  · refine (onSnd_next x _ c).imp (fun _ iter h => ?_)
    rw [h]
    exact ⟨[], hR, hl⟩
  · exact (hP.next x e l hR).onFst.imp (fun _ iter h => ⟨l, h.1, by rw [h.2, merge_nil_right]⟩)
  · cases hsettled with
    | @before _ _ k o _ hlt =>
      rw [merge_of_lt hlt] at hmerge
      obtain ⟨rfl, rfl⟩ := List.cons.inj hmerge
      simp only [hlt]
      refine (hP.next x eP p hR).onFst.imp (fun _ iter h => ⟨p, h.1, ?_⟩)
      rw [h.2]
    | @same _ _ k v _ heq =>
      rw [merge_of_eq heq] at hmerge
      obtain ⟨rfl, rfl⟩ := List.cons.inj hmerge
      simp only [heq]
      refine (hP.next x eP p hR).onFst.bind (fun _ iter h => ?_)
      obtain ⟨x1, c1⟩ := iter
      obtain ⟨hR1, rfl⟩ := h
      refine (onSnd_next x1 _ c).imp (fun _ iter h => ?_)
      rw [h]
      exact ⟨p, hR1, rfl⟩
    | @after _ _ k v _ hgt =>
      rw [merge_of_gt hgt] at hmerge
      obtain ⟨rfl, rfl⟩ := List.cons.inj hmerge
      simp only [hgt]
      refine (onSnd_next x _ c).imp (fun _ iter h => ?_)
      rw [h]
      exact ⟨eP :: p, hR, rfl⟩

lemma mergeKey_finishes (hP : P.Simulates R) (h : Merged R ascending iter (e :: l)) :
    Finishes (mergeKey P ascending) iter
      (fun k iter => k = e.1 ∧ Merged R ascending iter (e :: l)) := by
  obtain ⟨x, c⟩ := iter
  obtain ⟨p, hR, hmerge⟩ := h
  refine onCurrent_finishes hP hR hmerge (fun x c hR hl => ?_) (fun x hR => ?_)
    (fun x eP p eC c hR hsettled hmerge => ?_)
  · refine (onSnd_key x _ c).imp (fun k iter h => ⟨h.1, ?_⟩)
    rw [h.2]
    exact ⟨[], hR, by rw [merge_cache, hl]⟩
  · exact (hP.key x e l hR).onFst.imp
      (fun _ iter h => ⟨h.1.1, e :: l, h.1.2, by rw [h.2, merge_nil_right]⟩)
  · have hkept : Merged R ascending (x, eC :: c) (e :: l) := ⟨eP :: p, hR, hmerge⟩
    cases hsettled with
    | @before _ _ k o _ hlt =>
      rw [merge_of_lt hlt] at hmerge
      simp only [hlt]
      exact .pure ⟨by rw [(List.cons.inj hmerge).1], hkept⟩
    | @same _ _ k v _ heq =>
      rw [merge_of_eq heq] at hmerge
      simp only [heq]
      have hkey : eP.1 = k := Std.LawfulEqCmp.eq_of_compare heq
      exact .pure ⟨by rw [hkey, ← (List.cons.inj hmerge).1], hkept⟩
    | @after _ _ k v _ hgt =>
      rw [merge_of_gt hgt] at hmerge
      simp only [hgt]
      exact .pure ⟨by rw [← (List.cons.inj hmerge).1], hkept⟩

lemma mergeValue_finishes (hP : P.Simulates R) (h : Merged R ascending iter (e :: l)) :
    Finishes (mergeValue P ascending) iter
      (fun v iter => v = some e.2 ∧ Merged R ascending iter (e :: l)) := by
  obtain ⟨x, c⟩ := iter
  obtain ⟨p, hR, hmerge⟩ := h
  refine onCurrent_finishes hP hR hmerge (fun x c hR hl => ?_) (fun x hR => ?_)
    (fun x eP p eC c hR hsettled hmerge => ?_)
  · refine (onSnd_value x _ c).imp (fun v iter h => ⟨h.1, ?_⟩)
    rw [h.2]
    exact ⟨[], hR, by rw [merge_cache, hl]⟩
  · exact (hP.value x e l hR).onFst.imp
      (fun _ iter h => ⟨h.1.1, e :: l, h.1.2, by rw [h.2, merge_nil_right]⟩)
  · have hkept : Merged R ascending (x, eC :: c) (e :: l) := ⟨eP :: p, hR, hmerge⟩
    cases hsettled with
    | @before _ _ k o _ hlt =>
      rw [merge_of_lt hlt] at hmerge
      obtain ⟨rfl, rfl⟩ := List.cons.inj hmerge
      simp only [hlt]
      refine (hP.value x eP p hR).onFst.imp (fun _ iter h => ⟨h.1.1, eP :: p, h.1.2, ?_⟩)
      rw [h.2, merge_of_lt hlt]
    | @same _ _ k v _ heq =>
      rw [merge_of_eq heq] at hmerge
      simp only [heq]
      refine (onSnd_value x _ c).imp (fun v iter h => ⟨?_, by rw [h.2]; exact hkept⟩)
      rw [h.1, ← (List.cons.inj hmerge).1]
    | @after _ _ k v _ hgt =>
      rw [merge_of_gt hgt] at hmerge
      simp only [hgt]
      refine (onSnd_value x _ c).imp (fun v iter h => ⟨?_, by rw [h.2]; exact hkept⟩)
      rw [h.1, ← (List.cons.inj hmerge).1]

/-- Merge iterator behaves like the merge of two lists. -/
lemma cacheMergeIterator_simulates (hP : P.Simulates R) :
    (cacheMergeIterator P ascending).Simulates (Merged R ascending) where
  valid iter l h := by
    obtain ⟨p, hR, rfl⟩ := h
    refine (skip_settles hP iter.1 p iter.2 hR).imp (fun b iter' h => ?_)
    obtain ⟨rfl, p', hR', -, hsame⟩ := h
    exact ⟨rfl, p', hR', hsame⟩
  next _ _ _ h := mergeNext_finishes hP h
  key _ _ _ h := mergeKey_finishes hP h
  value _ _ _ h := mergeValue_finishes hP h

end

section
variable {σ κ ν : Type} {R : σ → List (κ × ν) → Prop}

/-- `for ; it.Valid(); it.Next()`, at most `n` times, with the entries read and whether the loop
has ended. -/
def collect (it : Iterator σ κ ν) : ℕ → StateT σ Outcome (List (κ × Option ν) × Bool)
  | 0 => do
    let valid ← it.valid
    return ([], !valid)
  | n + 1 => do
    let valid ← it.valid
    if !valid then return ([], true)
    else
      let key ← it.key
      let value ← it.value
      it.next
      let (entries, ended) ← collect it n
      return ((key, value) :: entries, ended)

lemma Iterator.Simulates.collect {it : Iterator σ κ ν} (hit : it.Simulates R) {x : σ}
    {l : List (κ × ν)} (hR : R x l) {n : ℕ} (hn : l.length ≤ n) :
    Finishes (collect it n) x (fun r _ => r = (l.map (fun e => (e.1, some e.2)), true)) := by
  induction n generalizing x l with
  | zero =>
    obtain rfl : l = [] := List.eq_nil_of_length_eq_zero (by omega)
    refine (hit.valid x [] hR).bind (fun b x h => ?_)
    rw [h.1]
    exact .pure rfl
  | succ n ih =>
    refine (hit.valid x l hR).bind (fun b x h => ?_)
    obtain ⟨rfl, hR⟩ := h
    cases l with
    | nil => exact .pure rfl
    | cons e l =>
      refine (hit.key x e l hR).bind (fun k x h => ?_)
      obtain ⟨rfl, hR⟩ := h
      refine (hit.value x e l hR).bind (fun v x h => ?_)
      obtain ⟨rfl, hR⟩ := h
      refine (hit.next x e l hR).bind (fun _ x hR => ?_)
      refine (ih hR (Nat.le_of_succ_le_succ hn)).bind (fun r x h => ?_)
      rw [h]
      exact .pure rfl

end
end Irishub.KV
