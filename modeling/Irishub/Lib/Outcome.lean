import Mathlib.Logic.Relation

/-!
# Outcomes of fallible computations

A program logic for computations that may stop early, an `Except ε α`:

* `Sat E Q x` says that `x` either returns a value satisfying `Q` or stops with
  a fault permitted by `E`. Taking `E` to be constantly false gives total
  correctness, taking it constantly true gives partial correctness.
* `Sat.bind`, `Sat.foldlM` and `Sat.foldlM_suffix` are the sequencing rule and
  the two loop rules.
* `invariant_of_step` carries a property along every run of a step relation, and
  `Traced.keeps` along a run whose steps write a log.

The equations `bind_ok` and `bind_eq_error` invert one bind of a successful
or of a failed computation.
-/

namespace Irishub.Lib

universe u v w

variable {ε : Type u} {α : Type v} {β : Type v} {σ : Type v} {ι : Type w} {x : Except ε α}

/-- `x` returns a value satisfying `Q`, or stops with a fault permitted by `E`. -/
def Sat (E : ε → Prop) (Q : α → Prop) : Except ε α → Prop
  | .ok a => Q a
  | .error e => E e

def NoFault (_ : ε) : Prop := False

def AnyFault (_ : ε) : Prop := True

lemma bind_ok {f : α → Except ε β} {b : β} : x >>= f = .ok b ↔ ∃ a, x = .ok a ∧ f a = .ok b := by
  cases x with
  | error e | ok a => simp [bind, Except.bind]

@[simp] lemma ok_bind (a : α) (f : α → Except ε β) : (Except.ok a >>= f) = f a := rfl

@[simp] lemma error_bind (e : ε) (f : α → Except ε β) :
    ((Except.error e : Except ε α) >>= f) = .error e := rfl

@[simp] lemma pure_ok (a : α) : (pure a : Except ε α) = .ok a := rfl

lemma pure_eq_ok {a b : α} : (pure a : Except ε α) = .ok b ↔ a = b := by
  rw [pure_ok, Except.ok.injEq]

def returns (p : α → Bool) : Except ε α → Bool
  | .ok a => p a
  | .error _ => false

lemma of_returns {p : α → Bool} {x : Except ε α} (h : returns p x = true) :
    ∃ a, x = .ok a ∧ p a = true := by
  cases x with
  | error e => exact absurd h (by simp [returns])
  | ok a => exact ⟨a, rfl, h⟩

lemma forM_ok {ι : Type w} {f : ι → Except ε PUnit} {l : List ι} :
    l.forM f = .ok ⟨⟩ ↔ ∀ i ∈ l, f i = .ok ⟨⟩ := by
  induction l with
  | nil => simp [List.forM]
  | cons i l ih =>
    rw [List.forM, bind_ok, List.forall_mem_cons, ← ih]
    constructor
    · rintro ⟨⟨⟩, hi, hl⟩
      exact ⟨hi, hl⟩
    · rintro ⟨hi, hl⟩
      exact ⟨⟨⟩, hi, hl⟩

namespace Sat
variable {E E' : ε → Prop} {P : α → Prop} {Q Q' : α → Prop} {R : β → Prop} {a : α} {e : ε}
  {x : Except ε α}

@[simp] lemma error_iff : Sat E Q (.error e : Except ε α) ↔ E e := Iff.rfl

lemma of_ok (h : Sat E Q x) (hx : x = .ok a) : Q a := by
  subst hx
  exact h

lemma of_error (h : Sat E Q x) (hx : x = .error e) : E e := by
  subst hx
  exact h

lemma mono (h : Sat E Q x) (hE : ∀ e, E e → E' e) (hQ : ∀ a, Q a → Q' a) : Sat E' Q' x := by
  cases x with
  | error e => exact hE e h
  | ok a => exact hQ a h

lemma imp (h : Sat E Q x) (hQ : ∀ a, Q a → Q' a) : Sat E Q' x := h.mono (fun _ he => he) hQ

lemma bind {f : α → Except ε β} (hx : Sat E P x)
    (hf : ∀ a, P a → Sat E R (f a)) : Sat E R (x >>= f) := by
  cases x with
  | error e => exact hx
  | ok a => exact hf a hx

lemma of_forall (h : ∀ a, x = .ok a → Q a) : Sat AnyFault Q x := by
  cases x with
  | error e => exact trivial
  | ok a => exact h a rfl

lemma exists_ok (h : Sat NoFault Q x) : ∃ a, x = .ok a ∧ Q a := by
  cases x with
  | error e => exact h.elim
  | ok a => exact ⟨a, rfl, h⟩

/-- A loop whose invariant `I` is kept by each of its iterations. -/
lemma foldlM {I : σ → Prop} {f : σ → ι → Except ε σ} :
    ∀ (l : List ι) (s : σ), I s → (∀ i ∈ l, ∀ s, I s → Sat E I (f s i)) → Sat E I (l.foldlM f s)
  | [], _, hs, _ => hs
  | i :: l, s, hs, hf => by
    rw [List.foldlM_cons]
    refine Sat.bind (hf i (by simp) s hs) (fun s' hs' => ?_)
    exact foldlM l s' hs' (fun j hj => hf j (List.mem_cons_of_mem _ hj))

/-- A loop whose invariant mentions the elements not yet visited. -/
lemma foldlM_suffix {I : List ι → σ → Prop} {f : σ → ι → Except ε σ}
    (hf : ∀ i l s, I (i :: l) s → Sat E (I l) (f s i)) :
    ∀ (l : List ι) (s : σ), I l s → Sat E (I []) (l.foldlM f s)
  | [], _, hs => hs
  | i :: l, s, hs => by
    rw [List.foldlM_cons]
    exact Sat.bind (hf i l s hs) (fun s' hs' => foldlM_suffix hf l s' hs')

end Sat

section

variable {τ : Type v} {step : τ → τ → Prop} {I : τ → Prop} {s s' : τ} {f : τ → ι → Except ε τ}
  {l : List ι}

/-- A property kept by every step holds along every run. -/
lemma invariant_of_step (hstep : ∀ s s', I s → step s s' → I s')
    (hrun : Relation.ReflTransGen step s s') (hs : I s) : I s' := by
  induction hrun with
  | refl => exact hs
  | tail _ hlast ih => exact hstep _ _ ih hlast

lemma invariant_of_foldlM (hstep : ∀ s s' i, I s → f s i = .ok s' → I s')
    (hrun : l.foldlM f s = .ok s') (hs : I s) : I s' := by
  have hloop : Sat AnyFault I (l.foldlM f s) :=
    Sat.foldlM l s hs (fun i _ t ht => Sat.of_forall (fun t' ht' => hstep t t' i ht ht'))
  exact hloop.of_ok hrun

lemma reflTransGen_of_foldlM
    (hstep : ∀ i ∈ l, ∀ s s', f s i = .ok s' → step s s') (h : l.foldlM f s = .ok s') :
    Relation.ReflTransGen step s s' := by
  induction l generalizing s with
  | nil =>
    cases h
    exact .refl
  | cons i l ih =>
    rw [List.foldlM_cons] at h
    obtain ⟨s1, h1, h⟩ := bind_ok.mp h
    exact .head (hstep i (by simp) s s1 h1)
      (ih (fun j hj => hstep j (List.mem_cons_of_mem _ hj)) h)

/-- Steps one after the other, with all that they log. -/
inductive Traced (step : τ → List ι → τ → Prop) (s : τ) : List ι → τ → Prop
  | nil : Traced step s [] s
  | snoc {log log' : List ι} {s1 s2 : τ} (hrun : Traced step s log s1) (hstep : step s1 log' s2) :
      Traced step s (log ++ log') s2

namespace Traced
variable {step : τ → List ι → τ → Prop} {s s1 s2 : τ} {log log' log₀ : List ι}

lemma single (h : step s log s1) : Traced step s log s1 := by
  have hrun := Traced.snoc (.nil (s := s)) h
  rwa [List.nil_append] at hrun

lemma trans (h : Traced step s log s1) (h' : Traced step s1 log' s2) :
    Traced step s (log ++ log') s2 := by
  induction h' with
  | nil => rwa [List.append_nil]
  | snoc _ hstep ih =>
    rw [← List.append_assoc]
    exact .snoc ih hstep

lemma keeps {I : τ → List ι → Prop}
    (hstep : ∀ s log₀ log s', I s log₀ → step s log s' → I s' (log₀ ++ log))
    (h : Traced step s log s1) (hI : I s log₀) : I s1 (log₀ ++ log) := by
  induction h with
  | nil => rwa [List.append_nil]
  | snoc _ hlast ih =>
    rw [← List.append_assoc]
    exact hstep _ _ _ _ ih hlast

lemma kept {I : τ → Prop} (hstep : ∀ s log s', I s → step s log s' → I s')
    (h : Traced step s log s1) (hI : I s) : I s1 := by
  induction h with
  | nil => exact hI
  | snoc _ hlast ih => exact hstep _ _ _ ih hlast

end Traced

/-- Along a run whose steps keep `J`, and keep `I` exactly when they meet `C`: all steps meet `C`
exactly when `I` holds in every state reached. -/
lemma forall_steps_iff_forall_reached {J I : τ → Prop} {C : τ → ι → Prop}
    {f : τ → ι → Except ε τ} (hJ : ∀ s s' i, J s → f s i = .ok s' → J s')
    (hI : ∀ s s' i, J s → I s → f s i = .ok s' → (I s' ↔ C s i)) :
    ∀ {l : List ι} {s r : τ}, J s → I s → l.foldlM f s = .ok r →
      ((∀ before i after t, l = before ++ i :: after → before.foldlM f s = .ok t → C t i) ↔
        ∀ before after t, l = before ++ after → before.foldlM f s = .ok t → I t)
  | [], s, r, _, hs, _ => by
    constructor
    · intro _ before after t hl ht
      obtain ⟨rfl, rfl⟩ := List.append_eq_nil_iff.mp hl.symm
      cases ht
      exact hs
    · intro _ before i after t hl
      simp at hl
  | i :: l, s, r, hsJ, hs, h => by
    rw [List.foldlM_cons] at h
    obtain ⟨s1, h1, h⟩ := bind_ok.mp h
    have hcons : ∀ before t, before.foldlM f s1 = .ok t → (i :: before).foldlM f s = .ok t := by
      intro before t ht
      rw [List.foldlM_cons, h1]
      exact ht
    constructor
    · intro hC before after t hl ht
      have hs1 : I s1 := (hI s s1 i hsJ hs h1).mpr (hC [] i l s rfl rfl)
      have ih := (forall_steps_iff_forall_reached hJ hI (hJ s s1 i hsJ h1) hs1 h).mp
        (fun before' j after' t' hl' ht' =>
          hC (i :: before') j after' t' (by rw [hl']; rfl) (hcons _ _ ht'))
      cases before with
      | nil =>
        cases ht
        exact hs
      | cons j before =>
        obtain ⟨rfl, hl'⟩ := List.cons.inj hl
        rw [List.foldlM_cons, h1] at ht
        exact ih before after t hl' ht
    · intro hreached before j after t hl ht
      have hs1 : I s1 := hreached [i] l s1 rfl (hcons [] s1 rfl)
      have ih := (forall_steps_iff_forall_reached hJ hI (hJ s s1 i hsJ h1) hs1 h).mpr
        (fun before' after' t' hl' ht' =>
          hreached (i :: before') after' t' (by rw [hl']; rfl) (hcons _ _ ht'))
      cases before with
      | nil =>
        cases ht
        obtain ⟨rfl, _⟩ := List.cons.inj hl
        exact (hI s s1 i hsJ hs h1).mp hs1
      | cons k before =>
        obtain ⟨rfl, hl'⟩ := List.cons.inj hl
        rw [List.foldlM_cons, h1] at ht
        exact ih before j after t hl' ht

end
end Irishub.Lib
