import Irishub.Lib.Outcome

/-!
# Computations whose state survives a fault

In `Run σ ε α` the state is returned also when the computation stops with a
fault, as a mutable object keeps what was written to it before an exception.
-/

namespace Irishub.Lib

/-- A computation over a state of type `σ` that keeps its state when it stops. -/
def Run (σ ε α : Type) : Type := σ → Except ε α × σ

namespace Run
variable {σ ε α β ι : Type}

def andThen (r : Except ε α × σ) (f : α → Run σ ε β) : Except ε β × σ :=
  match r.1 with
  | .ok a => f a r.2
  | .error e => (.error e, r.2)

instance : Monad (Run σ ε) where
  pure a := fun s => (.ok a, s)
  bind x f := fun s => andThen (x s) f

def lift (x : Except ε α) : Run σ ε α := fun s => (x, s)

@[simp] lemma pure_apply (a : α) (s : σ) : (pure a : Run σ ε α) s = (.ok a, s) := rfl

lemma bind_fst_ok {x : Run σ ε α} {f : α → Run σ ε β} {s : σ} {b : β} :
    ((x >>= f) s).1 = .ok b ↔ ∃ a, (x s).1 = .ok a ∧ (f a (x s).2).1 = .ok b := by
  change (andThen (x s) f).1 = .ok b ↔ _
  unfold andThen
  cases h : (x s).1 with
  | error e | ok a => simp

def Returns (Q : α → Prop) (x : Run σ ε α) : Prop := ∀ s a, (x s).1 = .ok a → Q a

namespace Returns
variable {P : α → Prop} {Q : β → Prop}

lemma pure {a : α} (h : P a) : Returns P (Pure.pure a : Run σ ε α) := by
  intro s a' ha
  simp only [pure_apply, Except.ok.injEq] at ha
  exact ha ▸ h

lemma lift {x : Except ε α} (h : ∀ a, x = .ok a → P a) : Returns P (lift x : Run σ ε α) :=
  fun _ a ha => h a ha

lemma bind {x : Run σ ε α} {f : α → Run σ ε β} (hx : Returns P x)
    (hf : ∀ a, P a → Returns Q (f a)) : Returns Q (x >>= f) := by
  intro s b hb
  obtain ⟨a, ha, hb⟩ := bind_fst_ok.mp hb
  exact hf a (hx s a ha) (x s).2 b hb

lemma any (x : Run σ ε α) : Returns (fun _ => True) x := fun _ _ _ => trivial

lemma imp {P' : α → Prop} {x : Run σ ε α} (hx : Returns P x) (h : ∀ a, P a → P' a) : Returns P' x :=
  fun s a ha => h a (hx s a ha)

end Returns
end Run
end Irishub.Lib
