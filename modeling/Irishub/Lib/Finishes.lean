import Irishub.Lib.Outcome

/-!
# Computations that finish

Total correctness of computations with a state that may fail: `Finishes x s Q` says
that the computation `x` returns from the state `s`, with a value and a state that
satisfy `Q`. `Finishes.bind` is the sequencing rule. `onFst` and `onSnd` run a
computation on one half of a state.
-/

namespace Irishub.Lib

universe u

variable {σ τ ε α β : Type u}

/-- Computation returns, and its value and final state satisfy `Q`. -/
def Finishes (x : StateT σ (Except ε) α) (s : σ) (Q : α → σ → Prop) : Prop :=
  ∃ a s', x s = .ok (a, s') ∧ Q a s'

def onFst (x : StateT σ (Except ε) α) : StateT (σ × τ) (Except ε) α := fun s => do
  let (a, s₁) ← x s.1
  return (a, s₁, s.2)

def onSnd (x : StateT τ (Except ε) α) : StateT (σ × τ) (Except ε) α := fun s => do
  let (a, s₂) ← x s.2
  return (a, s.1, s₂)

namespace Finishes
variable {x : StateT σ (Except ε) α} {s : σ} {Q : α → σ → Prop} {t : τ}

lemma pure {a : α} (h : Q a s) : Finishes (Pure.pure a : StateT σ (Except ε) α) s Q :=
  ⟨a, s, rfl, h⟩

lemma bind {f : α → StateT σ (Except ε) β} {R : β → σ → Prop} (hx : Finishes x s Q)
    (hf : ∀ a s', Q a s' → Finishes (f a) s' R) : Finishes (x >>= f) s R := by
  obtain ⟨a, s₁, hx, hQ⟩ := hx
  obtain ⟨b, s₂, hf, hR⟩ := hf a s₁ hQ
  refine ⟨b, s₂, ?_, hR⟩
  change (x s >>= fun r => f r.1 r.2) = .ok (b, s₂)
  rw [hx]
  exact hf

lemma imp {R : α → σ → Prop} (hx : Finishes x s Q) (h : ∀ a s', Q a s' → R a s') :
    Finishes x s R := by
  obtain ⟨a, s', hx, hQ⟩ := hx
  exact ⟨a, s', hx, h a s' hQ⟩

lemma onFst (hx : Finishes x s Q) :
    Finishes (onFst x : StateT (σ × τ) (Except ε) α) (s, t) (fun a r => Q a r.1 ∧ r.2 = t) := by
  obtain ⟨a, s', hx, hQ⟩ := hx
  refine ⟨a, (s', t), ?_, hQ, rfl⟩
  simp only [Lib.onFst, hx]
  rfl

lemma onSnd (hx : Finishes x s Q) :
    Finishes (onSnd x : StateT (τ × σ) (Except ε) α) (t, s) (fun a r => r.1 = t ∧ Q a r.2) := by
  obtain ⟨a, s', hx, hQ⟩ := hx
  refine ⟨a, (t, s'), ?_, rfl, hQ⟩
  simp only [Lib.onSnd, hx]
  rfl

end Finishes
end Irishub.Lib
