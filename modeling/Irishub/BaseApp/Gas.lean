import Irishub.Lib.Run
import Irishub.Types.Int

/-!
# Gas meters

`basicGasMeter` and `infiniteGasMeter` of `types/gas.go`. The logarithmic
scaling of a basic meter concerns the per-byte costs of the metered stores only;
those costs are amounts given to `consumeGas` here.
-/

namespace Irishub.BaseApp
open Lib

/-- A gas meter; the infinite meter has no limit. -/
structure GasMeter where
  limit : Option ℕ
  consumed : ℕ
  deriving DecidableEq

abbrev Metered := Run GasMeter Fault

namespace GasMeter

def newInfiniteGasMeter : GasMeter := ⟨none, 0⟩

def newGasMeter (limit : ℕ) : GasMeter := ⟨some limit, 0⟩

def isPastLimit (g : GasMeter) : Bool := g.limit.any (fun limit => limit < g.consumed)

def isOutOfGas (g : GasMeter) : Bool := g.limit.any (fun limit => limit ≤ g.consumed)

def gasConsumedToLimit (g : GasMeter) : ℕ := if g.isPastLimit then g.limit.getD 0 else g.consumed

/-- Room a meter has left is at least `amount`, and the counter does not overflow. -/
def Fits (g : GasMeter) (amount : ℕ) : Prop :=
  g.consumed + amount < 2 ^ 64 ∧ ∀ limit ∈ g.limit, g.consumed + amount ≤ limit

instance (g : GasMeter) (amount : ℕ) : Decidable (g.Fits amount) :=
  inferInstanceAs (Decidable (_ ∧ _))

end GasMeter

/-- `ConsumeGas`: the consumption is recorded before the limit is tested, and an overflowing
counter restarts at zero. -/
def consumeGas (amount : ℕ) : Metered Unit := fun g =>
  if 2 ^ 64 ≤ g.consumed + amount then (raise .errorGasOverflow, { g with consumed := 0 })
  else
    let g := { g with consumed := g.consumed + amount }
    if g.isPastLimit then (raise .errorOutOfGas, g) else (.ok (), g)

lemma consumeGas_ok {g : GasMeter} {amount : ℕ} :
    (consumeGas amount g).1 = .ok () ↔ g.Fits amount := by
  unfold consumeGas GasMeter.Fits
  by_cases hover : 2 ^ 64 ≤ g.consumed + amount
  · rw [if_pos hover]
    simp only [raise_ne_ok, false_iff, not_and]
    omega
  · rw [if_neg hover]
    have hfits : g.consumed + amount < 2 ^ 64 := by omega
    cases hlimit : g.limit with
    | none => simpa [GasMeter.isPastLimit, hlimit] using hfits
    | some limit =>
      by_cases hpast : limit < g.consumed + amount
      · simp [GasMeter.isPastLimit, hpast]
      · simpa [GasMeter.isPastLimit, hlimit, hpast] using ⟨hfits, not_lt.mp hpast⟩

end Irishub.BaseApp
