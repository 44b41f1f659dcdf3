import Irishub.KVStore.CacheKV

/-!
# Key-value stores: the caches of a transaction

`store/cachemultistore.go`. A transaction works on caches over all stores of the application,
which are written together or dropped.
-/

namespace Irishub.KV
open Lib

/-- Stores by their keys. -/
abbrev MultiStore (ι κ ν : Type) [LinearOrder κ] := ι → KVStore κ ν

variable {ι κ ν : Type} [LinearOrder κ]

namespace MultiStore

def write (cms : MultiStore ι κ ν) : MultiStore ι κ ν := fun key => (cms key).write

variable [DecidableEq ι]

/-- Operations on the stores that `GetKVStore` returns. -/
def run : List (ι × Op κ ν) → MultiStore ι κ ν → Outcome (List (Answer ν) × MultiStore ι κ ν)
  | [], ms => .ok ([], ms)
  | (key, op) :: calls, ms => do
    let (answer, s) ← (ms key).step op
    let (answers, ms) ← run calls (Function.update ms key s)
    return (answer :: answers, ms)

end MultiStore

lemma Agree.join {ρ σ τ α : Type} {Rel : σ → ρ → Prop} {Rel' : τ → ρ → Prop}
    {x : Outcome (α × σ)} {y : Outcome (α × τ)} {z : Outcome (α × ρ)} (hx : Agree Rel x z)
    (hy : Agree Rel' y z) : Agree (fun s t => ∃ w, Rel s w ∧ Rel' t w) x y := by
  rcases hx with ⟨_, hx, hz⟩ | ⟨_, s, w, hx, hz, h⟩ <;>
    rcases hy with ⟨_, hy, hz'⟩ | ⟨_, t, _, hy, hz', h'⟩ <;> cases hz.symm.trans hz'
  · exact .inl ⟨_, hx, hy⟩
  · exact .inr ⟨_, s, t, hx, hy, w, h, h'⟩

variable [DecidableEq ι] {ms cms dms : MultiStore ι κ ν}

end Irishub.KV
