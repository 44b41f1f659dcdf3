import Irishub.Asset.SupplyCap
import Irishub.Coinswap.PoolValue
import Irishub.Htlc.Escrow

/-!
# The modules on one chain

The bank, asset, HTLC and coinswap modules act on the same accounts. Their states
are put together here: the bank is that of the asset module, and an operation of
another module is run on its own view of the state.
-/

namespace Irishub.App
open Lib

/-- What the modules read besides the state. -/
structure Env where
  params : Asset.Params
  swap : Coinswap.Env
  sha256 : Bytes → Bytes

structure State where
  asset : Asset.State
  htlcs : Store Bytes Htlc.HTLC
  expireQueue : Store (ℕ ×ₗ Bytes) Bytes
  height : ℕ

namespace State

def bank (s : State) : Bank := s.asset.bank

def withBank (s : State) (b : Bank) : State := { s with asset := { s.asset with bank := b } }

def htlc (s : State) : Htlc.State := ⟨s.bank, s.htlcs, s.expireQueue, s.height⟩

def withHtlc (s : State) (t : Htlc.State) : State :=
  { s with
    asset := { s.asset with bank := t.bank }
    htlcs := t.htlcs
    expireQueue := t.expireQueue
    height := t.height }

end State

/-- An operation of one of the modules; those of the HTLC module include the messages of the bank
and the beginning of a block. -/
inductive Op
  | asset (msg : Asset.Msg)
  | assetInit
  | htlc (op : Htlc.Op)
  | swap (msg : Coinswap.Msg)

namespace Op

/-- An operation; messages are checked by `ValidateBasic` first. -/
def run (env : Env) (s : State) : Op → Outcome State
  | asset msg => do
    msg.validateBasic
    return { s with asset := ← Asset.handle env.params s.asset msg }
  | assetInit => do return { s with asset := ← s.asset.init }
  | htlc op => do return s.withHtlc (← op.run env.sha256 s.htlc)
  | swap msg => do
    msg.validateBasic
    return s.withBank (← msg.handle env.swap s.bank)

/-- `GetSigners`. -/
def signers : Op → List Address
  | asset msg => msg.signers
  | assetInit => []
  | htlc op => op.signers
  | swap msg => [msg.sender]

end Op

section
variable {env : Env} {s s' : State}

lemma run_asset {msg : Asset.Msg} (h : (Op.asset msg).run env s = .ok s') :
    msg.validateBasic = .ok () ∧ ∃ t, Asset.handle env.params s.asset msg = .ok t ∧
      s' = { s with asset := t } := by
  simp only [Op.run, bind_ok, pure_eq_ok] at h
  obtain ⟨_, hv, t, ht, rfl⟩ := h
  exact ⟨hv, t, ht, rfl⟩

lemma run_assetInit (h : Op.assetInit.run env s = .ok s') :
    ∃ t, s.asset.init = .ok t ∧ s' = { s with asset := t } := by
  simp only [Op.run, bind_ok, pure_eq_ok] at h
  obtain ⟨t, ht, rfl⟩ := h
  exact ⟨t, ht, rfl⟩

lemma run_htlc {op : Htlc.Op} (h : (Op.htlc op).run env s = .ok s') :
    ∃ t, op.run env.sha256 s.htlc = .ok t ∧ s' = s.withHtlc t := by
  simp only [Op.run, bind_ok, pure_eq_ok] at h
  obtain ⟨t, ht, rfl⟩ := h
  exact ⟨t, ht, rfl⟩

lemma run_swap {msg : Coinswap.Msg} (h : (Op.swap msg).run env s = .ok s') :
    msg.validateBasic = .ok () ∧ ∃ b, msg.handle env.swap s.bank = .ok b ∧ s' = s.withBank b := by
  simp only [Op.run, bind_ok, pure_eq_ok] at h
  obtain ⟨_, hv, b, hb, rfl⟩ := h
  exact ⟨hv, b, hb, rfl⟩

end
end Irishub.App
