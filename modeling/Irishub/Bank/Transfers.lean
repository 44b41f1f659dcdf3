import Irishub.Bank.Supplies

/-!
# What a transfer does to the accounts

A `MsgSend` with any lists of inputs and outputs, and a `MsgBurn`, which sends to the burning
address. The two loops of a send message write one account at a time (`Written`), so a run of
them leaves every account of the lists without zero coins and changes each balance by
what the entries of its address hold.
-/

namespace Irishub
open Lib

namespace Bank

/-- Messages that move coins. -/
inductive Transfer where
  | send (msg : MsgSend)
  | burn (msg : MsgBurn)
  deriving DecidableEq

namespace Transfer

/-- A transfer that is carried out. A send message passes `ValidateBasic` first, and the handler
sees it as that left it. -/
def deliver (b : Bank) : Transfer → Outcome Bank
  | send msg => b.deliverSend msg
  | burn msg => b.handleMsgBurn msg

def inputs : Transfer → List Input
  | send msg => msg.inputs
  | burn msg => [⟨msg.owner, msg.coins⟩]

def outputs : Transfer → List Output
  | send msg => msg.outputs
  | burn msg => [⟨burnedCoinsAccAddr, msg.coins⟩]

end Transfer

section
variable {b b' : Bank} {addr : Address} {amt : Coins} {A : Address → Prop}

def Written (b b' : Bank) (addr : Address) : Prop :=
  ∃ cs : StoredCoins, (∀ c ∈ cs.coins, c.amount ≠ 0) ∧
    ∀ a, b'.getCoins a = if a = addr then cs else b.getCoins a

lemma written_subtractCoins (h : b.subtractCoins addr amt = .ok b') : Written b b' addr := by
  unfold subtractCoins at h
  split_ifs at h
  · obtain ⟨newCoins, hnew, hr⟩ := bind_ok.mp h
    cases hr
    exact ⟨newCoins, nonzero_merge hnew, fun a => getCoins_setCoins addr a newCoins⟩
  · simp at h

lemma written_addCoins (h : b.addCoins addr amt = .ok b') : Written b b' addr := by
  obtain ⟨_, newCoins, hnew, haccounts⟩ := addCoins_accounts h
  refine ⟨newCoins, nonzero_merge hnew, fun a => ?_⟩
  rw [← getCoins_setCoins, getCoins, haccounts]
  rfl

/-- Accounts in `A` hold no zero coin. -/
def NonzeroOn (b : Bank) (A : Address → Prop) : Prop :=
  ∀ a, A a → ∀ c ∈ (b.getCoins a).coins, c.amount ≠ 0

lemma Written.nonzeroOn (h : Written b b' addr) (hA : b.NonzeroOn A) :
    b'.NonzeroOn (fun a => a = addr ∨ A a) := by
  obtain ⟨cs, hcs, hget⟩ := h
  intro a ha c hc
  rw [hget] at hc
  split_ifs at hc with haddr
  · exact hcs c hc
  · exact hA a (ha.resolve_left haddr) c hc

lemma nonzeroOn_of_foldlM {f : Bank → Address → Coins → Outcome Bank}
    (hf : ∀ b addr amt b', f b addr amt = .ok b' → Written b b' addr) {xs : List InOut}
    (hA : b.NonzeroOn A) (h : xs.foldlM (fun b x => f b x.address x.coins) b = .ok b') :
    b'.NonzeroOn (fun a => (∃ x ∈ xs, a = x.address) ∨ A a) := by
  induction xs generalizing b A with
  | nil =>
    cases h
    simpa using hA
  | cons x xs ih =>
    rw [List.foldlM_cons] at h
    obtain ⟨b1, h1, h⟩ := bind_ok.mp h
    have hrest := ih ((hf _ _ _ _ h1).nonzeroOn hA) h
    intro a ha
    refine hrest a ?_
    rw [List.exists_mem_cons_iff] at ha
    rcases ha with (ha | ha) | ha
    · exact .inr (.inl ha)
    · exact .inl ha
    · exact .inr (.inr ha)

lemma nonzeroOn_inputOutputCoins {inputs : List Input} {outputs : List Output}
    (h : b.inputOutputCoins inputs outputs = .ok b') :
    b'.NonzeroOn (fun a => ∃ x ∈ inputs ++ outputs, a = x.address) := by
  obtain ⟨b1, h1, h2⟩ := bind_ok.mp h
  have hnone : b.NonzeroOn (fun _ => False) := fun _ hfalse => hfalse.elim
  have htaken := nonzeroOn_of_foldlM (f := subtractCoins)
    (fun _ _ _ _ hsub => written_subtractCoins hsub) hnone h1
  have hgiven := nonzeroOn_of_foldlM (f := addCoins)
    (fun _ _ _ _ hadd => written_addCoins hadd) htaken h2
  rintro a ⟨x, hx, rfl⟩
  refine hgiven x.address ?_
  rcases List.mem_append.mp hx with hx | hx
  · exact .inr (.inl ⟨x, hx, rfl⟩)
  · exact .inl ⟨x, hx, rfl⟩

end

section
variable {b b' : Bank}

lemma Transfer.deliver_ok {t : Transfer} (h : t.deliver b = .ok b') :
    b.inputOutputCoins t.inputs t.outputs = .ok b' ∧
      ∀ d, totalOf d t.inputs = totalOf d t.outputs := by
  cases t with
  | send msg => exact deliverSend_ok h
  | burn msg =>
    obtain ⟨b1, h1, h2⟩ := bind_ok.mp h
    refine ⟨?_, fun d => rfl⟩
    simp only [inputOutputCoins, Transfer.inputs, Transfer.outputs, List.foldlM_cons,
      List.foldlM_nil, h1, h2, ok_bind, bind_pure]

/-- A transfer that succeeds keeps the sum over all accounts, leaves no negative amount, leaves
the accounts it touches sorted and without zero coins, and changes every account by its outputs
and inputs. -/
theorem transfer_conserves {t : Transfer} (h : t.deliver b = .ok b') :
    (∀ d, b'.sumOf d = b.sumOf d) ∧ (∀ a, ∀ c ∈ (b'.getCoins a).coins, 0 ≤ c.amount) ∧
      (∀ x ∈ t.inputs ++ t.outputs, (b'.getCoins x.address).coins.Sorted ∧
        ∀ c ∈ (b'.getCoins x.address).coins, c.amount ≠ 0) ∧ ∀ a d, b'.balance a d =
        b.balance a d + (amountAt a d t.outputs - amountAt a d t.inputs) := by
  obtain ⟨hmoved, htotal⟩ := Transfer.deliver_ok h
  refine ⟨fun d => ?_, fun a => (b'.getCoins a).nonneg, fun x hx => ?_, fun a d => ?_⟩
  · rw [sumOf_inputOutputCoins hmoved, htotal d]
    ring
  · exact ⟨(b'.getCoins x.address).sorted, nonzeroOn_inputOutputCoins hmoved x.address ⟨x, hx, rfl⟩⟩
  · rw [balance_inputOutputCoins hmoved]
    ring

def twoAccounts : Bank where
  accounts := (Store.empty.set 1 ⟨[⟨irisAtto, 10⟩], by decide, by decide⟩).set 2
    ⟨[⟨irisAtto, 5⟩], by decide, by decide⟩
  totalLoosenToken := .empty
  totalSupply := .empty

/-- Account 1 appears three times and gets back a part of what it sends; the last output holds a
zero coin. -/
def selfSend : MsgSend where
  inputs := [⟨1, [⟨irisAtto, 4⟩]⟩, ⟨1, [⟨irisAtto, 6⟩]⟩]
  outputs := [⟨1, [⟨irisAtto, 3⟩]⟩, ⟨2, [⟨irisAtto, 7⟩, ⟨"xyz-min", 0⟩]⟩]

theorem selfSend_conserves : ∃ b', (Transfer.send selfSend).deliver twoAccounts = .ok b' ∧
      b'.sumOf irisAtto = twoAccounts.sumOf irisAtto ∧
      b'.balance 1 irisAtto = twoAccounts.balance 1 irisAtto + (3 - 10) := by
  obtain ⟨b', h, -⟩ := of_returns (p := fun _ => true)
    (x := (Transfer.send selfSend).deliver twoAccounts) (by decide +kernel)
  obtain ⟨hsum, -, -, hbalance⟩ := transfer_conserves h
  exact ⟨b', h, hsum irisAtto, (hbalance 1 irisAtto).trans (by decide +kernel)⟩

end
end Bank
end Irishub
