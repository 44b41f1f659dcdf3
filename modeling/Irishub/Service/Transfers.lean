import Irishub.Bank.Totals
import Irishub.Service.MinDeposit

/-!
# Service: events and transfers

A `Log` lists what happens to deposits, requests, fees and taxes. An event that moves
coins names the transfer: who pays, who is paid, and what. A log is therefore also an
account of the bank: its transfers can be replayed on a bank (`Log.pay`), and every
balance then changes by what the log credits, so that no coins move without an event.

**Results**
* `Log.balance_of_pay`: after a replay every balance has changed by what the log credits.
* `Log.sound_of_pay`: a replay of proper events keeps the bank sound.
-/

namespace Irishub.Service
open Lib List

def moduleAccounts : List Address :=
  [burnedCoinsAccAddr, serviceDepositCoinsAccAddr, serviceRequestCoinsAccAddr,
    serviceTaxCoinsAccAddr]

lemma ne_of_not_mem_moduleAccounts {a : Address} (h : a ∉ moduleAccounts) :
    a ≠ burnedCoinsAccAddr ∧ a ≠ serviceDepositCoinsAccAddr ∧ a ≠ serviceRequestCoinsAccAddr := by
  simp only [moduleAccounts, mem_cons, not_or] at h
  exact ⟨h.1, h.2.1, h.2.2.1⟩

lemma moduleAccounts_ne : serviceDepositCoinsAccAddr ≠ burnedCoinsAccAddr ∧
    serviceRequestCoinsAccAddr ≠ burnedCoinsAccAddr ∧ serviceTaxCoinsAccAddr ≠ burnedCoinsAccAddr ∧
    serviceRequestCoinsAccAddr ≠ serviceDepositCoinsAccAddr ∧
    serviceTaxCoinsAccAddr ≠ serviceDepositCoinsAccAddr ∧
    serviceTaxCoinsAccAddr ≠ serviceRequestCoinsAccAddr := by decide

/-- What happens to deposits, requests, fees and taxes. -/
inductive Event
  | deposited (key : String) (provider : Address) (coins : Coins)
  | depositRefunded (key : String) (provider : Address) (coins : Coins)
  | slashed (key : String) (coins : Coins)
  | accepted (req : SvcRequest)
  | answered (req : SvcRequest) (tax : Coins)
  | timedOut (req : SvcRequest)
  | feeRefunded (consumer : Address) (fee : Coins)
  | feeWithdrawn (provider : Address) (fee : Coins)
  | taxWithdrawn (destAddress : Address) (amount : Coins)
  deriving DecidableEq

namespace Event

/-- Key of the binding whose deposit an event changes. -/
def key? : Event → Option String
  | deposited key _ _ => some key
  | depositRefunded key _ _ => some key
  | slashed key _ => some key
  | _ => none

/-- Event that the tables of requests and fees do not record. -/
def offBook : Event → Bool
  | deposited _ _ _ => true
  | depositRefunded _ _ _ => true
  | slashed _ _ => true
  | taxWithdrawn _ _ => true
  | _ => false

def accepted? : Event → Option SvcRequest
  | accepted req => some req
  | _ => none

def answered? : Event → Option SvcRequest
  | answered req _ => some req
  | _ => none

def timedOut? : Event → Option SvcRequest
  | timedOut req => some req
  | _ => none

variable (a : Address)

/-- Fee of a request that `a` answered. -/
def earned : Event → ℤ
  | answered req _ => if req.provider = a then req.serviceFee.iris else 0
  | _ => 0

/-- Tax on the fee of a request that `a` answered. -/
def taxed : Event → ℤ
  | answered req tax => if req.provider = a then tax.iris else 0
  | _ => 0

/-- Income that `a` withdrew. -/
def withdrawn : Event → ℤ
  | feeWithdrawn provider fee => if provider = a then fee.iris else 0
  | _ => 0

/-- Fee of a request of `a` that timed out. -/
def lapsed : Event → ℤ
  | timedOut req => if req.consumer = a then req.serviceFee.iris else 0
  | _ => 0

/-- Returned fees that were paid back to `a`. -/
def refunded : Event → ℤ
  | feeRefunded consumer fee => if consumer = a then fee.iris else 0
  | _ => 0

/-- What an event adds to the deposit under a key. -/
def depositChange (key : String) : Event → ℤ
  | deposited k _ coins => if k = key then coins.iris else 0
  | depositRefunded k _ coins => if k = key then -coins.iris else 0
  | slashed k coins => if k = key then -coins.iris else 0
  | _ => 0

/-- What an event adds to the deposits. -/
def deposits : Event → ℤ
  | deposited _ _ coins => coins.iris
  | depositRefunded _ _ coins => -coins.iris
  | slashed _ coins => -coins.iris
  | _ => 0

/-- What an event adds to the fees that the module owes. -/
def fees : Event → ℤ
  | accepted req => req.serviceFee.iris
  | answered _ tax => -tax.iris
  | feeRefunded _ fee => -fee.iris
  | feeWithdrawn _ fee => -fee.iris
  | _ => 0

lemma depositChange_eq (e : Event) (key : String) :
    e.depositChange key = if e.key? = some key then e.deposits else 0 := by
  cases e <;> simp [depositChange, key?, deposits]

lemma deposits_of_key? {e : Event} (h : e.key? = none) : e.deposits = 0 := by
  cases e <;> simp_all [key?, deposits]

lemma fees_of_key? {e : Event} {key : String} (h : e.key? = some key) : e.fees = 0 := by
  cases e <;> simp_all [key?, fees]

end Event

abbrev Log := List Event

namespace Log
variable (log log' : Log)

def accepted : List SvcRequest := log.filterMap Event.accepted?

def answered : List SvcRequest := log.filterMap Event.answered?

def timedOut : List SvcRequest := log.filterMap Event.timedOut?

def total (f : Event → ℤ) : ℤ := (log.map f).sum

@[simp] lemma accepted_append : accepted (log ++ log') = accepted log ++ accepted log' :=
  filterMap_append

@[simp] lemma answered_append : answered (log ++ log') = answered log ++ answered log' :=
  filterMap_append

@[simp] lemma timedOut_append : timedOut (log ++ log') = timedOut log ++ timedOut log' :=
  filterMap_append

@[simp] lemma accepted_singleton (e : Event) : accepted [e] = e.accepted?.toList := by
  cases e <;> rfl

@[simp] lemma answered_singleton (e : Event) : answered [e] = e.answered?.toList := by
  cases e <;> rfl

@[simp] lemma timedOut_singleton (e : Event) : timedOut [e] = e.timedOut?.toList := by
  cases e <;> rfl

@[simp] lemma total_append (f : Event → ℤ) :
    total (log ++ log') f = total log f + total log' f := by
  simp [total]

@[simp] lemma total_singleton (f : Event → ℤ) (e : Event) : total [e] f = f e := by simp [total]

variable {log}

lemma total_eq_zero {f : Event → ℤ} (h : ∀ e ∈ log, f e = 0) : total log f = 0 := by
  refine sum_eq_zero (fun x hx => ?_)
  obtain ⟨e, he, rfl⟩ := mem_map.mp hx
  exact h e he

lemma total_le_total {f g : Event → ℤ} (h : ∀ e ∈ log, f e ≤ g e) : total log f ≤ total log g :=
  sum_le_sum h

lemma filterMap_eq_nil {f : Event → Option SvcRequest} (h : ∀ e ∈ log, f e = none) :
    log.filterMap f = [] :=
  filterMap_eq_nil_iff.mpr h

end Log

section
variable {log log' : Log} {bank bank' : Bank} {e : Event}

/-- Transfer of the bank. -/
structure Transfer where
  fromAddr : Address
  toAddr : Address
  coins : Coins

/-- `SendCoins` of a transfer. -/
def Transfer.run (bank : Bank) (t : Transfer) : Outcome Bank :=
  bank.sendCoins t.fromAddr t.toAddr t.coins

/-- What a transfer adds to a balance. -/
def Transfer.credit (a : Address) (denom : String) (t : Transfer) : ℤ :=
  (if a = t.toAddr then Coins.denomSum denom t.coins else 0) -
    if a = t.fromAddr then Coins.denomSum denom t.coins else 0

/-- Transfer of an event. A timeout only moves a fee from one table to another. -/
def Event.transfer? : Event → Option Transfer
  | deposited _ provider coins => some ⟨provider, serviceDepositCoinsAccAddr, coins⟩
  | depositRefunded _ provider coins => some ⟨serviceDepositCoinsAccAddr, provider, coins⟩
  | slashed _ coins => some ⟨serviceDepositCoinsAccAddr, burnedCoinsAccAddr, coins⟩
  | accepted req => some ⟨req.consumer, serviceRequestCoinsAccAddr, req.serviceFee⟩
  | answered _ tax => some ⟨serviceRequestCoinsAccAddr, serviceTaxCoinsAccAddr, tax⟩
  | timedOut _ => none
  | feeRefunded consumer fee => some ⟨serviceRequestCoinsAccAddr, consumer, fee⟩
  | feeWithdrawn provider fee => some ⟨serviceRequestCoinsAccAddr, provider, fee⟩
  | taxWithdrawn destAddress amount => some ⟨serviceTaxCoinsAccAddr, destAddress, amount⟩

/-- What an event adds to a balance. -/
def Event.credit (a : Address) (denom : String) (e : Event) : ℤ :=
  e.transfer?.elim 0 (Transfer.credit a denom)

/-- Who pays or is paid by the module is a user, and coins that may be burned are iris coins. -/
def Event.Proper : Event → Prop
  | deposited _ provider _ => provider ∉ moduleAccounts
  | depositRefunded _ provider _ => provider ∉ moduleAccounts
  | slashed _ coins => coins.IrisOnly
  | accepted req => req.consumer ∉ moduleAccounts
  | answered _ _ => True
  | timedOut _ => True
  | feeRefunded consumer _ => consumer ∉ moduleAccounts
  | feeWithdrawn provider _ => provider ∉ moduleAccounts
  | taxWithdrawn _ amount => amount.IrisOnly

lemma Event.Proper.transfer {t : Transfer} (h : e.Proper) (ht : e.transfer? = some t) :
    t.fromAddr ≠ burnedCoinsAccAddr ∧ (t.toAddr = burnedCoinsAccAddr → t.coins.Steady) := by
  obtain ⟨hdeposit, hrequest, htax, _⟩ := moduleAccounts_ne
  cases e with
  | deposited =>
    cases ht
    exact ⟨(ne_of_not_mem_moduleAccounts h).1, fun heq => absurd heq hdeposit⟩
  | accepted =>
    cases ht
    exact ⟨(ne_of_not_mem_moduleAccounts h).1, fun heq => absurd heq hrequest⟩
  | depositRefunded =>
    cases ht
    exact ⟨hdeposit, fun heq => absurd heq (ne_of_not_mem_moduleAccounts h).1⟩
  | feeRefunded | feeWithdrawn =>
    cases ht
    exact ⟨hrequest, fun heq => absurd heq (ne_of_not_mem_moduleAccounts h).1⟩
  | slashed =>
    cases ht
    exact ⟨hdeposit, fun _ => Coins.IrisOnly.steady h⟩
  | taxWithdrawn =>
    cases ht
    exact ⟨htax, fun _ => Coins.IrisOnly.steady h⟩
  | answered =>
    cases ht
    exact ⟨hrequest, fun heq => absurd heq htax⟩
  | timedOut => cases ht

/-- The two escrow accounts gain at least what an event adds to the deposits and to the fees. -/
lemma Event.Proper.le_credit (h : e.Proper) :
    e.deposits ≤ e.credit serviceDepositCoinsAccAddr irisAtto ∧
      e.fees ≤ e.credit serviceRequestCoinsAccAddr irisAtto := by
  have hne := moduleAccounts_ne
  cases e with
  | deposited | depositRefunded | accepted | feeRefunded | feeWithdrawn =>
    have huser := ne_of_not_mem_moduleAccounts h
    simp only [deposits, fees, credit, transfer?, Transfer.credit, Option.elim_some, Coins.iris]
    grind
  | slashed | answered =>
    simp only [deposits, fees, credit, transfer?, Transfer.credit, Option.elim_some, Coins.iris]
    grind
  | timedOut => exact ⟨le_rfl, le_rfl⟩
  | taxWithdrawn destAddress amount =>
    have hnonneg : 0 ≤ Coins.denomSum irisAtto amount := Coins.IrisOnly.nonneg h
    simp only [deposits, fees, credit, transfer?, Transfer.credit, Option.elim_some]
    grind

namespace Log

/-- Replay of the transfers of a log on a bank. -/
def pay (log : Log) (bank : Bank) : Outcome Bank :=
  (log.filterMap Event.transfer?).foldlM Transfer.run bank

/-- Two logs are replayed one after the other. -/
lemma pay_append (h : pay log bank = .ok bank') : pay (log ++ log') bank = pay log' bank' := by
  unfold pay at h ⊢
  rw [filterMap_append, foldlM_append, h]
  rfl

/-- Replay of an event that moves coins. -/
lemma pay_singleton {e : Event} {t : Transfer} (he : e.transfer? = some t)
    (hsend : bank.sendCoins t.fromAddr t.toAddr t.coins = .ok bank') :
    pay [e] bank = .ok bank' := by
  have hrun : Transfer.run bank t = .ok bank' := hsend
  rw [pay, filterMap_cons_some he, filterMap_nil, foldlM_cons, hrun]
  rfl

/-- After a replay every balance has changed by what the log credits. -/
lemma balance_of_pay (h : pay log bank = .ok bank') (a : Address) (denom : String) :
    bank'.balance a denom = bank.balance a denom + log.total (Event.credit a denom) := by
  induction log generalizing bank with
  | nil =>
    cases h
    simp [total]
  | cons e log ih =>
    have htotal : total (e :: log) (Event.credit a denom) =
        e.credit a denom + total log (Event.credit a denom) := by simp [total]
    rw [htotal]
    cases he : e.transfer? with
    | none =>
      have hlog : pay log bank = .ok bank' := by
        rwa [pay, filterMap_cons_none he] at h
      rw [ih hlog, Event.credit, he, Option.elim_none, zero_add]
    | some t =>
      rw [pay, filterMap_cons_some he, foldlM_cons] at h
      obtain ⟨bank1, hfirst, hlog⟩ := bind_ok.mp h
      have hbalance := Bank.balance_sendCoins hfirst a denom
      rw [ih hlog, hbalance, Event.credit, he, Option.elim_some, Transfer.credit]
      ring

/-- A replay of proper events keeps the bank sound. -/
lemma sound_of_pay (hproper : ∀ e ∈ log, e.Proper) (h : pay log bank = .ok bank')
    (hbank : bank.Sound) : bank'.Sound := by
  have hloop : Sat AnyFault Bank.Sound (pay log bank) := by
    refine Sat.foldlM _ _ hbank (fun t ht b hb => Sat.of_forall (fun b' hrun => ?_))
    obtain ⟨e, he, het⟩ := mem_filterMap.mp ht
    obtain ⟨hfrom, hto⟩ := (hproper e he).transfer het
    exact hb.sendCoins hfrom hto hrun
  exact hloop.of_ok h

/-- After a replay of proper events the escrow accounts hold what the log adds. -/
lemma escrow_of_pay (hproper : ∀ e ∈ log, e.Proper) (h : pay log bank = .ok bank') :
    bank.balance serviceDepositCoinsAccAddr irisAtto + log.total Event.deposits ≤
        bank'.balance serviceDepositCoinsAccAddr irisAtto ∧
      bank.balance serviceRequestCoinsAccAddr irisAtto + log.total Event.fees ≤
        bank'.balance serviceRequestCoinsAccAddr irisAtto := by
  have hdeposits := total_le_total (fun e he => (hproper e he).le_credit.1)
  have hfees := total_le_total (fun e he => (hproper e he).le_credit.2)
  rw [balance_of_pay h, balance_of_pay h]
  omega

end Log
end
end Irishub.Service
