import Irishub.Bank.Totals

/-!
# Bank messages

`MsgSend` and `MsgBurn` of `bank/msgs.go` with their handlers. `ValidateBasic` of a
send message adds up its inputs and its outputs, and the addition removes zero
coins of the message itself in place; it therefore returns the message that the
handler sees. A list of coins that such a removal changes holds a coin twice
and is refused later (`deliverSend_ok`), so that a send message which is
carried out moves the coins it was signed for.
-/

namespace Irishub
open Lib Coins List

namespace Bank

/-- `Input` and `Output`: an address and coins. -/
structure InOut where
  address : Address
  coins : Coins
  deriving DecidableEq

abbrev Input := InOut

abbrev Output := InOut

structure MsgSend where
  inputs : List Input
  outputs : List Output
  deriving DecidableEq

structure MsgBurn where
  owner : Address
  coins : Coins
  deriving DecidableEq

/-- `Input.ValidateBasic` and `Output.ValidateBasic`. -/
def InOut.validateBasic (x : InOut) : Outcome Unit := do
  require (!x.coins.isEmpty) .errInvalidCoins
  require x.coins.isValid .errInvalidCoins

/-- A loop of `MsgSend.ValidateBasic`: the sum of the coins, and the list as the additions
leave it. -/
def addUp : Coins → List InOut → Outcome (Coins × List InOut)
  | total, [] => .ok (total, [])
  | total, x :: xs => do
    x.validateBasic
    let sum ← total.add x.coins
    let (sum, xs) ← addUp sum xs
    return (sum, { x with coins := Coins.afterSafeAdd total x.coins } :: xs)

/-- `MsgSend.ValidateBasic`, with the message as it is afterwards. -/
def MsgSend.validateBasic (msg : MsgSend) : Outcome MsgSend := do
  require (!msg.inputs.isEmpty) .errNoInputs
  require (!msg.outputs.isEmpty) .errNoOutputs
  let (totalIn, inputs) ← addUp [] msg.inputs
  let (totalOut, outputs) ← addUp [] msg.outputs
  require (totalIn.isEqual totalOut) .errInvalidCoins
  return ⟨inputs, outputs⟩

def MsgBurn.validateBasic (msg : MsgBurn) : Outcome Unit := do
  require (!msg.coins.isEmpty) .errInvalidCoins
  require msg.coins.isValid .errInvalidCoins

def inputOutputCoins (b : Bank) (inputs : List Input) (outputs : List Output) : Outcome Bank := do
  let b ← inputs.foldlM (fun b x => b.subtractCoins x.address x.coins) b
  outputs.foldlM (fun b x => b.addCoins x.address x.coins) b

def handleMsgSend (b : Bank) (msg : MsgSend) : Outcome Bank :=
  b.inputOutputCoins msg.inputs msg.outputs

def handleMsgBurn (b : Bank) (msg : MsgBurn) : Outcome Bank := b.burnCoins msg.owner msg.coins

def deliverSend (b : Bank) (msg : MsgSend) : Outcome Bank := do
  let msg ← msg.validateBasic
  b.handleMsgSend msg

def deliverBurn (b : Bank) (msg : MsgBurn) : Outcome Bank := do
  msg.validateBasic
  b.handleMsgBurn msg

section
variable {b b' : Bank} {xs : List InOut} {addr : Address} {amt : Coins}

/-- Amount of `d` over all entries. -/
def totalOf (d : String) (xs : List InOut) : ℤ := (xs.map (fun x => Coins.denomSum d x.coins)).sum

lemma addUp_ok {total sum : Coins} {ys : List InOut} (h : addUp total xs = .ok (sum, ys)) :
    (∀ d, Coins.denomSum d sum = Coins.denomSum d total + totalOf d xs) ∧
      ((∀ y ∈ ys, y.coins.isValid = true) → ys = xs) := by
  induction xs generalizing total sum ys with
  | nil =>
    cases h
    exact ⟨fun d => by simp [totalOf], fun _ => rfl⟩
  | cons x xs ih =>
    simp only [addUp, bind_ok, pure_eq_ok, Prod.mk.injEq] at h
    obtain ⟨_, _, sum1, hadd, ⟨sum2, ys2⟩, hrest, rfl, rfl⟩ := h
    obtain ⟨hsum, hys⟩ := ih hrest
    refine ⟨fun d => ?_, fun hvalid => ?_⟩
    · simp only [Coins.add, bind_ok, pure_eq_ok] at hadd
      obtain ⟨r, hr, _, _, rfl⟩ := hadd
      have := denomSum_safeAdd d hr
      have := hsum d
      simp only [totalOf, map_cons, sum_cons] at this ⊢
      omega
    · rw [forall_mem_cons] at hvalid
      rw [hys hvalid.2, afterSafeAdd_of_sorted (sorted_of_isValid hvalid.1).1]

lemma isValid_of_foldlM {f : Bank → Address → Coins → Outcome Bank}
    (hf : ∀ b addr amt b', f b addr amt = .ok b' → amt.isValid = true)
    (h : xs.foldlM (fun b x => f b x.address x.coins) b = .ok b') :
    ∀ x ∈ xs, x.coins.isValid = true := by
  induction xs generalizing b with
  | nil => simp
  | cons x xs ih =>
    rw [foldlM_cons] at h
    obtain ⟨b1, h1, h⟩ := bind_ok.mp h
    exact forall_mem_cons.mpr ⟨hf _ _ _ _ h1, ih h⟩

lemma isValid_of_subtractCoins (h : b.subtractCoins addr amt = .ok b') : amt.isValid = true := by
  by_contra hv
  simp [subtractCoins, hv] at h

lemma isValid_of_addCoins (h : b.addCoins addr amt = .ok b') : amt.isValid = true := by
  by_contra hv
  simp [addCoins, hv] at h

lemma deliverSend_ok {msg : MsgSend} (h : b.deliverSend msg = .ok b') :
    b.inputOutputCoins msg.inputs msg.outputs = .ok b' ∧
      ∀ d, totalOf d msg.inputs = totalOf d msg.outputs := by
  simp only [deliverSend, MsgSend.validateBasic, handleMsgSend, bind_ok, pure_eq_ok,
    require_ok] at h
  obtain ⟨_, ⟨_, _, _, _, ⟨totalIn, inputs⟩, hin, ⟨totalOut, outputs⟩, hout, _, hequal,
    rfl⟩, h⟩ := h
  obtain ⟨hsumIn, hinputs⟩ := addUp_ok hin
  obtain ⟨hsumOut, houtputs⟩ := addUp_ok hout
  obtain ⟨b1, h1, h2⟩ := bind_ok.mp h
  have hins : inputs = msg.inputs :=
    hinputs (isValid_of_foldlM (f := subtractCoins)
      (fun _ _ _ _ hsub => isValid_of_subtractCoins hsub) h1)
  have houts : outputs = msg.outputs :=
    houtputs (isValid_of_foldlM (f := addCoins) (fun _ _ _ _ hadd => isValid_of_addCoins hadd) h2)
  refine ⟨by rw [← hins, ← houts]; exact h, fun d => ?_⟩
  have hd := denomSum_of_isEqual hequal d
  rw [hsumIn, hsumOut, denomSum_nil] at hd
  omega

end

section
variable {b b' : Bank} {inputs : List Input} {outputs : List Output} {a : Address}

/-- Amount of `d` that entries of `a` hold. -/
def amountAt (a : Address) (d : String) (xs : List InOut) : ℤ :=
  (xs.map (fun x => if a = x.address then Coins.denomSum d x.coins else 0)).sum

lemma sum_of_foldlM {ι : Type} {f : Bank → ι → Outcome Bank} {m : Bank → ℤ} {w : ι → ℤ}
    {l : List ι} {s s' : Bank} (hrun : l.foldlM f s = .ok s')
    (hstep : ∀ s s' i, f s i = .ok s' → m s' = m s + w i) : m s' = m s + (l.map w).sum := by
  induction l generalizing s with
  | nil =>
    cases hrun
    simp
  | cons i l ih =>
    rw [foldlM_cons] at hrun
    obtain ⟨s1, h1, hrun⟩ := bind_ok.mp hrun
    rw [ih hrun, hstep s s1 i h1, map_cons, sum_cons, add_assoc]

lemma balance_subtractAll {xs : List Input}
    (h : xs.foldlM (fun b x => b.subtractCoins x.address x.coins) b = .ok b') (a : Address)
    (d : String) : b'.balance a d = b.balance a d - amountAt a d xs := by
  have hsum : -b'.balance a d = -b.balance a d + amountAt a d xs :=
    sum_of_foldlM (m := fun b => -b.balance a d) h
      (fun b b' x hx => by rw [balance_subtractCoins hx a d, neg_sub', sub_neg_eq_add])
  omega

lemma balance_addAll {xs : List Output}
    (h : xs.foldlM (fun b x => b.addCoins x.address x.coins) b = .ok b') (a : Address)
    (d : String) : b'.balance a d = b.balance a d + amountAt a d xs := by
  exact sum_of_foldlM (m := fun b => b.balance a d) h
    (fun _ _ _ hx => balance_addCoins hx a d)

lemma balance_inputOutputCoins
    (h : b.inputOutputCoins inputs outputs = .ok b') (a : Address) (d : String) :
    b'.balance a d = b.balance a d - amountAt a d inputs + amountAt a d outputs := by
  obtain ⟨b1, h1, h2⟩ := bind_ok.mp h
  rw [balance_addAll h2, balance_subtractAll h1]

lemma amountAt_eq_zero {xs : List InOut} (h : ∀ x ∈ xs, x.address ≠ a)
    (d : String) : amountAt a d xs = 0 := by
  refine sum_eq_zero (fun y hy => ?_)
  obtain ⟨x, hx, rfl⟩ := mem_map.mp hy
  rw [if_neg (fun heq => h x hx heq.symm)]

lemma amountAt_nonneg {xs : List InOut} (h : ∀ x ∈ xs, x.coins.isValid = true)
    (d : String) : 0 ≤ amountAt a d xs := by
  refine sum_nonneg (fun y hy => ?_)
  obtain ⟨x, hx, rfl⟩ := mem_map.mp hy
  split_ifs
  · refine denomSum_nonneg (fun c hc => ?_)
    have hvalid := (sorted_of_isValid (h x hx)).2 c hc
    simp only [Coin.isValid, Bool.and_eq_true, decide_eq_true_eq] at hvalid
    exact hvalid.1
  · exact le_rfl

lemma sumOf_subtractAll {xs : List Input}
    (h : xs.foldlM (fun b x => b.subtractCoins x.address x.coins) b = .ok b') (d : String) :
    b'.sumOf d = b.sumOf d - totalOf d xs := by
  have hsum : -b'.sumOf d = -b.sumOf d + totalOf d xs :=
    sum_of_foldlM (m := fun b => -b.sumOf d) h
      (fun b b' x hx => by rw [sumOf_subtractCoins hx d, neg_sub', sub_neg_eq_add])
  omega

lemma sumOf_addAll {xs : List Output}
    (h : xs.foldlM (fun b x => b.addCoins x.address x.coins) b = .ok b') (d : String) :
    b'.sumOf d = b.sumOf d + totalOf d xs := by
  exact sum_of_foldlM (m := fun b => b.sumOf d) h (fun _ _ _ hx => sumOf_addCoins hx d)

lemma sumOf_inputOutputCoins (h : b.inputOutputCoins inputs outputs = .ok b') (d : String) :
    b'.sumOf d = b.sumOf d - totalOf d inputs + totalOf d outputs := by
  obtain ⟨b1, h1, h2⟩ := bind_ok.mp h
  rw [sumOf_addAll h2, sumOf_subtractAll h1]

lemma sumOf_deliverSend {msg : MsgSend} (h : b.deliverSend msg = .ok b') (d : String) :
    b'.sumOf d = b.sumOf d := by
  obtain ⟨h, htotal⟩ := deliverSend_ok h
  rw [sumOf_inputOutputCoins h, htotal d]
  ring

end
end Bank
end Irishub
