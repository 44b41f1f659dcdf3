import Irishub.Bank.Keeper

/-!
# Coinswap: denominations, parameters and messages

`coinswap/internal/types`: the liquidity denominations derived from a token,
the fee check, and the three messages with their `ValidateBasic`. An address
field that `ValidateBasic` requires to be non-empty is an `Address`; the
recipient of a swap may be left empty and is an `Option Address`.
-/

namespace Irishub.Coinswap
open Lib

def formatUniABSPrefix : String := "uni:"

def getUniId (denom1 denom2 : String) : Outcome String :=
  if denom1 = denom2 then fail .errEqualDenom
  else if denom1 ≠ irisAtto ∧ denom2 ≠ irisAtto then fail .errIllegalDenom
  else
    let denom := if denom1 = irisAtto then denom2 else denom1
    match getCoinNameByDenom denom with
    | none => fail .errIllegalDenom
    | some coinName => .ok (formatUniABSPrefix ++ coinName)

def checkUniDenom (uniDenom : String) : Outcome Unit :=
  require (isCoinMinDenomValid uniDenom && hasPrefix uniDenom formatUniABSPrefix) .errIllegalDenom

def checkUniId (uniId : String) : Outcome Unit :=
  require (isCoinNameValid uniId && hasPrefix uniId formatUniABSPrefix) .errIllegalUniId

def getUniDenom (uniId : String) : Outcome String := do
  checkUniId uniId
  return getCoinMinDenom uniId

def getCoinMinDenomFromUniDenom (uniDenom : String) : Outcome String := do
  checkUniDenom uniDenom
  return trimPrefix uniDenom formatUniABSPrefix

def validateFee (fee : ℚ) : Prop := 0 < fee ∧ fee < 1

instance (fee : ℚ) : Decidable (validateFee fee) := inferInstanceAs (Decidable (_ ∧ _))

structure Input where
  address : Address
  coin : Coin
  deriving DecidableEq

structure Output where
  address : Option Address
  coin : Coin
  deriving DecidableEq

structure MsgSwapOrder where
  input : Input
  output : Output
  deadline : ℤ
  isBuyOrder : Bool
  deriving DecidableEq

def MsgSwapOrder.validateBasic (msg : MsgSwapOrder) : Outcome Unit := do
  require (msg.input.coin.isValid && msg.input.coin.isPositive) .errInvalidCoins
  require (!hasPrefix msg.input.coin.denom formatUniABSPrefix) .errInvalidCoins
  require (msg.output.coin.isValid && msg.output.coin.isPositive) .errInvalidCoins
  require (!hasPrefix msg.output.coin.denom formatUniABSPrefix) .errInvalidCoins
  require (msg.input.coin.denom ≠ msg.output.coin.denom) .errEqualDenom
  require (0 < msg.deadline) .errInvalidDeadline

structure MsgAddLiquidity where
  maxToken : Coin
  exactIrisAmt : ℤ
  minLiquidity : ℤ
  deadline : ℤ
  sender : Address
  deriving DecidableEq

def MsgAddLiquidity.validateBasic (msg : MsgAddLiquidity) : Outcome Unit := do
  require (msg.maxToken.isValid && msg.maxToken.isPositive) .errInvalidCoins
  require (msg.maxToken.denom ≠ irisAtto) .errInvalidCoins
  require (!hasPrefix msg.maxToken.denom formatUniABSPrefix) .errInvalidCoins
  require (0 < msg.exactIrisAmt) .errNotPositive
  require (0 ≤ msg.minLiquidity) .errNotPositive
  require (0 < msg.deadline) .errInvalidDeadline

structure MsgRemoveLiquidity where
  minToken : ℤ
  withdrawLiquidity : Coin
  minIrisAmt : ℤ
  deadline : ℤ
  sender : Address
  deriving DecidableEq

def MsgRemoveLiquidity.validateBasic (msg : MsgRemoveLiquidity) : Outcome Unit := do
  require (0 ≤ msg.minToken) .errInvalidCoins
  require (msg.withdrawLiquidity.isValid && msg.withdrawLiquidity.isPositive) .errNotPositive
  checkUniDenom msg.withdrawLiquidity.denom
  require (0 ≤ msg.minIrisAmt) .errNotPositive
  require (0 < msg.deadline) .errInvalidDeadline

section
variable {t : String} {u : String}

/-- A token that can be pooled with iris: a valid minimum unit, neither iris-atto nor itself a
liquidity denomination. -/
structure IsToken (t : String) : Prop where
  valid : isCoinMinDenomValid t = true
  ne_iris : t ≠ irisAtto
  not_uni : hasPrefix t formatUniABSPrefix = false

def uniId (t : String) : String := formatUniABSPrefix ++ trimSuffix t minDenomSuffix

def uniDenom (t : String) : String := formatUniABSPrefix ++ t

lemma IsToken.hasSuffix (h : IsToken t) : hasSuffix t minDenomSuffix = true :=
  (hasSuffix_of_isCoinMinDenomValid h.valid h.ne_iris).1

lemma getUniId_ok {denom1 denom2 : String} (h : getUniId denom1 denom2 = .ok u) :
    ∃ coinName, getCoinNameByDenom (if denom1 = irisAtto then denom2 else denom1) = some coinName ∧
      u = formatUniABSPrefix ++ coinName := by
  unfold getUniId at h
  by_cases hsame : denom1 = denom2
  · rw [if_pos hsame] at h
    cases h
  · rw [if_neg hsame] at h
    by_cases hiris : denom1 ≠ irisAtto ∧ denom2 ≠ irisAtto
    · rw [if_pos hiris] at h
      cases h
    · rw [if_neg hiris] at h
      cases hname : getCoinNameByDenom (if denom1 = irisAtto then denom2 else denom1) with
      | none => simp [hname] at h
      | some coinName =>
        simp only [hname, Except.ok.injEq] at h
        exact ⟨coinName, rfl, h.symm⟩

lemma getUniId_iris_left (h : IsToken t) : getUniId irisAtto t = .ok (uniId t) := by
  have hname := getCoinNameByDenom_of_valid h.valid h.ne_iris
  simp [getUniId, h.ne_iris.symm, hname, uniId]

lemma getUniId_iris_right (h : IsToken t) : getUniId t irisAtto = .ok (uniId t) := by
  have hname := getCoinNameByDenom_of_valid h.valid h.ne_iris
  simp [getUniId, h.ne_iris, hname, uniId]

lemma uniId_append (h : IsToken t) : uniId t ++ minDenomSuffix = uniDenom t := by
  rw [uniId, uniDenom, String.append_assoc, append_trimSuffix h.hasSuffix]

lemma uniId_ne_iris : uniId t ≠ iris := by
  intro h
  have hpre : hasPrefix iris formatUniABSPrefix = true := by
    rw [← h]
    exact hasPrefix_append _ _
  revert hpre
  decide

lemma eq_of_getUniDenom (h : IsToken t) (hu : getUniDenom (uniId t) = .ok u) : u = uniDenom t := by
  obtain ⟨_, hcheck, hr⟩ := bind_ok.mp hu
  simp only [checkUniId, require_ok, Bool.and_eq_true] at hcheck
  simp only [pure_eq_ok] at hr
  rw [← hr, getCoinMinDenom_of_valid hcheck.1 uniId_ne_iris, uniId_append h]

lemma uniDenom_of_checkUniDenom (hu : checkUniDenom u = .ok ()) :
    u = uniDenom (trimPrefix u formatUniABSPrefix) ∧
      hasSuffix (trimPrefix u formatUniABSPrefix) minDenomSuffix = true ∧ u ≠ irisAtto ∧
        isCoinMinDenomValid u = true := by
  simp only [checkUniDenom, require_ok, Bool.and_eq_true] at hu
  have heq := append_trimPrefix hu.2
  have hne : u ≠ irisAtto := by
    rintro rfl
    exact absurd hu.2 (by decide)
  have hsuf := (hasSuffix_of_isCoinMinDenomValid hu.1 hne).1
  refine ⟨heq.symm, ?_, hne, hu.1⟩
  rw [← heq] at hsuf
  exact hasSuffix_of_append (c := '-') (r := ['m', 'i', 'n']) (by decide) (by decide) hsuf

lemma getCoinNameByDenom_uniDenom (hu : checkUniDenom u = .ok ()) :
    getCoinNameByDenom u = some (uniId (trimPrefix u formatUniABSPrefix)) := by
  obtain ⟨heq, hsuf, hne, hvalid⟩ := uniDenom_of_checkUniDenom hu
  rw [getCoinNameByDenom_of_valid hvalid hne, uniId,
    ← trimSuffix_append_of_hasSuffix formatUniABSPrefix hsuf]
  exact congrArg some (congrArg (fun s => trimSuffix s minDenomSuffix) heq)

lemma uniDenom_ne {d : String} (hd : hasPrefix d formatUniABSPrefix = false) : uniDenom t ≠ d := by
  rintro rfl
  rw [uniDenom, hasPrefix_append] at hd
  exact absurd hd (by decide)

end
end Irishub.Coinswap
