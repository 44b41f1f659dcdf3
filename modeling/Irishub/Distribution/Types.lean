import Irishub.Types.DecCoins

/-!
# Distribution: records

The records of `distribution/types`. Rewards are shared out by accums: an accum
grows by a power or by a number of shares in every block, and a share of a pool
is the quotient of one accum by the total accum. A total accum is brought up to
the current height only when it is used.

The community pool is kept on an account of the bank; the record's own field for
it is written by no function here and is left out.
-/

namespace Irishub.Distribution
open Lib

structure TotalAccum where
  updateHeight : ℤ
  accum : Dec
  deriving DecidableEq

def newTotalAccum (height : ℤ) : TotalAccum := ⟨height, .zero⟩

def TotalAccum.getAccum (ta : TotalAccum) (height : ℤ) (accumCreatedPerBlock : Dec) :
    Outcome Dec := do
  let blocks := height - ta.updateHeight
  assert (0 ≤ blocks) .reverseUpdate
  let accumDelta ← accumCreatedPerBlock.mulInt blocks
  ta.accum.add accumDelta

/-- `TotalAccum.UpdateForNewHeight`, which stores the value that `GetAccum` computes. -/
def TotalAccum.updateForNewHeight (ta : TotalAccum) (height : ℤ) (accumCreatedPerBlock : Dec) :
    Outcome TotalAccum := do
  return ⟨height, ← ta.getAccum height accumCreatedPerBlock⟩

structure FeePool where
  totalValAccum : TotalAccum
  valPool : DecCoins
  deriving DecidableEq

def initialFeePool : FeePool := ⟨newTotalAccum 0, []⟩

def FeePool.updateTotalValAccum (f : FeePool) (height : ℤ) (totalBondedTokens : Dec) :
    Outcome FeePool := do
  return { f with totalValAccum := ← f.totalValAccum.updateForNewHeight height totalBondedTokens }

def FeePool.getTotalValAccum (f : FeePool) (height : ℤ) (totalBondedTokens : Dec) : Outcome Dec :=
  f.totalValAccum.getAccum height totalBondedTokens

structure WithdrawContext where
  feePool : FeePool
  height : ℤ
  totalPower : Dec
  valPower : Dec
  commissionRate : Dec
  deriving DecidableEq

/-- Distribution record of a validator; its key is the operator address. -/
structure ValidatorDistInfo where
  feePoolWithdrawalHeight : ℤ
  delAccum : TotalAccum
  delPool : DecCoins
  valCommission : DecCoins
  deriving DecidableEq

def newValidatorDistInfo (currentHeight : ℤ) : ValidatorDistInfo where
  feePoolWithdrawalHeight := currentHeight
  delAccum := newTotalAccum currentHeight
  delPool := []
  valCommission := []

namespace ValidatorDistInfo

def updateTotalDelAccum (vi : ValidatorDistInfo) (height : ℤ) (totalDelShares : Dec) :
    Outcome ValidatorDistInfo := do
  return { vi with delAccum := ← vi.delAccum.updateForNewHeight height totalDelShares }

def getTotalDelAccum (vi : ValidatorDistInfo) (height : ℤ) (totalDelShares : Dec) : Outcome Dec :=
  vi.delAccum.getAccum height totalDelShares

def getValAccum (vi : ValidatorDistInfo) (height : ℤ) (valTokens : Dec) : Outcome Dec :=
  valTokens.mulInt (height - vi.feePoolWithdrawalHeight)

def takeFeePoolRewards (vi : ValidatorDistInfo) (wc : WithdrawContext) :
    Outcome (ValidatorDistInfo × FeePool) := do
  let fp ← wc.feePool.updateTotalValAccum wc.height wc.totalPower
  if fp.totalValAccum.accum.isZero then
    return ({ vi with feePoolWithdrawalHeight := wc.height }, fp)
  else
    let accum ← vi.getValAccum wc.height wc.valPower
    assert (accum ≤ fp.totalValAccum.accum) .accumGreaterThanTotal
    let product ← fp.valPool.mulDec accum
    let withdrawalTokens ← product.quoDec fp.totalValAccum.accum
    let remValPool ← fp.valPool.minus withdrawalTokens
    let commission ← withdrawalTokens.mulDec wc.commissionRate
    let afterCommission ← withdrawalTokens.minus commission
    let remAccum ← fp.totalValAccum.accum.sub accum
    let valCommission ← vi.valCommission.plus commission
    let delPool ← vi.delPool.plus afterCommission
    return ({ vi with
        feePoolWithdrawalHeight := wc.height
        delPool := delPool
        valCommission := valCommission },
      ⟨⟨fp.totalValAccum.updateHeight, remAccum⟩, remValPool⟩)

def withdrawCommission (vi : ValidatorDistInfo) (wc : WithdrawContext) :
    Outcome (ValidatorDistInfo × FeePool × DecCoins) := do
  let (vi, fp) ← vi.takeFeePoolRewards wc
  return ({ vi with valCommission := [] }, fp, vi.valCommission)

/-- `ValidatorDistInfo.CurrentPoolRewards`, which does not test the total accum for zero. -/
def currentPoolRewards (vi : ValidatorDistInfo) (wc : WithdrawContext) : Outcome DecCoins := do
  let totalValAccum ← wc.feePool.getTotalValAccum wc.height wc.totalPower
  let valAccum ← vi.getValAccum wc.height wc.valPower
  assert (valAccum ≤ totalValAccum) .accumGreaterThanTotal
  let product ← wc.feePool.valPool.mulDec valAccum
  let withdrawalTokens ← product.quoDec totalValAccum
  let commission ← withdrawalTokens.mulDec wc.commissionRate
  let afterCommission ← withdrawalTokens.minus commission
  vi.delPool.plus afterCommission

end ValidatorDistInfo

/-- Distribution record of a delegation; its key is the pair of addresses. -/
structure DelegationDistInfo where
  delPoolWithdrawalHeight : ℤ
  deriving DecidableEq

namespace DelegationDistInfo

def getDelAccum (di : DelegationDistInfo) (height : ℤ) (delegatorShares : Dec) : Outcome Dec :=
  delegatorShares.mulInt (height - di.delPoolWithdrawalHeight)

/-- `DelegationDistInfo.WithdrawRewards`. When the total accum is zero it returns early, and the
delegation's height stays where it was. -/
def withdrawRewards (di : DelegationDistInfo) (wc : WithdrawContext) (vi : ValidatorDistInfo)
    (totalDelShares delegatorShares : Dec) :
    Outcome (DelegationDistInfo × ValidatorDistInfo × FeePool × DecCoins) := do
  let vi ← vi.updateTotalDelAccum wc.height totalDelShares
  if vi.delAccum.accum.isZero then
    return (di, vi, wc.feePool, [])
  else
    let (vi, fp) ← vi.takeFeePoolRewards wc
    let accum ← di.getDelAccum wc.height delegatorShares
    let product ← vi.delPool.mulDec accum
    let withdrawalTokens ← product.quoDec vi.delAccum.accum
    let remDelPool ← vi.delPool.minus withdrawalTokens
    let remAccum ← vi.delAccum.accum.sub accum
    return (⟨wc.height⟩,
      { vi with delPool := remDelPool, delAccum := ⟨vi.delAccum.updateHeight, remAccum⟩ },
      fp, withdrawalTokens)

/-- `DelegationDistInfo.CurrentRewards`. The accum that is tested is the stored one, not the one
of the current height. -/
def currentRewards (di : DelegationDistInfo) (wc : WithdrawContext) (vi : ValidatorDistInfo)
    (totalDelShares delegatorShares : Dec) : Outcome DecCoins := do
  let totalDelAccum ← vi.getTotalDelAccum wc.height totalDelShares
  if vi.delAccum.accum.isZero then return []
  else
    let rewards ← vi.currentPoolRewards wc
    let accum ← di.getDelAccum wc.height delegatorShares
    let product ← rewards.mulDec accum
    product.quoDec totalDelAccum

end DelegationDistInfo
end Irishub.Distribution
