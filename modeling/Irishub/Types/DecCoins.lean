import Irishub.Types.Coin
import Irishub.Types.Dec

/-!
# Decimal coins

`DecCoin` and `DecCoins` of `distribution/types/dec_coin.go`. `Plus` merges two
sets and drops a denomination whose amounts cancel, but keeps a zero coin that
occurs in one of the sets only.
-/

namespace Irishub
open Lib

structure DecCoin where
  denom : String
  amount : Dec
  deriving DecidableEq

namespace DecCoin

def newDecCoinFromCoin (coin : Coin) : DecCoin := ⟨coin.denom, .newDecFromInt coin.amount⟩

def truncateDecimal (coin : DecCoin) : Outcome (Coin × DecCoin) := do
  let truncated ← coin.amount.truncateInt
  let change ← coin.amount.sub (.newDecFromInt truncated)
  return (← Coin.newCoin coin.denom truncated, ⟨coin.denom, change⟩)

end DecCoin

abbrev DecCoins := List DecCoin

namespace DecCoins

def newDecCoins (coins : Coins) : DecCoins := coins.map .newDecCoinFromCoin

/-- Loop of `Plus` while the head `a` of the first set meets the second set; `next` goes on
with the rest of the first set. -/
def plusHead (a : DecCoin) (as : DecCoins) (next : DecCoins → Outcome DecCoins) :
    DecCoins → Outcome DecCoins
  | [] => .ok (a :: as)
  | b :: bs =>
    if a.denom < b.denom then do
      return a :: (← next (b :: bs))
    else if a.denom = b.denom then do
      let amount ← a.amount.add b.amount
      let sum ← next bs
      return if amount.isZero then sum else ⟨a.denom, amount⟩ :: sum
    else do
      return b :: (← plusHead a as next bs)

def plus : DecCoins → DecCoins → Outcome DecCoins
  | [], coinsB => .ok coinsB
  | a :: as, coinsB => plusHead a as (plus as) coinsB

def negative (coins : DecCoins) : DecCoins := coins.map (fun coin => ⟨coin.denom, coin.amount.neg⟩)

def minus (coins coinsB : DecCoins) : Outcome DecCoins := coins.plus coinsB.negative

def mulDec (coins : DecCoins) (d : Dec) : Outcome DecCoins :=
  coins.mapM (fun coin => do return ⟨coin.denom, ← coin.amount.mul d⟩)

def quoDec (coins : DecCoins) (d : Dec) : Outcome DecCoins :=
  coins.mapM (fun coin => do return ⟨coin.denom, ← coin.amount.quo d⟩)

/-- `DecCoins.TruncateDecimal`: whole coins and the change that is left. -/
def truncateDecimal (coins : DecCoins) : Outcome (Coins × DecCoins) :=
  coins.foldlM (fun acc coin => do
    let (truncated, change) ← coin.truncateDecimal
    return (acc.1 ++ [truncated], ← plus acc.2 [change])) ([], [])

def isZero (coins : DecCoins) : Bool := coins.all (fun coin => coin.amount.isZero)

end DecCoins
end Irishub
