import Mathlib.Tactic.Linarith
import Mathlib.Tactic.Positivity
import Mathlib.Tactic.Ring

/-!
# Constant-product pools with integer rounding

A pool holds `x` and `y` units of two assets and has issued `shares` claims on
them. The value of one share is measured by `x * y / shares ^ 2`, and
`ValueLE p q` compares two pools without dividing.

The amounts of swaps, with a fee factor `num / den ≤ 1` on the input, of deposits and
of withdrawals are rounded in the pool's favour: `Step` collects the moves they allow
and `Step.valueLE` shows that none of them lowers the value of a share.
-/

namespace Irishub.Lib

/-- Two reserves and the number of claims on them. -/
structure Reserves where
  x : ℤ
  y : ℤ
  shares : ℤ
  deriving DecidableEq

namespace Reserves

def Positive (p : Reserves) : Prop := 0 < p.x ∧ 0 < p.y ∧ 0 < p.shares

/-- Value of a share of `q` is at least that of a share of `p`. -/
def ValueLE (p q : Reserves) : Prop :=
  p.x * p.y * q.shares ^ 2 ≤ q.x * q.y * p.shares ^ 2

lemma ValueLE.refl (p : Reserves) : ValueLE p p := le_rfl

lemma ValueLE.trans {p q r : Reserves} (hp : 0 < p.shares) (hq : 0 < q.shares)
    (hpq : ValueLE p q) (hqr : ValueLE q r) : ValueLE p r := by
  have h1 : p.x * p.y * q.shares ^ 2 * r.shares ^ 2 ≤ q.x * q.y * p.shares ^ 2 * r.shares ^ 2 :=
    mul_le_mul_of_nonneg_right hpq (by positivity)
  have h2 : q.x * q.y * r.shares ^ 2 * p.shares ^ 2 ≤ r.x * r.y * q.shares ^ 2 * p.shares ^ 2 :=
    mul_le_mul_of_nonneg_right hqr (by positivity)
  have hq2 : 0 < q.shares ^ 2 := by positivity
  refine le_of_mul_le_mul_right ?_ hq2
  calc p.x * p.y * r.shares ^ 2 * q.shares ^ 2
      = p.x * p.y * q.shares ^ 2 * r.shares ^ 2 := by ring
    _ ≤ q.x * q.y * p.shares ^ 2 * r.shares ^ 2 := h1
    _ = q.x * q.y * r.shares ^ 2 * p.shares ^ 2 := by ring
    _ ≤ r.x * r.y * q.shares ^ 2 * p.shares ^ 2 := h2
    _ = r.x * r.y * p.shares ^ 2 * q.shares ^ 2 := by ring

end Reserves

section
variable {x y num den : ℤ} {dx dy : ℤ}

/-- Output bought for the exact input `dx`. -/
def inputPrice (x y num den dx : ℤ) : ℤ := dx * num * y / (x * den + dx * num)

/-- Input paid for the exact output `dy`. -/
def outputPrice (x y num den dy : ℤ) : ℤ := x * dy * den / ((y - dy) * num) + 1

lemma inputPrice_bounds (hx : 0 < x) (hy : 0 < y) (hnum : 0 < num) (hle : num ≤ den)
    (hdx : 0 ≤ dx) : 0 ≤ inputPrice x y num den dx ∧ inputPrice x y num den dx < y := by
  have hden : 0 < den := lt_of_lt_of_le hnum hle
  have hpos : 0 < x * den + dx * num := by positivity
  constructor
  · exact Int.ediv_nonneg (by positivity) hpos.le
  · refine Int.ediv_lt_of_lt_mul hpos ?_
    have hxd : 0 < y * (x * den) := by positivity
    calc dx * num * y < y * (x * den) + dx * num * y := by linarith
      _ = y * (x * den + dx * num) := by ring

lemma product_le_inputPrice (hx : 0 < x) (hy : 0 < y) (hnum : 0 < num) (hle : num ≤ den)
    (hdx : 0 ≤ dx) : x * y ≤ (x + dx) * (y - inputPrice x y num den dx) := by
  have hden : 0 < den := lt_of_lt_of_le hnum hle
  have hpos : 0 < x * den + dx * num := by positivity
  have hlt := (inputPrice_bounds hx hy hnum hle hdx).2
  have hfloor : inputPrice x y num den dx * (x * den + dx * num) ≤ dx * num * y :=
    Int.ediv_mul_le _ hpos.ne'
  generalize inputPrice x y num den dx = dy at hlt hfloor ⊢
  have hfee : dx * num * (y - dy) ≤ dx * den * (y - dy) :=
    mul_le_mul_of_nonneg_right (mul_le_mul_of_nonneg_left hle hdx) (by linarith)
  refine le_of_mul_le_mul_right ?_ hden
  calc x * y * den ≤ (x * den + dx * num) * (y - dy) := by linarith
    _ = x * den * (y - dy) + dx * num * (y - dy) := by ring
    _ ≤ x * den * (y - dy) + dx * den * (y - dy) := by linarith
    _ = (x + dx) * (y - dy) * den := by ring

lemma outputPrice_pos (hx : 0 < x) (hnum : 0 < num) (hle : num ≤ den) (hdy : 0 ≤ dy)
    (hlt : dy < y) : 0 < outputPrice x y num den dy := by
  have hden : 0 < den := lt_of_lt_of_le hnum hle
  have hpos : 0 < (y - dy) * num := mul_pos (by linarith) hnum
  have : 0 ≤ x * dy * den / ((y - dy) * num) := Int.ediv_nonneg (by positivity) hpos.le
  unfold outputPrice
  linarith

lemma product_le_outputPrice (hx : 0 < x) (hnum : 0 < num) (hle : num ≤ den)
    (hdy : 0 ≤ dy) (hlt : dy < y) : x * y ≤ (x + outputPrice x y num den dy) * (y - dy) := by
  have hden : 0 < den := lt_of_lt_of_le hnum hle
  have hrest : 0 < y - dy := by linarith
  have hpos : 0 < (y - dy) * num := mul_pos hrest hnum
  have hdx := outputPrice_pos hx hnum hle hdy hlt
  have hceil : x * dy * den < outputPrice x y num den dy * ((y - dy) * num) :=
    Int.lt_ediv_add_one_mul_self _ hpos
  generalize outputPrice x y num den dy = dx at hdx hceil ⊢
  have hfee : dx * (y - dy) * num ≤ dx * (y - dy) * den :=
    mul_le_mul_of_nonneg_left hle (by positivity)
  have hmul : x * dy * den ≤ dx * (y - dy) * den := by linarith
  have : x * dy ≤ dx * (y - dy) := le_of_mul_le_mul_right hmul hden
  linarith

lemma le_inputPrice_iff (hx : 0 < x) (hnum : 0 < num) (hden : 0 < den)
    (hdx : 0 ≤ dx) : dy ≤ inputPrice x y num den dx ↔ x * dy * den ≤ dx * ((y - dy) * num) := by
  have hpos : 0 < x * den + dx * num := by positivity
  rw [inputPrice, Int.le_ediv_iff_mul_le hpos]
  constructor <;> intro h <;> linarith

lemma le_inputPrice_outputPrice (hx : 0 < x) (hnum : 0 < num) (hle : num ≤ den)
    (hdy : 0 ≤ dy) (hlt : dy < y) : dy ≤ inputPrice x y num den (outputPrice x y num den dy) := by
  have hden : 0 < den := lt_of_lt_of_le hnum hle
  have hpos : 0 < (y - dy) * num := mul_pos (by linarith) hnum
  rw [le_inputPrice_iff hx hnum hden (outputPrice_pos hx hnum hle hdy hlt).le]
  exact (Int.lt_ediv_add_one_mul_self _ hpos).le

lemma outputPrice_le_of_le_inputPrice (hx : 0 < x) (hnum : 0 < num) (hden : 0 < den)
    (hdx : 0 ≤ dx) (hlt : dy < y) (h : dy ≤ inputPrice x y num den dx) :
    outputPrice x y num den dy ≤ dx + 1 := by
  have hpos : 0 < (y - dy) * num := mul_pos (by linarith) hnum
  have hpaid := (le_inputPrice_iff hx hnum hden hdx).mp h
  have hfloor := Int.ediv_le_of_le_mul hpos hpaid
  unfold outputPrice
  linarith

end

lemma withdrawn_le_deposited {x y shares dx dy m : ℤ} (hx : 0 < x) (hs : 0 < shares)
    (hm : 0 ≤ m) (hy : 0 ≤ y) (hmint : m * x ≤ shares * dx) (hask : y * dx ≤ dy * x) :
    m * (x + dx) / (shares + m) ≤ dx ∧ m * (y + dy) / (shares + m) ≤ dy := by
  have hpos : 0 < shares + m := by linarith
  have hsecond : m * y ≤ shares * dy := by
    refine le_of_mul_le_mul_right ?_ hx
    calc m * y * x = m * x * y := by ring
      _ ≤ shares * dx * y := mul_le_mul_of_nonneg_right hmint hy
      _ = shares * (y * dx) := by ring
      _ ≤ shares * (dy * x) := mul_le_mul_of_nonneg_left hask hs.le
      _ = shares * dy * x := by ring
  exact ⟨Int.ediv_le_of_le_mul hpos (by linarith), Int.ediv_le_of_le_mul hpos (by linarith)⟩

namespace Reserves

/-- Moves of a pool between two positive states. -/
inductive Step : Reserves → Reserves → Prop
  /-- Both reserves move so that their product does not fall; a swap in either direction. -/
  | trade {p : Reserves} {x' y' : ℤ} (h : p.x * p.y ≤ x' * y') :
      Step p ⟨x', y', p.shares⟩
  /-- A deposit of `dx` mints at most its proportional number of shares and asks for at least
  the proportional amount of the second asset. -/
  | deposit {p : Reserves} {dx dy m : ℤ} (hdx : 0 ≤ dx) (hm : 0 ≤ m)
      (hmint : m * p.x ≤ p.shares * dx) (hask : p.y * dx ≤ dy * p.x) :
      Step p ⟨p.x + dx, p.y + dy, p.shares + m⟩
  /-- A withdrawal of `w` shares pays out at most the proportional amounts. -/
  | withdraw {p : Reserves} {dx dy w : ℤ} (hw : w ≤ p.shares)
      (hx : dx * p.shares ≤ w * p.x) (hy : dy * p.shares ≤ w * p.y) :
      Step p ⟨p.x - dx, p.y - dy, p.shares - w⟩

lemma Step.valueLE {p q : Reserves} (hp : p.Positive) (h : Step p q) : ValueLE p q := by
  obtain ⟨hx, hy, hs⟩ := hp
  cases h with
  | trade h => exact mul_le_mul_of_nonneg_right h (by positivity)
  | @deposit dx dy m hdx hm hmint hask =>
    have hx2 : 0 < p.x ^ 2 := by positivity
    -- both proportions after clearing the divisor `x`
    have hshares : (p.shares + m) * p.x ≤ p.shares * (p.x + dx) := by linarith
    have hsecond : p.y * (p.x + dx) ≤ (p.y + dy) * p.x := by linarith
    have hsquare : ((p.shares + m) * p.x) ^ 2 ≤ (p.shares * (p.x + dx)) ^ 2 :=
      pow_le_pow_left₀ (by positivity) hshares 2
    refine le_of_mul_le_mul_right ?_ hx2
    calc p.x * p.y * (p.shares + m) ^ 2 * p.x ^ 2
        = p.x * p.y * ((p.shares + m) * p.x) ^ 2 := by ring
      _ ≤ p.x * p.y * (p.shares * (p.x + dx)) ^ 2 :=
          mul_le_mul_of_nonneg_left hsquare (by positivity)
      _ = p.x * (p.x + dx) * p.shares ^ 2 * (p.y * (p.x + dx)) := by ring
      _ ≤ p.x * (p.x + dx) * p.shares ^ 2 * ((p.y + dy) * p.x) :=
          mul_le_mul_of_nonneg_left hsecond (by positivity)
      _ = (p.x + dx) * (p.y + dy) * p.shares ^ 2 * p.x ^ 2 := by ring
  | @withdraw dx dy w hw hxs hys =>
    have hrest : 0 ≤ p.shares - w := by linarith
    have hx' : p.x * (p.shares - w) ≤ (p.x - dx) * p.shares := by linarith
    have hy' : p.y * (p.shares - w) ≤ (p.y - dy) * p.shares := by linarith
    calc p.x * p.y * (p.shares - w) ^ 2
        = p.x * (p.shares - w) * (p.y * (p.shares - w)) := by ring
      _ ≤ (p.x - dx) * p.shares * ((p.y - dy) * p.shares) :=
          mul_le_mul hx' hy' (by positivity) (le_trans (by positivity) hx')
      _ = (p.x - dx) * (p.y - dy) * p.shares ^ 2 := by ring

end Reserves
end Irishub.Lib
