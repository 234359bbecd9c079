import ChainWatch.Proofs.Fee.Escalation
import Mathlib.Tactic.Ring
import Mathlib.Order.Monotone.Defs

/-!
# How soon a raised price reaches a ceiling

Nothing but the ceiling ends the raising of a price, so the number of raises is bounded only
because prices grow geometrically, and that through rounding: a price of one or two units grows by
a single unit, and a fee cap is rounded down after its tenth is added.

* `growth` is the least that one raise makes of a price below the ceiling, in unbounded integers;
  `growth_raiseLegacy` and `growth_leastReplacementCap` tie it to the words.
* `leastAfter` iterates it from zero. Measured from `slack`, the share that rounding can eat, each
  step multiplies the price by at least `gain / base` (`gain_mul_le`).
* `highestCeiling_le_leastAfter`: after `mostRaises` steps the price has reached every ceiling
  that settings can ask for, namely 400 steps of a fifth or 700 steps of a tenth.
-/

namespace ChainWatch
namespace Fee

/-- The least price that follows `price` where no ceiling is in the way. -/
def growth : FeeKind → Nat → Nat
  | .legacy, price => max ((6 * price + 2) / 5) (price + 1)
  | .dynamic, cap => max (cap + cap / 10) (cap + 1)

theorem growth_mono (kind : FeeKind) : Monotone (growth kind) := by
  intro a b h
  cases kind <;> simp only [growth] <;> omega

theorem lt_growth (kind : FeeKind) (price : Nat) : price < growth kind price := by
  cases kind <;> simp only [growth] <;> omega

/-- Far from the largest word, a raised legacy price is its growth cut at the ceiling. -/
theorem growth_raiseLegacy (price ceiling : Word) (h : 6 * price.toNat + 2 < Word.size) :
    (raiseLegacy price ceiling).toNat = min (growth .legacy price.toNat) ceiling.toNat := by
  have hbump : (bump price).toNat = growth .legacy price.toNat := by
    rw [toNat_bump, growth, Nat.mul_comm 6]
    rw [Nat.min_eq_left, Nat.min_eq_left, Nat.min_eq_left]
    all_goals omega
  rw [toNat_raiseLegacy, hbump]

/-- Far from the largest word, the least replacement cap is the growth of the cap. -/
theorem growth_leastReplacementCap (cap : Word) (h : 2 * cap.toNat + 1 < Word.size) :
    (leastReplacementCap cap).toNat = growth .dynamic cap.toNat := by
  rw [toNat_leastReplacementCap, growth]
  omega

/-! ## Many raises -/

/-- The least price after so many raises, from any price to start with. -/
def leastAfter (kind : FeeKind) : Nat → Nat
  | 0 => 0
  | n + 1 => growth kind (leastAfter kind n)

theorem le_leastAfter (kind : FeeKind) (n : Nat) : n ≤ leastAfter kind n := by
  induction n with
  | zero => exact Nat.zero_le _
  | succ n ih =>
    have hgrow := lt_growth kind (leastAfter kind n)
    rw [leastAfter]
    omega

theorem leastAfter_mono (kind : FeeKind) : Monotone (leastAfter kind) :=
  monotone_nat_of_le_succ fun n => (lt_growth kind (leastAfter kind n)).le

/-- A raise multiplies what lies above the slack by `gain / base`. -/
def gain : FeeKind → Nat
  | .legacy => 6
  | .dynamic => 11

def base : FeeKind → Nat
  | .legacy => 5
  | .dynamic => 10

/-- The part of a price whose growth rounding can eat. -/
def slack : FeeKind → Nat
  | .legacy => 2
  | .dynamic => 9

theorem gain_mul_le (kind : FeeKind) (price : Nat) :
    gain kind * (price - slack kind) ≤ (growth kind price - slack kind) * base kind := by
  cases kind <;> simp only [gain, base, slack, growth] <;> omega

/-- Above the slack the least price grows geometrically. -/
theorem pow_le_leastAfter (kind : FeeKind) (k : Nat) :
    gain kind ^ k ≤ (leastAfter kind (slack kind + 1 + k) - slack kind) * base kind ^ k := by
  induction k with
  | zero =>
    -- the first raises add one unit each at least, which takes the price just above the slack
    have hstart := le_leastAfter kind (slack kind + 1)
    simp only [Nat.pow_zero, Nat.mul_one, Nat.add_zero]
    omega
  | succ k ih =>
    set price := leastAfter kind (slack kind + 1 + k) with hprice
    have hnext : leastAfter kind (slack kind + 1 + (k + 1)) = growth kind price := rfl
    calc gain kind ^ (k + 1)
        = gain kind * gain kind ^ k := by ring
      _ ≤ gain kind * ((price - slack kind) * base kind ^ k) := Nat.mul_le_mul_left _ ih
      _ = gain kind * (price - slack kind) * base kind ^ k := by ring
      _ ≤ (growth kind price - slack kind) * base kind * base kind ^ k :=
          Nat.mul_le_mul_right _ (gain_mul_le kind price)
      _ = (growth kind price - slack kind) * base kind ^ (k + 1) := by ring
      _ = _ := by rw [hnext]

/-! ## Every ceiling is reached -/

/-- The highest ceiling that settings can ask for: as many gwei as 64 bits can count. -/
def highestCeiling : Nat := (2 ^ 64 - 1) * 10 ^ 9

/-- Below every ceiling that settings can ask for, words have room for a raise. -/
theorem highestCeiling_lt_size : 6 * highestCeiling + 2 < Word.size := by decide

/-- So many raises reach the highest ceiling from any price. -/
def mostRaises : FeeKind → Nat
  | .legacy => 400
  | .dynamic => 700

/-- After the first raises, which lift the price above the slack, geometric growth takes the
rest. -/
theorem highestCeiling_mul_le (kind : FeeKind) :
    ∃ k, slack kind + 1 + k = mostRaises kind ∧
      highestCeiling * base kind ^ k ≤ gain kind ^ k := by
  -- both sides are closed numbers, of 2400 bits at most
  cases kind with
  | legacy => exact ⟨397, rfl, by decide +kernel⟩
  | dynamic => exact ⟨690, rfl, by decide +kernel⟩

theorem base_pos (kind : FeeKind) : 0 < base kind := by
  cases kind <;> decide

/-- No ceiling that settings can ask for is out of reach. -/
theorem highestCeiling_le_leastAfter (kind : FeeKind) :
    highestCeiling ≤ leastAfter kind (mostRaises kind) := by
  obtain ⟨k, hk, hpow⟩ := highestCeiling_mul_le kind
  have hgrow := pow_le_leastAfter kind k
  rw [hk] at hgrow
  -- the powers of the base on both sides cancel
  have hle : highestCeiling ≤ leastAfter kind (mostRaises kind) - slack kind :=
    Nat.le_of_mul_le_mul_right (hpow.trans hgrow) (Nat.pow_pos (base_pos kind))
  omega

end Fee
end ChainWatch
