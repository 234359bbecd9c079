import ChainWatch.Proofs.Fee.Growth
import Mathlib.Data.Rat.Floor
import Mathlib.Tactic.Linarith

/-!
# What a legacy raise comes to, and that it keeps the order of prices

A raise multiplies by six, adds two and divides by five. Far from the largest word that is six
fifths rounded to the nearest integer (`round_sixFifths`): a fifth has no half, so there are no
ties. Near the largest word the product is cut, and a cut product would be a price below the old
one; the step of one unit takes over there. Both hold in `raiseLegacy_exact`, with the ceiling that
no raise passes and the order that every raise keeps, whether or not its product is cut.
-/

namespace ChainWatch
namespace Fee

/-! ## The nearest integer -/

/-- Adding two before the division by five rounds six fifths to the nearest integer. -/
theorem round_sixFifths (price : ℕ) :
    round (6 * (price : ℚ) / 5) = ((6 * price + 2) / 5 : ℕ) := by
  set near := (6 * price + 2) / 5 with hnear
  have hlower : 5 * near ≤ 6 * price + 2 := by omega
  -- the remainder is four at most, so half a unit more than the two still stays below
  have hupper : 6 * price + 3 ≤ 5 * near + 5 := by omega
  have hlowerQ : 5 * (near : ℚ) ≤ 6 * price + 2 := by exact_mod_cast hlower
  have hupperQ : 6 * (price : ℚ) + 3 ≤ 5 * near + 5 := by exact_mod_cast hupper
  rw [round_eq, Int.floor_eq_iff]
  push_cast
  constructor
  · linarith
  · linarith

/-! ## The order of prices -/

/-- A larger amount is raised to a larger one, also where the product is cut. -/
theorem bump_mono {amount other : Word} (h : amount ≤ other) : bump amount ≤ bump other := by
  have hproduct : amount.satMul (.clamp 6) ≤ other.satMul (.clamp 6) :=
    Word.satMul_mono h (Word.le_refl _)
  have hfifth : ((amount.satMul (.clamp 6)).satAdd (.clamp 2)).quotient 5
      ≤ ((other.satMul (.clamp 6)).satAdd (.clamp 2)).quotient 5 :=
    Word.quotient_mono (Word.satAdd_mono hproduct (Word.le_refl _)) 5
  have hnext : amount.satAdd (.clamp 1) ≤ other.satAdd (.clamp 1) :=
    Word.satAdd_mono h (Word.le_refl _)
  exact Word.max_mono hfifth hnext

/-- A legacy raise stays below the ceiling, moves every price that has room, keeps the order of
prices and of ceilings, and where six times the price is a word it is the price of unbounded
arithmetic: six fifths rounded to the nearest integer, one unit more at least, and the ceiling at
most. -/
theorem raiseLegacy_exact (price ceiling : Word) :
    raiseLegacy price ceiling ≤ ceiling ∧
    (price < ceiling → price < raiseLegacy price ceiling) ∧
    (∀ other limit : Word, price ≤ other → ceiling ≤ limit →
      raiseLegacy price ceiling ≤ raiseLegacy other limit) ∧
    (6 * price.toNat + 2 < Word.size →
      ((raiseLegacy price ceiling).toNat : ℤ) =
        min (ceiling.toNat : ℤ)
          (max ((price.toNat : ℤ) + 1) (round (6 * (price.toNat : ℚ) / 5)))) := by
  refine ⟨raiseLegacy_le price ceiling, lt_raiseLegacy, ?_, ?_⟩
  · intro other limit hprice hceiling
    exact Word.min_mono (bump_mono hprice) hceiling
  · intro hroom
    rw [growth_raiseLegacy price ceiling hroom, growth, round_sixFifths]
    push_cast
    rw [min_comm, max_comm]

/-- Seven units are raised to eight, since six fifths of them are 8.4; the largest word, whose
product is cut, is not raised to less than that. -/
theorem raiseLegacy_exact_seven_and_last :
    Word.clamp 7 < Word.clamp 100 ∧ Word.clamp 7 ≤ Word.last ∧ Word.clamp 100 ≤ Word.last ∧
      6 * (Word.clamp 7).toNat + 2 < Word.size ∧
      Word.clamp 7 < raiseLegacy (.clamp 7) (.clamp 100) ∧
      raiseLegacy (.clamp 7) (.clamp 100) ≤ raiseLegacy .last .last ∧
      ((raiseLegacy (.clamp 7) (.clamp 100)).toNat : ℤ) =
        min ((Word.clamp 100).toNat : ℤ)
          (max (((Word.clamp 7).toNat : ℤ) + 1) (round (6 * ((Word.clamp 7).toNat : ℚ) / 5))) ∧
      raiseLegacy (.clamp 7) (.clamp 100) = .clamp 8 := by
  have hbelow : Word.clamp 7 < Word.clamp 100 := by decide
  have hprice : Word.clamp 7 ≤ Word.last := by decide
  have hceiling : Word.clamp 100 ≤ Word.last := by decide
  have hroom : 6 * (Word.clamp 7).toNat + 2 < Word.size := by decide
  obtain ⟨-, hgrows, hmono, hround⟩ := raiseLegacy_exact (.clamp 7) (.clamp 100)
  exact ⟨hbelow, hprice, hceiling, hroom, hgrows hbelow, hmono _ _ hprice hceiling, hround hroom,
    by decide⟩

end Fee
end ChainWatch
