import ChainWatch.Fee

/-!
# Raised offers stay between the old offer and the ceiling

What one raise does, seen from the price it starts from and the ceiling it stays below:

* a legacy price below the ceiling goes up, and never past the ceiling (`lt_raiseLegacy`,
  `raiseLegacy_le`);
* a dynamic raise either keeps the cap between the least replacement cap and the ceiling, with the
  tip under the cap, or finds that there is nothing between the two (`raiseDynamic_offer`,
  `raiseDynamic_floor`).

Words stop at the largest one, so "goes up" needs a larger word to exist. A price below some
ceiling has one, which is why the strict bounds speak of a ceiling.
-/

namespace ChainWatch
namespace Fee

/-! ## Strict growth -/

/-- A raised amount is larger, unless it was the largest word. -/
theorem lt_bump {amount ceiling : Word} (h : amount < ceiling) : amount < bump amount := by
  -- the ceiling is a word above the amount, so adding one unit is not cut
  have hroom := ceiling.toNat_lt
  rw [Word.lt_def] at h ⊢
  rw [toNat_bump]
  omega

/-- The least replacement cap is larger than the cap, unless that was the largest word. -/
theorem lt_leastReplacementCap {cap ceiling : Word} (h : cap < ceiling) :
    cap < leastReplacementCap cap := by
  have hroom := ceiling.toNat_lt
  rw [Word.lt_def] at h ⊢
  rw [toNat_leastReplacementCap]
  omega

/-! ## Legacy prices -/

theorem toNat_raiseLegacy (price ceiling : Word) :
    (raiseLegacy price ceiling).toNat = min (bump price).toNat ceiling.toNat :=
  Word.toNat_min _ _

/-- No raised price passes the ceiling. -/
theorem raiseLegacy_le (price ceiling : Word) : raiseLegacy price ceiling ≤ ceiling := by
  rw [Word.le_def, toNat_raiseLegacy]
  exact Nat.min_le_right _ _

/-- A price below the ceiling goes up. -/
theorem lt_raiseLegacy {price ceiling : Word} (h : price < ceiling) :
    price < raiseLegacy price ceiling := by
  have hbump := lt_bump h
  rw [Word.lt_def] at h hbump ⊢
  rw [toNat_raiseLegacy]
  omega

/-! ## Dynamic offers -/

/-- A dynamic raise that comes out keeps the new cap between the least replacement cap and the
ceiling, and the new tip below the new cap. -/
theorem raiseDynamic_offer {cap tip baseFee ceiling newCap newTip : Word}
    (h : raiseDynamic cap tip baseFee ceiling = .offer newCap newTip) :
    leastReplacementCap cap ≤ newCap ∧ newCap ≤ ceiling ∧ newTip ≤ newCap := by
  rw [raiseDynamic] at h
  split at h
  · cases h
  · next hfloor =>
    cases h
    rw [Word.lt_def] at hfloor
    simp only [Word.le_def, Word.toNat_min] at hfloor ⊢
    omega

/-- A dynamic raise that does not come out found the ceiling below the least replacement cap. -/
theorem raiseDynamic_floor {cap tip baseFee ceiling floor : Word}
    (h : raiseDynamic cap tip baseFee ceiling = .floorAboveCeiling floor) :
    floor = leastReplacementCap cap ∧ ceiling < leastReplacementCap cap := by
  rw [raiseDynamic] at h
  split at h
  · next hfloor =>
    cases h
    rw [Word.lt_def, Word.toNat_min, Word.toNat_max] at hfloor
    refine ⟨rfl, ?_⟩
    rw [Word.lt_def]
    omega
  · cases h

end Fee
end ChainWatch
