import ChainWatch.Proofs.Fee.Escalation

/-!
# What a dynamic raise comes to, and that a node accepts it

Words are cut at the largest one, so the formula for the new cap could go wrong near the top. It
does not: the ceiling is a word, and whatever is cut off lies above it (`toNat_raisedCap`). With
that, `raiseDynamic_exact` gives both outcomes of a raise in unbounded integers.

A node accepts a replacement only if both its cap and its tip are a tenth above the old ones. The
cap is moved up to that bound, the tip is not: it is raised by a fifth and then cut to the new cap.
It still clears the bound, because a fifth is more than a tenth (`leastReplacementCap_le_bump`) and
because the new cap clears the bound of the larger old cap (`leastReplacementCap_mono`).
-/

namespace ChainWatch
namespace Fee

/-! ## The bound for replacements -/

/-- A larger fee needs a larger replacement. -/
theorem leastReplacementCap_mono {fee other : Word} (h : fee ≤ other) :
    leastReplacementCap fee ≤ leastReplacementCap other := by
  have htenth : fee.satAdd (fee.quotient 10) ≤ other.satAdd (other.quotient 10) :=
    Word.satAdd_mono h (Word.quotient_mono h 10)
  have hnext : fee.satAdd (.clamp 1) ≤ other.satAdd (.clamp 1) :=
    Word.satAdd_mono h (Word.le_refl _)
  exact Word.max_mono htenth hnext

/-- A fifth more clears the bound of a tenth more, as long as six times the amount is a word. -/
theorem leastReplacementCap_le_bump {amount : Word} (h : 6 * amount.toNat + 2 < Word.size) :
    leastReplacementCap amount ≤ bump amount := by
  rw [Word.le_def, toNat_leastReplacementCap, toNat_bump]
  omega

/-! ## The new cap -/

/-- The cap that a raise aims at: twice the base fee and the raised tip, but no less than the bound
and no more than the ceiling. -/
def raisedCap (cap tip baseFee ceiling : Word) : Word :=
  min (max (((Word.clamp 2).satMul baseFee).satAdd (bump tip)) (leastReplacementCap cap)) ceiling

/-- The new cap in unbounded integers. -/
theorem toNat_raisedCap (cap tip baseFee ceiling : Word) :
    (raisedCap cap tip baseFee ceiling).toNat =
      min ceiling.toNat
        (max (leastReplacementCap cap).toNat (2 * baseFee.toNat + (bump tip).toNat)) := by
  have hceiling := ceiling.toNat_lt
  have htwo : (Word.clamp 2).toNat = 2 := rfl
  rw [raisedCap, Word.toNat_min, Word.toNat_max, Word.toNat_satAdd, Word.toNat_satMul, htwo]
  -- what is cut off the sum or the product lies above every ceiling
  omega

theorem raiseDynamic_eq (cap tip baseFee ceiling : Word) :
    raiseDynamic cap tip baseFee ceiling =
      if raisedCap cap tip baseFee ceiling < leastReplacementCap cap then
        .floorAboveCeiling (leastReplacementCap cap)
      else
        .offer (raisedCap cap tip baseFee ceiling)
          (min (bump tip) (raisedCap cap tip baseFee ceiling)) :=
  rfl

/-- The new cap falls below the bound exactly where the ceiling does. -/
theorem raisedCap_lt_iff (cap tip baseFee ceiling : Word) :
    raisedCap cap tip baseFee ceiling < leastReplacementCap cap ↔
      ceiling < leastReplacementCap cap := by
  rw [Word.lt_def, Word.lt_def, toNat_raisedCap]
  omega

/-! ## Both outcomes -/

/-- A node takes the new offer in place of the old one, and the ceiling holds. -/
structure Acceptable (cap tip ceiling newCap newTip : Word) : Prop where
  cap_bound : leastReplacementCap cap ≤ newCap
  cap_grows : cap < newCap
  tip_bound : leastReplacementCap tip ≤ newTip
  tip_grows : tip < newTip
  tip_le_cap : newTip ≤ newCap
  cap_le_ceiling : newCap ≤ ceiling

/-- A tip that was raised by a fifth and cut to the new cap is one that a node accepts. -/
theorem Acceptable.of_raised {cap tip ceiling newCap newTip : Word}
    (htip : tip ≤ cap) (hcap : cap < ceiling) (hroom : 6 * tip.toNat + 2 < Word.size)
    (hbound : leastReplacementCap cap ≤ newCap) (hceiling : newCap ≤ ceiling)
    (hnew : newTip = min (bump tip) newCap) : Acceptable cap tip ceiling newCap newTip := by
  have hgrows : cap < leastReplacementCap cap := lt_leastReplacementCap hcap
  have hbelow : tip < ceiling := Nat.lt_of_le_of_lt htip hcap
  have htipgrows : tip < leastReplacementCap tip := lt_leastReplacementCap hbelow
  have hfifth : leastReplacementCap tip ≤ bump tip := leastReplacementCap_le_bump hroom
  have hmono : leastReplacementCap tip ≤ leastReplacementCap cap := leastReplacementCap_mono htip
  -- the tip clears its bound on either side of the cut
  have htipbound : leastReplacementCap tip ≤ newTip := by
    rw [hnew, Word.le_def, Word.toNat_min]
    exact Nat.le_min.mpr ⟨hfifth, Nat.le_trans hmono hbound⟩
  refine ⟨hbound, Nat.lt_of_lt_of_le hgrows hbound, htipbound,
    Nat.lt_of_lt_of_le htipgrows htipbound, ?_, hceiling⟩
  rw [hnew, Word.le_def, Word.toNat_min]
  exact Nat.min_le_right _ _

/-- A dynamic raise fails exactly where the bound for the cap lies above the ceiling, whatever the
base fee and the tip. Otherwise its cap and its tip are those of unbounded arithmetic, and where
the old tip was no larger than the old cap, the old cap below the ceiling and the tip not among the
largest words, a node accepts both. -/
theorem raiseDynamic_exact (cap tip baseFee ceiling : Word) :
    (∀ floor, raiseDynamic cap tip baseFee ceiling = .floorAboveCeiling floor ↔
      floor = leastReplacementCap cap ∧ ceiling < floor) ∧
    (leastReplacementCap cap ≤ ceiling →
      ∃ newCap newTip, raiseDynamic cap tip baseFee ceiling = .offer newCap newTip ∧
        newCap.toNat =
          min ceiling.toNat
            (max (leastReplacementCap cap).toNat (2 * baseFee.toNat + (bump tip).toNat)) ∧
        newTip.toNat = min (bump tip).toNat newCap.toNat) ∧
    (tip ≤ cap → cap < ceiling → 6 * tip.toNat + 2 < Word.size →
      ∀ newCap newTip, raiseDynamic cap tip baseFee ceiling = .offer newCap newTip →
        Acceptable cap tip ceiling newCap newTip) := by
  rw [raiseDynamic_eq]
  simp only [raisedCap_lt_iff]
  by_cases hfloor : ceiling < leastReplacementCap cap
  · rw [if_pos hfloor]
    refine ⟨fun floor => ⟨?_, ?_⟩, fun hroom => absurd hfloor (Nat.not_lt.mpr hroom), ?_⟩
    · rintro ⟨rfl⟩
      exact ⟨rfl, hfloor⟩
    · rintro ⟨rfl, -⟩
      rfl
    · rintro - - - newCap newTip ⟨⟩
  · rw [if_neg hfloor]
    refine ⟨fun floor => ⟨?_, ?_⟩, fun _ => ⟨_, _, rfl, toNat_raisedCap .., Word.toNat_min ..⟩, ?_⟩
    · rintro ⟨⟩
    · rintro ⟨rfl, habove⟩
      exact absurd habove hfloor
    · rintro htip hcap hroom newCap newTip ⟨rfl, rfl⟩
      refine .of_raised htip hcap hroom ?_ ?_ rfl
      · have hbound := mt (raisedCap_lt_iff cap tip baseFee ceiling).mp hfloor
        exact Nat.le_of_not_lt hbound
      · rw [Word.le_def, toNat_raisedCap]
        exact Nat.min_le_left _ _

/-- A tip of ten under a cap of ten: the raised tip is twelve, the ceiling cuts both to eleven, and
eleven is just enough. -/
theorem raiseDynamic_exact_tip_cut :
    Word.clamp 10 ≤ Word.clamp 10 ∧ Word.clamp 10 < Word.clamp 11 ∧
      6 * (Word.clamp 10).toNat + 2 < Word.size ∧
      raiseDynamic (.clamp 10) (.clamp 10) (.clamp 0) (.clamp 11)
        = .offer (.clamp 11) (.clamp 11) ∧
      Acceptable (.clamp 10) (.clamp 10) (.clamp 11) (.clamp 11) (.clamp 11) := by
  have htip : Word.clamp 10 ≤ Word.clamp 10 := by decide
  have hcap : Word.clamp 10 < Word.clamp 11 := by decide
  have hroom : 6 * (Word.clamp 10).toNat + 2 < Word.size := by decide
  have hoffer : raiseDynamic (.clamp 10) (.clamp 10) (.clamp 0) (.clamp 11)
      = .offer (.clamp 11) (.clamp 11) := by decide
  exact ⟨htip, hcap, hroom, hoffer,
    (raiseDynamic_exact _ _ _ _).2.2 htip hcap hroom _ _ hoffer⟩

end Fee
end ChainWatch
