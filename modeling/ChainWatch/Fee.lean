import ChainWatch.Word

/-!
# Fees: what a transaction offers, and how the offer of a stuck one is raised

A transaction offers either one gas price (legacy) or a fee cap with a tip (dynamic). Raising an
offer adds a fifth, rounded to the nearest unit and at least one unit; a dynamic replacement
follows the base fee of the latest block, but a node accepts it only if its fee cap is at least a
tenth above the cap it replaces. No raised offer passes the ceiling.
-/

namespace ChainWatch

/-- The two ways to pay for gas. -/
inductive FeeKind where
  | legacy
  | dynamic
deriving DecidableEq

/-- The name of a kind in counters and answers. -/
def FeeKind.label : FeeKind → String
  | .legacy => "legacy"
  | .dynamic => "eip1559"

/-- What a transaction offers for a unit of gas. -/
inductive FeeOffer where
  /-- One price. -/
  | legacy (price : Word)
  /-- At most `cap` in all, of which `tip` goes to the block's producer. -/
  | dynamic (cap tip : Word)
deriving DecidableEq

namespace FeeOffer

def kind : FeeOffer → FeeKind
  | legacy _ => .legacy
  | dynamic _ _ => .dynamic

/-- The most a unit of gas can cost under this offer; it is what a ceiling bounds. -/
def ceilingPrice : FeeOffer → Word
  | legacy price => price
  | dynamic cap _ => cap

/-- The most that a transaction with this gas limit can cost. -/
def maxCost (offer : FeeOffer) (gasLimit : Word) : Word := gasLimit.satMul offer.ceilingPrice

end FeeOffer

namespace Fee

/-- Six fifths of an amount, rounded to the nearest unit, and at least one unit more. -/
def bump (amount : Word) : Word :=
  max (((amount.satMul (.clamp 6)).satAdd (.clamp 2)).quotient 5) (amount.satAdd (.clamp 1))

/-- The gas price that follows `price` under a ceiling. -/
def raiseLegacy (price ceiling : Word) : Word := min (bump price) ceiling

/-- The least fee cap that a node accepts for a replacement: a tenth more, and at least one unit
more. -/
def leastReplacementCap (cap : Word) : Word :=
  max (cap.satAdd (cap.quotient 10)) (cap.satAdd (.clamp 1))

/-- What raising a dynamic offer leads to. -/
inductive Raised where
  | offer (cap tip : Word)
  /-- The ceiling lies below the least cap that a node would accept. -/
  | floorAboveCeiling (floor : Word)
deriving DecidableEq

/-- The dynamic offer that follows `cap` and `tip`: the tip is raised by a fifth, the cap is twice
the base fee and the new tip, moved up to the least replacement cap and then down to the ceiling;
the tip never exceeds the cap. -/
def raiseDynamic (cap tip baseFee ceiling : Word) : Raised :=
  let newTip := bump tip
  let floor := leastReplacementCap cap
  let wanted := ((Word.clamp 2).satMul baseFee).satAdd newTip
  let newCap := min (max wanted floor) ceiling
  if newCap < floor then .floorAboveCeiling floor else .offer newCap (min newTip newCap)

/-! ## Several steps -/

/-- The first `steps` prices that follow `price`. -/
def legacySteps (ceiling : Word) : Nat → Word → List Word
  | 0, _ => []
  | steps + 1, price =>
    let next := raiseLegacy price ceiling
    next :: legacySteps ceiling steps next

/-- The first `steps` least replacement caps that follow `cap`, each computed from the one
before. -/
def replacementCaps : Nat → Word → List Word
  | 0, _ => []
  | steps + 1, cap =>
    let next := leastReplacementCap cap
    next :: replacementCaps steps next

/-- The first `steps` offers that follow `cap` and `tip`; a floor above the ceiling ends them. -/
def dynamicSteps (baseFee ceiling : Word) : Nat → Word → Word → List Raised
  | 0, _, _ => []
  | steps + 1, cap, tip =>
    match raiseDynamic cap tip baseFee ceiling with
    | .offer newCap newTip => .offer newCap newTip :: dynamicSteps baseFee ceiling steps newCap newTip
    | .floorAboveCeiling floor => [.floorAboveCeiling floor]

/-! ## Meaning in unbounded integers -/

theorem toNat_bump (amount : Word) :
    (bump amount).toNat =
      max (min (min (amount.toNat * 6) (Word.size - 1) + 2) (Word.size - 1) / 5)
        (min (amount.toNat + 1) (Word.size - 1)) := by
  simp [bump, Word.toNat_max]

theorem toNat_leastReplacementCap (cap : Word) :
    (leastReplacementCap cap).toNat =
      max (min (cap.toNat + cap.toNat / 10) (Word.size - 1)) (min (cap.toNat + 1) (Word.size - 1)) := by
  simp [leastReplacementCap, Word.toNat_max]

end Fee

end ChainWatch
