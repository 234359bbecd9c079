import ChainWatch.Proofs.Mining.Broadcasts

/-!
# What a run that ends has counted

The counter of waiters that stopped before their transaction was mined and the counter of mined
transactions are meant to add up to the runs that ended. `terminal_accounting_iff` says when they
do: a run that ends has counted itself once, on the right side, unless it ends with the error of a
price that could not be made, because the latest block did not come or has no base fee. Such a run
is counted on neither side, and `missing_base_fee_uncounted` is one.
-/

namespace ChainWatch.Mining

variable {w : Waiter} {s : Surroundings} {first : Transaction}

/-! ## The two counters -/

/-- How much the counter of mined transactions grew. -/
def Trace.minedCount (trace : Trace) : Nat := trace.samples.count .mined

/-- Is the sample one of a waiter that stopped without a receipt, for whatever reason? -/
def isGiveUp : Metrics.Sample → Bool
  | .giveUp _ => true
  | _ => false

/-- How much the counter of waiters that stopped without a receipt grew, over all reasons. -/
def Trace.giveUpCount (trace : Trace) : Nat := trace.samples.countP isGiveUp

theorem Trace.minedCount_append (a b : Trace) :
    (a ++ b).minedCount = a.minedCount + b.minedCount := List.count_append

theorem Trace.giveUpCount_append (a b : Trace) :
    (a ++ b).giveUpCount = a.giveUpCount + b.giveUpCount := List.countP_append

/-! ## Ends of runs -/

def isMined : Except ChainError Verdict → Bool
  | .ok (.mined _ _) => true
  | _ => false

/-- The run has counted itself once: as mined if its transaction was, and else as stopped. -/
def Accounted (outcome : Except ChainError Verdict) (trace : Trace) : Prop :=
  trace.minedCount = (if isMined outcome then 1 else 0) ∧
    trace.giveUpCount = if isMined outcome then 0 else 1

/-- The two counters together grow by one. -/
theorem Accounted.sum_eq_one {outcome : Except ChainError Verdict} {trace : Trace}
    (h : Accounted outcome trace) : trace.minedCount + trace.giveUpCount = 1 := by
  obtain ⟨hmined, hgiveUp⟩ := h
  rw [hmined, hgiveUp]
  split <;> rfl

/-- The run ended with an error, and the latest block was the last that it asked for. -/
def StoppedUnpriced (outcome : Except ChainError Verdict) (trace : Trace) : Prop :=
  (∃ cause, outcome = .error cause) ∧ trace.calls.getLast?.map Prod.fst = some .latestBlock

theorem not_stoppedUnpriced_ok (verdict : Verdict) (trace : Trace) :
    ¬ StoppedUnpriced (.ok verdict) trace := by
  rintro ⟨⟨cause, hcause⟩, -⟩
  cases hcause

/-- A run that goes on has not counted itself. -/
theorem Reaches.uncounted {trace : Trace} {p : Position} (h : Reaches w s first trace p) :
    trace.minedCount = 0 ∧ trace.giveUpCount = 0 := by
  induction h with
  | start => exact ⟨rfl, rfl⟩
  | round reached next ih =>
    rw [Trace.minedCount_append, Trace.giveUpCount_append, ih.1, ih.2]
    cases next with
    | replaced found below priced answer => exact ⟨by simp [Trace.minedCount], rfl⟩

/-- Only a price that fails leaves a run without a count; it asked for the latest block. -/
theorem RoundEnd.accounted {p : Position} {earlier later : Trace} {ending : Ending}
    (hmined : earlier.minedCount = 0) (hgiveUp : earlier.giveUpCount = 0)
    (h : RoundEnd w s first p later (.finish ending)) :
    (Accounted ending.outcome (earlier ++ later) ∧
      ¬ StoppedUnpriced ending.outcome (earlier ++ later)) ∨
    ((earlier ++ later).minedCount = 0 ∧ (earlier ++ later).giveUpCount = 0 ∧
      StoppedUnpriced ending.outcome (earlier ++ later)) := by
  rw [Accounted, Trace.minedCount_append, Trace.giveUpCount_append, hmined, hgiveUp, Nat.zero_add,
    Nat.zero_add]
  cases h with
  | mined found => exact .inl ⟨⟨rfl, rfl⟩, not_stoppedUnpriced_ok _ _⟩
  | ceilingReached found reached => exact .inl ⟨⟨rfl, rfl⟩, not_stoppedUnpriced_ok _ _⟩
  | noRoom found below priced => exact .inl ⟨⟨rfl, rfl⟩, not_stoppedUnpriced_ok _ _⟩
  | refused found below priced answer =>
    -- the last call is the request that failed, not the one for a block
    refine .inl ⟨⟨by simp [Trace.minedCount, isMined], rfl⟩, ?_⟩
    rintro ⟨-, hlast⟩
    simp at hlast
  | @unpriced cause found below priced =>
    refine .inr ⟨rfl, rfl, ⟨cause, rfl⟩, ?_⟩
    rw [pricing_failed priced]
    simp

theorem Course.accounted {limit : Nat} {trace : Trace} {ending : Ending}
    (h : Course w s first limit trace (some (.ok ending))) :
    (Accounted ending.outcome trace ∧ ¬ StoppedUnpriced ending.outcome trace) ∨
    (trace.minedCount = 0 ∧ trace.giveUpCount = 0 ∧ StoppedUnpriced ending.outcome trace) := by
  cases h with
  | atCeiling reached => exact .inl ⟨⟨rfl, rfl⟩, not_stoppedUnpriced_ok _ _⟩
  | ended below reached rounds finish =>
    exact finish.accounted reached.uncounted.1 reached.uncounted.2

/-- A run that ends has counted itself once and on the right side, exactly if it does not end with
an error right after it asked for the latest block; and if it does, it has counted nothing. -/
theorem terminal_accounting_iff (w : Waiter) (s : Surroundings) (first : Transaction) (limit : Nat)
    (ending : Ending) (ended : (w.follow s first limit).2 = some (.ok ending)) :
    (Accounted ending.outcome (w.follow s first limit).1 ↔
      ¬ StoppedUnpriced ending.outcome (w.follow s first limit).1) ∧
    (StoppedUnpriced ending.outcome (w.follow s first limit).1 →
      (w.follow s first limit).1.minedCount = 0 ∧ (w.follow s first limit).1.giveUpCount = 0) := by
  have hcourse := follow_course w s first limit
  rw [ended] at hcourse
  rcases hcourse.accounted with ⟨haccounted, hpriced⟩ | ⟨hmined, hgiveUp, hunpriced⟩
  · exact ⟨⟨fun _ => hpriced, fun _ => haccounted⟩, fun hunpriced => absurd hunpriced hpriced⟩
  · refine ⟨⟨?_, fun hpriced => absurd hunpriced hpriced⟩, fun _ => ⟨hmined, hgiveUp⟩⟩
    intro haccounted
    have hsum := haccounted.sum_eq_one
    omega

/-- A legacy transaction that climbs to the ceiling of ten units in vain is counted as stopped. -/
theorem climbed_in_vain_accounted :
    Accounted (.ok (.gaveUp .ceilingReached
        ⟨.ofUInt64 106, .clamp 9, .clamp 21000, .legacy (.clamp 10)⟩))
      (Waiter.follow ⟨1, 1, .clamp 10⟩ (quiet none) (offering (.legacy (.clamp 3))) 7).1 := by
  refine (terminal_accounting_iff ⟨1, 1, .clamp 10⟩ (quiet none) (offering (.legacy (.clamp 3))) 7
    ⟨_, 7⟩ rfl).1.mpr ?_
  exact not_stoppedUnpriced_ok _ _

/-- A dynamic transaction whose fee cannot be raised, because the latest block has no base fee,
ends its run without a count. -/
theorem missing_base_fee_uncounted :
    (Waiter.follow ⟨10, 10, .clamp 200⟩ (quiet none)
        (offering (.dynamic (.clamp 100) (.clamp 2))) 1).2
      = some (.ok ⟨.error .baseFeeUnavailable, 10⟩) ∧
    ¬ Accounted (.error .baseFeeUnavailable)
      (Waiter.follow ⟨10, 10, .clamp 200⟩ (quiet none)
        (offering (.dynamic (.clamp 100) (.clamp 2))) 1).1 := by
  refine ⟨rfl, ?_⟩
  intro haccounted
  exact absurd haccounted.sum_eq_one (by decide)

end ChainWatch.Mining
