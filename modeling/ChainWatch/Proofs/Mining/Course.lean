import ChainWatch.Mining.Run

/-!
# The course of a run

A run is a chain of rounds, and a round can come out in six ways. `RoundEnd` lists the six with
everything that each of them asks, counts and leads to, guards included; `round_cases` says that
every round is one of them. What holds of runs is proved from this list, and no later proof opens
`round` again.

`Reaches` collects the rounds of a run up to a position between two of them, and `Course` adds how
the run stands: stopped by a fault, never started, going on, or ended by one last round.
`follow_course` says that every run is a course.
-/

namespace ChainWatch.Mining

variable {w : Waiter} {s : Surroundings} {first : Transaction}

/-! ## Traces -/

@[simp] theorem Trace.calls_append (a b : Trace) : (a ++ b).calls = a.calls ++ b.calls := rfl

@[simp] theorem Trace.samples_append (a b : Trace) : (a ++ b).samples = a.samples ++ b.samples :=
  rfl

@[simp] theorem Trace.calls_empty : Trace.empty.calls = [] := rfl

@[simp] theorem Trace.mk_append (a c : List (Call × Nat)) (b d : List Metrics.Sample) :
    (⟨a, b⟩ : Trace) ++ ⟨c, d⟩ = ⟨a ++ c, b ++ d⟩ := rfl

theorem Trace.append_assoc (a b c : Trace) : a ++ b ++ c = a ++ (b ++ c) := by
  show Trace.mk _ _ = Trace.mk _ _
  rw [Trace.mk.injEq]
  exact ⟨List.append_assoc _ _ _, List.append_assoc _ _ _⟩

theorem Trace.append_empty (a : Trace) : a ++ Trace.empty = a := by
  show Trace.mk _ _ = a
  simp [Trace.empty]

theorem Trace.empty_append (a : Trace) : Trace.empty ++ a = a := rfl

/-! ## One round -/

/-- What the window of a round comes to. -/
def watch (w : Waiter) (s : Surroundings) (p : Position) : WindowResult :=
  window (fun n => s.receipt n p.current.hash) w.window w.poll p.now p.lookups

/-- The lookups of a round's window. -/
def watchCalls (w : Waiter) (s : Surroundings) (p : Position) : List (Call × Nat) :=
  (watch w s p).lookups.map fun time => (.lookup p.current.hash, time)

/-- The pricing that follows a window without a receipt. -/
def pricing (w : Waiter) (s : Surroundings) (p : Position) : Priced :=
  price w s p (p.now + w.window)

/-- The request for a replacement that carries `offer`. -/
def request (first : Transaction) (offer : FeeOffer) : GasOptions :=
  ⟨first.nonce, first.gasLimit, offer⟩

/-- The ways a round can come out: what was asked and counted, and what follows. -/
inductive RoundEnd (w : Waiter) (s : Surroundings) (first : Transaction) (p : Position) :
    Trace → Next → Prop where
  | mined {receipt : Receipt} {time : Nat}
      (found : (watch w s p).found = some (receipt, time)) :
      RoundEnd w s first p ⟨watchCalls w s p, [.mined]⟩
        (.finish ⟨.ok (.mined p.current receipt), time⟩)
  | ceilingReached
      (found : (watch w s p).found = none)
      (reached : w.ceiling ≤ p.current.offer.ceilingPrice) :
      RoundEnd w s first p ⟨watchCalls w s p, [.giveUp GiveUpReason.ceilingReached.label]⟩
        (.finish ⟨.ok (.gaveUp .ceilingReached p.current), p.now + w.window⟩)
  | unpriced {cause : ChainError}
      (found : (watch w s p).found = none)
      (below : p.current.offer.ceilingPrice < w.ceiling)
      (priced : (pricing w s p).pricing = .failed cause) :
      RoundEnd w s first p ⟨watchCalls w s p ++ (pricing w s p).calls, []⟩
        (.finish ⟨.error cause, (pricing w s p).now⟩)
  | noRoom {reason : GiveUpReason}
      (found : (watch w s p).found = none)
      (below : p.current.offer.ceilingPrice < w.ceiling)
      (priced : (pricing w s p).pricing = .giveUp reason) :
      RoundEnd w s first p ⟨watchCalls w s p ++ (pricing w s p).calls, [.giveUp reason.label]⟩
        (.finish ⟨.ok (.gaveUp reason p.current), (pricing w s p).now⟩)
  | refused {offer : FeeOffer} {cause : ChainError}
      (found : (watch w s p).found = none)
      (below : p.current.offer.ceilingPrice < w.ceiling)
      (priced : (pricing w s p).pricing = .offer offer)
      (answer : (s.resubmit p.resubmissions (request first offer)).answer = .error cause) :
      RoundEnd w s first p
        ⟨watchCalls w s p ++ (pricing w s p).calls
            ++ [(.resubmit (request first offer), (pricing w s p).now)],
          [.escalation offer.kind.label, .giveUp resubmissionFailedLabel]⟩
        (.finish ⟨.error (resubmissionError cause),
          (pricing w s p).now + (s.resubmit p.resubmissions (request first offer)).delay⟩)
  | replaced {offer : FeeOffer} {replacement : Transaction}
      (found : (watch w s p).found = none)
      (below : p.current.offer.ceilingPrice < w.ceiling)
      (priced : (pricing w s p).pricing = .offer offer)
      (answer : (s.resubmit p.resubmissions (request first offer)).answer = .ok replacement) :
      RoundEnd w s first p
        ⟨watchCalls w s p ++ (pricing w s p).calls
            ++ [(.resubmit (request first offer), (pricing w s p).now)],
          [.escalation offer.kind.label]⟩
        (.goOn ⟨(pricing w s p).now + (s.resubmit p.resubmissions (request first offer)).delay,
          replacement, p.lookups + (watch w s p).lookups.length, (pricing w s p).blocks,
          p.resubmissions + 1⟩)

/-- A window that comes to a receipt ends the run. -/
theorem round_of_found {p : Position} {receipt : Receipt} {time : Nat}
    (h : (watch w s p).found = some (receipt, time)) :
    round w s first p =
      (⟨watchCalls w s p, [.mined]⟩, .finish ⟨.ok (.mined p.current receipt), time⟩) := by
  rw [watch] at h
  simp only [round, h]
  rfl

/-- A window without a receipt leaves it to the price what follows. -/
theorem round_of_missed {p : Position} (h : (watch w s p).found = none) :
    round w s first p =
      (⟨watchCalls w s p, []⟩ ++ (escalate w s first p (p.now + w.window)
          (p.lookups + (watch w s p).lookups.length)).1,
        (escalate w s first p (p.now + w.window)
          (p.lookups + (watch w s p).lookups.length)).2) := by
  rw [watch] at h
  simp only [round, h]
  rfl

/-- Every round comes out in one of the six ways. -/
theorem round_cases (w : Waiter) (s : Surroundings) (first : Transaction) (p : Position) :
    RoundEnd w s first p (round w s first p).1 (round w s first p).2 := by
  cases hfound : (watch w s p).found with
  | some found =>
    rw [round_of_found hfound]
    exact .mined hfound
  | none =>
    rw [round_of_missed hfound]
    by_cases hprice : w.ceiling ≤ p.current.offer.ceilingPrice
    · simp only [escalate, if_pos hprice, giveUp, Trace.mk_append, List.append_nil,
        List.nil_append]
      exact .ceilingReached hfound hprice
    · have hbelow : p.current.offer.ceilingPrice < w.ceiling := Word.not_le.mp hprice
      have hdef : price w s p (p.now + w.window) = pricing w s p := rfl
      simp only [escalate, if_neg hprice, hdef]
      -- from here on the cases are those of the price, and then those of the caller's answer
      cases hpriced : (pricing w s p).pricing with
      | failed cause =>
        simp only [Trace.mk_append, List.append_nil]
        exact .unpriced hfound hbelow hpriced
      | giveUp reason =>
        simp only [giveUp, Trace.mk_append, List.append_nil, List.nil_append]
        exact .noRoom hfound hbelow hpriced
      | offer offer =>
        simp only [replace]
        cases hanswer : (s.resubmit p.resubmissions (request first offer)).answer with
        | error cause =>
          simp only [request] at hanswer
          simp only [hanswer, Trace.mk_append, List.nil_append, ← List.append_assoc]
          exact .refused hfound hbelow hpriced hanswer
        | ok replacement =>
          simp only [request] at hanswer
          simp only [hanswer, Trace.mk_append, List.nil_append, ← List.append_assoc]
          exact .replaced hfound hbelow hpriced hanswer

/-! ## The price of a replacement -/

/-- The ways the price of the next replacement can come out. Only a dynamic offer asks for the
latest block, and only it can come to nothing. -/
inductive PriceEnd (w : Waiter) (s : Surroundings) (p : Position) : Priced → Prop where
  | legacy {amount : Word} (current : p.current.offer = .legacy amount) :
      PriceEnd w s p
        ⟨[], .offer (.legacy (Fee.raiseLegacy amount w.ceiling)), p.now + w.window, p.blocks⟩
  | noBlock {cap tip : Word} {cause : ChainError}
      (current : p.current.offer = .dynamic cap tip)
      (answer : (s.block p.blocks).answer = .error cause) :
      PriceEnd w s p
        ⟨[(.latestBlock, p.now + w.window)], .failed cause,
          p.now + w.window + (s.block p.blocks).delay, p.blocks + 1⟩
  | noBaseFee {cap tip : Word} {header : Header}
      (current : p.current.offer = .dynamic cap tip)
      (answer : (s.block p.blocks).answer = .ok header)
      (baseFee : header.baseFee = none) :
      PriceEnd w s p
        ⟨[(.latestBlock, p.now + w.window)], .failed .baseFeeUnavailable,
          p.now + w.window + (s.block p.blocks).delay, p.blocks + 1⟩
  | noRoom {cap tip fee floor : Word} {header : Header}
      (current : p.current.offer = .dynamic cap tip)
      (answer : (s.block p.blocks).answer = .ok header)
      (baseFee : header.baseFee = some fee)
      (raised : Fee.raiseDynamic cap tip fee w.ceiling = .floorAboveCeiling floor) :
      PriceEnd w s p
        ⟨[(.latestBlock, p.now + w.window)], .giveUp .floorAboveCeiling,
          p.now + w.window + (s.block p.blocks).delay, p.blocks + 1⟩
  | dynamic {cap tip fee newCap newTip : Word} {header : Header}
      (current : p.current.offer = .dynamic cap tip)
      (answer : (s.block p.blocks).answer = .ok header)
      (baseFee : header.baseFee = some fee)
      (raised : Fee.raiseDynamic cap tip fee w.ceiling = .offer newCap newTip) :
      PriceEnd w s p
        ⟨[(.latestBlock, p.now + w.window)], .offer (.dynamic newCap newTip),
          p.now + w.window + (s.block p.blocks).delay, p.blocks + 1⟩

/-- Every pricing comes out in one of these ways. -/
theorem pricing_cases (w : Waiter) (s : Surroundings) (p : Position) :
    PriceEnd w s p (pricing w s p) := by
  cases hoffer : p.current.offer with
  | legacy amount =>
    simp only [pricing, price, hoffer]
    exact .legacy hoffer
  | dynamic cap tip =>
    simp only [pricing, price, hoffer]
    cases hanswer : (s.block p.blocks).answer with
    | error cause => exact .noBlock hoffer hanswer
    | ok header =>
      cases hfee : header.baseFee with
      | none =>
        simp only [priceFromBlock, hfee]
        exact .noBaseFee hoffer hanswer hfee
      | some fee =>
        cases hraised : Fee.raiseDynamic cap tip fee w.ceiling with
        | offer newCap newTip =>
          simp only [priceFromBlock, hfee, hraised]
          exact .dynamic hoffer hanswer hfee hraised
        | floorAboveCeiling floor =>
          simp only [priceFromBlock, hfee, hraised]
          exact .noRoom hoffer hanswer hfee hraised

/-- A price that comes out is the current one raised, and pays in the same way. -/
theorem pricing_offer {p : Position} {offer : FeeOffer}
    (priced : (pricing w s p).pricing = .offer offer) :
    (∃ amount, p.current.offer = .legacy amount ∧
      offer = .legacy (Fee.raiseLegacy amount w.ceiling)) ∨
    ∃ cap tip fee newCap newTip, p.current.offer = .dynamic cap tip ∧
      Fee.raiseDynamic cap tip fee w.ceiling = .offer newCap newTip ∧
      offer = .dynamic newCap newTip := by
  have hcases := pricing_cases w s p
  generalize pricing w s p = q at hcases priced
  cases hcases with
  | noBlock => cases priced
  | noBaseFee => cases priced
  | noRoom => cases priced
  | @legacy amount current =>
    cases priced
    exact .inl ⟨amount, current, rfl⟩
  | @dynamic cap tip fee newCap newTip header current answer baseFee raised =>
    cases priced
    exact .inr ⟨cap, tip, fee, newCap, newTip, current, raised, rfl⟩

/-- Pricing gives up on a dynamic offer only, and for one reason. -/
theorem pricing_giveUp {p : Position} {reason : GiveUpReason}
    (priced : (pricing w s p).pricing = .giveUp reason) :
    reason = .floorAboveCeiling ∧ ∃ cap tip fee floor, p.current.offer = .dynamic cap tip ∧
      Fee.raiseDynamic cap tip fee w.ceiling = .floorAboveCeiling floor := by
  have hcases := pricing_cases w s p
  generalize pricing w s p = q at hcases priced
  cases hcases with
  | legacy => cases priced
  | noBlock => cases priced
  | noBaseFee => cases priced
  | dynamic => cases priced
  | @noRoom cap tip fee floor header current answer baseFee raised =>
    cases priced
    exact ⟨rfl, cap, tip, fee, floor, current, raised⟩

/-- Pricing fails only after it asked for the latest block. -/
theorem pricing_failed {p : Position} {cause : ChainError}
    (priced : (pricing w s p).pricing = .failed cause) :
    (pricing w s p).calls = [(.latestBlock, p.now + w.window)] := by
  have hcases := pricing_cases w s p
  generalize pricing w s p = q at hcases priced
  cases hcases with
  | legacy => cases priced
  | noRoom => cases priced
  | dynamic => cases priced
  | noBlock => rfl
  | noBaseFee => rfl

/-! ## Chains of rounds -/

/-- Where a run starts. -/
def start (first : Transaction) : Position := ⟨0, first, 0, 0, 0⟩

/-- The positions between the rounds of a run, with what was asked and counted up to there. -/
inductive Reaches (w : Waiter) (s : Surroundings) (first : Transaction) :
    Trace → Position → Prop where
  | start : Reaches w s first .empty (start first)
  | round {trace later : Trace} {p q : Position} (reached : Reaches w s first trace p)
      (next : RoundEnd w s first p later (.goOn q)) : Reaches w s first (trace ++ later) q

/-- How a run can stand after at most `limit` rounds. Each round but the last one puts out one
replacement, so the replacements count the rounds. -/
inductive Course (w : Waiter) (s : Surroundings) (first : Transaction) (limit : Nat) :
    Trace → Option (Except Fault Ending) → Prop where
  | fault (zero : w.poll = 0) (below : first.offer.ceilingPrice < w.ceiling) :
      Course w s first limit .empty (some (.error .zeroPeriod))
  | atCeiling (reached : w.ceiling ≤ first.offer.ceilingPrice) :
      Course w s first limit ⟨[], [.giveUp GiveUpReason.firstAtCeiling.label]⟩
        (some (.ok ⟨.ok (.gaveUp .firstAtCeiling first), 0⟩))
  | goingOn {trace : Trace} {p : Position} (below : first.offer.ceilingPrice < w.ceiling)
      (reached : Reaches w s first trace p) (rounds : p.resubmissions = limit) :
      Course w s first limit trace none
  | ended {trace last : Trace} {p : Position} {ending : Ending}
      (below : first.offer.ceilingPrice < w.ceiling)
      (reached : Reaches w s first trace p) (rounds : p.resubmissions < limit)
      (finish : RoundEnd w s first p last (.finish ending)) :
      Course w s first limit (trace ++ last) (some (.ok ending))

/-- A round that goes on has put out one replacement. -/
theorem RoundEnd.resubmissions_succ {p q : Position} {later : Trace}
    (h : RoundEnd w s first p later (.goOn q)) : q.resubmissions = p.resubmissions + 1 := by
  cases h
  rfl

/-- The rounds from a reached position go on with the run's course. -/
theorem rounds_course (below : first.offer.ceilingPrice < w.ceiling) (left : Nat) :
    ∀ {trace : Trace} {p : Position}, Reaches w s first trace p →
      Course w s first (p.resubmissions + left) (trace ++ (rounds w s first left p).1)
        ((rounds w s first left p).2.map .ok) := by
  -- on the rounds that are left, for every position that they may start from
  induction left with
  | zero =>
    intro trace p hreached
    rw [rounds, Trace.append_empty]
    exact .goingOn below hreached rfl
  | succ left ih =>
    intro trace p hreached
    have hcases := round_cases w s first p
    rw [rounds]
    cases hround : round w s first p with
    | mk later next =>
      rw [hround] at hcases
      cases next with
      | finish ending => exact .ended below hreached (by omega) hcases
      | goOn q =>
        -- the round that went on is part of what was reached, and counts as one replacement
        have hrest := ih (.round hreached hcases)
        rw [Trace.append_assoc, hcases.resubmissions_succ] at hrest
        rw [show p.resubmissions + (left + 1) = p.resubmissions + 1 + left by omega]
        exact hrest

/-- Every run is a course. -/
theorem follow_course (w : Waiter) (s : Surroundings) (first : Transaction) (limit : Nat) :
    Course w s first limit (w.follow s first limit).1 (w.follow s first limit).2 := by
  by_cases hprice : w.ceiling ≤ first.offer.ceilingPrice
  · have hfault : fault? w first = none := by
      rw [fault?, if_neg]
      exact fun h => Word.not_le.mpr h.2 hprice
    simp only [Waiter.follow, hfault, run, if_pos hprice, giveUp]
    exact .atCeiling hprice
  · have hbelow : first.offer.ceilingPrice < w.ceiling := Word.not_le.mp hprice
    by_cases hpoll : w.poll = 0
    · simp only [Waiter.follow, fault?, if_pos (And.intro hpoll hbelow)]
      exact .fault hpoll hbelow
    · -- from here on the run is its rounds, and nothing has been asked before them
      have hfault : fault? w first = none := by
        rw [fault?, if_neg]
        exact fun h => hpoll h.1
      simp only [Waiter.follow, hfault, run, if_neg hprice]
      have hrounds := rounds_course hbelow limit (s := s) .start
      rwa [Trace.empty_append, show (start first).resubmissions + limit = limit from
        Nat.zero_add _] at hrounds

/-! ## More rounds do not change a run that has ended -/

theorem rounds_mono {p : Position} {trace : Trace} {ending : Ending} {limit : Nat}
    (h : rounds w s first limit p = (trace, some ending)) (more : Nat) :
    rounds w s first (limit + more) p = (trace, some ending) := by
  induction limit generalizing p trace with
  | zero => simp [rounds] at h
  | succ limit ih =>
    rw [Nat.succ_add, rounds]
    rw [rounds] at h
    cases hround : round w s first p with
    | mk later next =>
      rw [hround] at h
      cases next with
      | finish last => exact h
      | goOn q =>
        cases hrest : rounds w s first limit q with
        | mk rest outcome =>
          simp only [hrest, Prod.mk.injEq] at h
          obtain ⟨rfl, rfl⟩ := h
          simp only [ih hrest]

/-- A run that has ended within some rounds is the same within more. -/
theorem follow_mono {limit : Nat} (h : (w.follow s first limit).2.isSome) (more : Nat) :
    w.follow s first (limit + more) = w.follow s first limit := by
  cases hfault : fault? w first with
  | some cause => simp only [Waiter.follow, hfault]
  | none =>
    by_cases hprice : w.ceiling ≤ first.offer.ceilingPrice
    · simp only [Waiter.follow, hfault, run, if_pos hprice]
    · simp only [Waiter.follow, hfault, run, if_neg hprice, Option.isSome_map] at h ⊢
      obtain ⟨ending, hending⟩ := Option.isSome_iff_exists.mp h
      have hrounds : rounds w s first limit (start first)
          = ((rounds w s first limit (start first)).1, some ending) := by
        rw [← hending]
        rfl
      rw [start] at hrounds
      rw [rounds_mono hrounds more, ← hrounds]

end ChainWatch.Mining
