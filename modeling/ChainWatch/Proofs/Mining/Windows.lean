import ChainWatch.Proofs.Mining.Inclusion
import ChainWatch.Proofs.Mining.Pace

/-!
# The check windows of a run

A run is one window after another. `Waiter.openings` lists the positions from which it opens them,
and all that it asks is asked in the rounds that begin there (`calls_rounds`). What one window does
is said by `KeepsPace`: its lookups are for the transaction that was broadcast last, they follow the
schedule one at a time, there is at most one for each due time, and where none of them brings a
receipt the round goes on exactly at the end of the window.

`windows_kept` says this of every window of every run, and what follows for a node and a caller
that answer at once: the requests come a window apart, and so does the end of a run that gives up.
That end needs a window to come after. A first transaction that is priced at the ceiling has none,
and its run gives up as it starts (`given_up_at_once`).
-/

namespace ChainWatch.Mining

variable {w : Waiter} {s : Surroundings} {first : Transaction}

/-! ## The windows of a run -/

/-- The positions from which windows are opened in at most so many rounds. -/
def openings (w : Waiter) (s : Surroundings) (first : Transaction) : Nat → Position → List Position
  | 0, _ => []
  | left + 1, p =>
    p :: match (round w s first p).2 with
      | .finish _ => []
      | .goOn q => openings w s first left q

/-- The positions from which a run of at most `limit` rounds opens its windows. -/
def Waiter.openings (w : Waiter) (s : Surroundings) (first : Transaction) (limit : Nat) :
    List Position :=
  if w.ceiling ≤ first.offer.ceilingPrice then [] else Mining.openings w s first limit (start first)

/-- All that is asked is asked in one of the rounds. -/
theorem calls_rounds (left : Nat) (p : Position) :
    (rounds w s first left p).1.calls =
      (openings w s first left p).flatMap fun q => (round w s first q).1.calls := by
  induction left generalizing p with
  | zero => rfl
  | succ left ih =>
    rw [rounds, openings, List.flatMap_cons]
    cases hround : round w s first p with
    | mk later next =>
      cases next with
      | finish ending => exact (List.append_nil _).symm
      | goOn q =>
        rw [← ih q]
        rfl

/-- A window that ends the run ends it as its round does. -/
theorem rounds_of_finish {left : Nat} {p q : Position} {ending : Ending}
    (opened : q ∈ openings w s first left p) (finish : (round w s first q).2 = .finish ending) :
    (rounds w s first left p).2 = some ending := by
  induction left generalizing p with
  | zero => cases opened
  | succ left ih =>
    rw [openings, List.mem_cons] at opened
    rw [rounds]
    cases hround : round w s first p with
    | mk later next =>
      rw [hround] at opened
      rcases opened with rfl | opened
      · rw [hround] at finish
        subst finish
        rfl
      · cases next with
        | finish last => cases opened
        | goOn r => exact ih opened

/-- A window is opened from a position that the run reaches, and its round stands in the log right
behind what the position knows of. -/
theorem Reaches.opened {left : Nat} {trace : Trace} {p q : Position}
    (reached : Reaches w s first trace p) (opened : q ∈ openings w s first left p) :
    ∃ before after, Reaches w s first before q ∧
      trace.calls ++ (rounds w s first left p).1.calls
        = before.calls ++ (Mining.round w s first q).1.calls ++ after := by
  -- on the rounds that are left, from any position that the run may have reached
  induction left generalizing trace p with
  | zero => cases opened
  | succ left ih =>
    rw [openings, List.mem_cons] at opened
    rw [rounds]
    have hcases := round_cases w s first p
    cases hround : Mining.round w s first p with
    | mk later next =>
      rw [hround] at opened hcases
      rcases opened with rfl | opened
      · rw [hround]
        cases next with
        | finish ending => exact ⟨trace, [], reached, by simp⟩
        | goOn r =>
          exact ⟨trace, (rounds w s first left r).1.calls, reached, by simp [List.append_assoc]⟩
      · cases next with
        | finish ending => cases opened
        | goOn r =>
          obtain ⟨before, after, hbefore, hcalls⟩ := ih (.round reached hcases) opened
          refine ⟨before, after, hbefore, ?_⟩
          rw [← hcalls]
          simp [List.append_assoc]

/-! ## One window -/

/-- When the `k`-th lookup of a window starts, should it come to that. -/
def lookupStart (w : Waiter) (s : Surroundings) (p : Position) (k : Nat) : Nat :=
  lookupTime (fun n => s.receipt n p.current.hash) w.poll p.now p.now p.lookups k

/-- None of the lookups of a window brings a receipt by the end of the window. -/
def Receiptless (w : Waiter) (s : Surroundings) (p : Position) : Prop :=
  ∀ k time receipt, (watch w s p).lookups[k]? = some time →
    time + (s.receipt (p.lookups + k) p.current.hash).delay ≤ p.now + w.window →
    (s.receipt (p.lookups + k) p.current.hash).answer ≠ .ok (some receipt)

/-- The lookups of a window are answered at once. -/
def InstantLookups (w : Waiter) (s : Surroundings) (p : Position) : Prop :=
  ∀ k < (watch w s p).lookups.length, (s.receipt (p.lookups + k) p.current.hash).delay = 0

/-- When a round does the first thing that is not part of its window: its next call or, if there is
none, the end of the run. -/
def afterWindow (w : Waiter) (s : Surroundings) (first : Transaction) (p : Position) : Nat :=
  match (round w s first p).1.calls.drop (watch w s p).lookups.length, (round w s first p).2 with
  | (_, time) :: _, _ => time
  | [], .finish ending => ending.finished
  | [], .goOn q => q.now

/-- A window that is opened from a position does what it should. -/
structure KeepsPace (w : Waiter) (s : Surroundings) (first : Transaction) (p : Position) :
    Prop where
  /-- The receipts that its round asks for are those of the current transaction. -/
  own : (round w s first p).1.calls.filter (fun entry => entry.1.isLookup)
    = (watch w s p).lookups.map fun time => (.lookup p.current.hash, time)
  /-- They are asked for when the schedule says, and not after the end of the window. -/
  scheduled : ∀ k time, (watch w s p).lookups[k]? = some time →
    time = lookupStart w s p k ∧ time ≤ p.now + w.window
  /-- Never are two lookups under way at once. -/
  alone : ∀ k earlier later, (watch w s p).lookups[k]? = some earlier →
    (watch w s p).lookups[k + 1]? = some later →
    earlier + (s.receipt (p.lookups + k) p.current.hash).delay ≤ later
  count_le : (watch w s p).lookups.length ≤ w.window / w.poll + 1
  /-- Without a receipt no lookup is left out that the schedule has by the end of the window, and
  there are as many as there can be if all are answered at once. -/
  complete : Receiptless w s p → ∀ k,
    k < (watch w s p).lookups.length ↔ lookupStart w s p k ≤ p.now + w.window
  count_eq : Receiptless w s p → InstantLookups w s p →
    (watch w s p).lookups.length = w.window / w.poll + 1
  /-- Without a receipt the window lasts as long as it should. -/
  lasts : Receiptless w s p → afterWindow w s first p = p.now + w.window

theorem receiptless_iff {p : Position} : Receiptless w s p ↔ (watch w s p).found = none :=
  lookUntil_found_eq_none_iff.symm

/-- A price asks for a block at the end of the window, or it is there by then. -/
theorem pricing_after (p : Position) :
    (pricing w s p).calls = [(.latestBlock, p.now + w.window)] ∨
      (pricing w s p).calls = [] ∧ (pricing w s p).now = p.now + w.window ∧
        ∃ offer, (pricing w s p).pricing = .offer offer := by
  have hcases := pricing_cases w s p
  generalize pricing w s p = priced at hcases
  cases hcases with
  | legacy current => exact .inr ⟨rfl, rfl, _, rfl⟩
  | noBlock current answer => exact .inl rfl
  | noBaseFee current answer baseFee => exact .inl rfl
  | noRoom current answer baseFee raised => exact .inl rfl
  | dynamic current answer baseFee raised => exact .inl rfl

/-- The first of a price's calls and the request behind them is made at the end of the window. -/
theorem pricing_request (p : Position) (options : GasOptions) :
    ∃ call rest, (pricing w s p).calls ++ [(.resubmit options, (pricing w s p).now)]
      = (call, p.now + w.window) :: rest := by
  rcases pricing_after (w := w) (s := s) p with hblock | ⟨hnone, hnow, -⟩
  · rw [hblock]
    exact ⟨_, _, rfl⟩
  · rw [hnone, hnow]
    exact ⟨_, _, rfl⟩

theorem length_watchCalls (p : Position) :
    (watchCalls w s p).length = (watch w s p).lookups.length := List.length_map _

/-- A round whose window comes to nothing goes on at the end of the window. -/
theorem afterWindow_of_missed {p : Position} (missed : (watch w s p).found = none) :
    afterWindow w s first p = p.now + w.window := by
  have hcases := round_cases w s first p
  unfold afterWindow
  generalize (round w s first p).1 = later at hcases
  generalize (round w s first p).2 = next at hcases
  rw [← length_watchCalls]
  cases hcases with
  | mined found =>
    rw [missed] at found
    cases found
  | ceilingReached found reached => rw [List.drop_length]
  | unpriced found below priced =>
    rw [List.drop_left, pricing_failed priced]
  | noRoom found below priced =>
    rcases pricing_after (w := w) (s := s) p with hblock | ⟨-, -, offer, hoffer⟩
    · rw [List.drop_left, hblock]
    · rw [hoffer] at priced
      cases priced
  | @refused offer cause found below priced answer =>
    obtain ⟨call, rest, hfirst⟩ := pricing_request (w := w) (s := s) p (request first offer)
    rw [List.append_assoc, List.drop_left, hfirst]
  | @replaced offer replacement found below priced answer =>
    obtain ⟨call, rest, hfirst⟩ := pricing_request (w := w) (s := s) p (request first offer)
    rw [List.append_assoc, List.drop_left, hfirst]

/-- Every window does what it should. -/
theorem keepsPace (hpoll : 0 < w.poll) (p : Position) : KeepsPace w s first p where
  own := by
    -- behind the lookups of its window a round makes no others
    obtain ⟨tail, hcalls, htail⟩ := (round_cases w s first p).calls_eq
    have hothers : tail.filter (fun entry => entry.1.isLookup) = [] := by
      rw [List.filter_eq_nil_iff]
      intro entry hentry
      rw [htail entry hentry]
      exact Bool.false_ne_true
    have hlookups : (watchCalls w s p).filter (fun entry => entry.1.isLookup)
        = watchCalls w s p := by
      rw [List.filter_eq_self]
      intro entry hentry
      obtain ⟨time, -, rfl⟩ := List.mem_map.mp hentry
      rfl
    rw [hcalls, List.filter_append, hothers, hlookups, List.append_nil]
    rfl
  scheduled k time h := lookUntil_getElem? h
  alone k earlier later hearlier hlater := by
    rw [(lookUntil_getElem? hearlier).1, (lookUntil_getElem? hlater).1]
    exact answered_le_lookupTime _ _ _ _ _ _
  count_le := length_window_le hpoll
  complete receiptless :=
    lookUntil_missed_iff (deadline_lt_lastDue hpoll _ _) (receiptless_iff.mp receiptless)
  count_eq receiptless instant :=
    length_window_instant hpoll instant (receiptless_iff.mp receiptless)
  lasts receiptless := afterWindow_of_missed (receiptless_iff.mp receiptless)

/-! ## Surroundings that answer at once -/

/-- Nobody takes any time to answer. -/
structure Surroundings.Instant (s : Surroundings) : Prop where
  receipt : ∀ n hash, (s.receipt n hash).delay = 0
  block : ∀ n, (s.block n).delay = 0
  resubmit : ∀ n options, (s.resubmit n options).delay = 0

/-- A price is then made at the end of the window. -/
theorem pricing_instant (instant : s.Instant) (p : Position) :
    (pricing w s p).now = p.now + w.window := by
  have hcases := pricing_cases w s p
  generalize pricing w s p = priced at hcases
  cases hcases <;> simp [instant.block]

theorem requests_of_request (p : Position) (options : GasOptions) (time : Nat) :
    requests (watchCalls w s p ++ (pricing w s p).calls ++ [(.resubmit options, time)])
      = [(options, time)] := by
  simp

/-- The request of a round is then made at the end of its window. -/
theorem RoundEnd.requests_instant {p : Position} {later : Trace} {next : Next}
    (instant : s.Instant) (h : RoundEnd w s first p later next) :
    requests later.calls = [] ∨
      ∃ options, requests later.calls = [(options, p.now + w.window)] := by
  cases h with
  | mined found => exact .inl (by simp)
  | ceilingReached found reached => exact .inl (by simp)
  | unpriced found below priced => exact .inl (by simp)
  | noRoom found below priced => exact .inl (by simp)
  | refused found below priced answer =>
    exact .inr ⟨_, by rw [requests_of_request, pricing_instant instant]⟩
  | replaced found below priced answer =>
    exact .inr ⟨_, by rw [requests_of_request, pricing_instant instant]⟩

/-- The next window then opens at the end of the one before. -/
theorem RoundEnd.now_instant {p q : Position} {later : Trace} (instant : s.Instant)
    (h : RoundEnd w s first p later (.goOn q)) : q.now = p.now + w.window := by
  cases h with
  | replaced found below priced answer => simp [pricing_instant instant, instant.resubmit]

/-- The requests of a log come a window apart, the first one a window after the start. -/
def WindowsApart (w : Waiter) (calls : List (Call × Nat)) : Prop :=
  ∀ i options time, (requests calls)[i]? = some (options, time) → time = (i + 1) * w.window

/-- One more round leaves the requests a window apart if it starts as many windows after the start
as there were requests. -/
theorem WindowsApart.round {calls : List (Call × Nat)} {p : Position} {later : Trace} {next : Next}
    (h : WindowsApart w calls) (instant : s.Instant)
    (now : p.now = (requests calls).length * w.window) (hround : RoundEnd w s first p later next) :
    WindowsApart w (calls ++ later.calls) := by
  intro i options time hi
  rw [requests_append] at hi
  rcases hround.requests_instant instant with hnone | ⟨asked, hone⟩
  · rw [hnone, List.append_nil] at hi
    exact h i options time hi
  · rw [hone, List.getElem?_append] at hi
    split at hi
    · exact h i options time hi
    · next hlast =>
      -- the round's own request: it is the one behind all others
      obtain ⟨hindex, hentry⟩ := List.getElem?_eq_some_iff.mp hi
      rw [List.length_singleton] at hindex
      simp only [List.getElem_singleton, Prod.mk.injEq] at hentry
      have hi' : i = (requests calls).length := by omega
      rw [← hentry.2, now, hi', Nat.succ_mul]

/-- A run that goes on has made its requests a window apart, and the last one just now. -/
theorem Reaches.windowsApart {trace : Trace} {p : Position} (instant : s.Instant)
    (h : Reaches w s first trace p) :
    WindowsApart w trace.calls ∧ p.now = (requests trace.calls).length * w.window := by
  induction h with
  | start =>
    refine ⟨fun i options time hi => ?_, (Nat.zero_mul _).symm⟩
    cases hi
  | @round trace later p q reached next ih =>
    refine ⟨ih.1.round instant ih.2 next, ?_⟩
    have hcount := (Reaches.round reached next).agrees.requests
    rw [hcount, next.resubmissions_succ, ← reached.agrees.requests, Nat.succ_mul, ← ih.2,
      next.now_instant instant]

/-- A round that gives up does so at the end of its window, without a request. -/
theorem RoundEnd.gaveUp_instant {p : Position} {later : Trace} {reason : GiveUpReason}
    {last : Transaction} {finished : Nat} (instant : s.Instant)
    (h : RoundEnd w s first p later (.finish ⟨.ok (.gaveUp reason last), finished⟩)) :
    finished = p.now + w.window ∧ requests later.calls = [] := by
  cases h with
  | ceilingReached found reached => exact ⟨rfl, by simp⟩
  | noRoom found below priced => exact ⟨pricing_instant instant p, by simp⟩

/-- A run that gives up does so one window after its last request. -/
def GivesUpOnTime (w : Waiter) (calls : List (Call × Nat))
    (outcome : Option (Except Fault Ending)) : Prop :=
  ∀ reason last finished, outcome = some (.ok ⟨.ok (.gaveUp reason last), finished⟩) →
    finished = ((requests calls).length + 1) * w.window

theorem Course.windowsApart {limit : Nat} {trace : Trace} {outcome : Option (Except Fault Ending)}
    (instant : s.Instant) (h : Course w s first limit trace outcome) :
    WindowsApart w trace.calls := by
  cases h with
  | fault zero below =>
    intro i options time hi
    cases hi
  | atCeiling reached =>
    intro i options time hi
    cases hi
  | goingOn below reached rounds => exact (reached.windowsApart instant).1
  | ended below reached rounds finish =>
    obtain ⟨hapart, hnow⟩ := reached.windowsApart instant
    exact hapart.round instant hnow finish

theorem Course.givesUpOnTime {limit : Nat} {trace : Trace} {outcome : Option (Except Fault Ending)}
    (instant : s.Instant) (below : first.offer.ceilingPrice < w.ceiling)
    (h : Course w s first limit trace outcome) : GivesUpOnTime w trace.calls outcome := by
  intro reason last finished hgaveUp
  cases h with
  | fault zero below => cases hgaveUp
  | atCeiling reached => exact absurd reached (Word.not_le.mpr below)
  | goingOn below reached rounds => cases hgaveUp
  | ended below reached rounds finish =>
    cases hgaveUp
    obtain ⟨hfinished, hrequests⟩ := finish.gaveUp_instant instant
    rw [hfinished, Trace.calls_append, requests_append, hrequests, List.append_nil,
      (reached.windowsApart instant).2, Nat.succ_mul]

/-- A first transaction at the ceiling is given up as the run starts. -/
theorem Course.gaveUp_of_atCeiling {limit : Nat} {trace : Trace}
    {outcome : Option (Except Fault Ending)} (h : Course w s first limit trace outcome)
    (hprice : w.ceiling ≤ first.offer.ceilingPrice) :
    outcome = some (.ok ⟨.ok (.gaveUp .firstAtCeiling first), 0⟩) := by
  cases h with
  | fault zero below => exact absurd hprice (Word.not_le.mpr below)
  | atCeiling reached => rfl
  | goingOn below reached rounds => exact absurd hprice (Word.not_le.mpr below)
  | ended below reached rounds finish => exact absurd hprice (Word.not_le.mpr below)

/-! ## Whole runs -/

/-- A waiter that can poll makes the rounds of its openings. -/
theorem follow_openings (s : Surroundings) (first : Transaction) (limit : Nat)
    (hpoll : 0 < w.poll) :
    ((w.follow s first limit).1.calls =
        (w.openings s first limit).flatMap fun p => (round w s first p).1.calls) ∧
      ∀ p ∈ w.openings s first limit,
        (∃ before after, (w.follow s first limit).1.calls
          = before ++ (round w s first p).1.calls ++ after ∧
          latest s first before = ⟨p.current, p.now⟩) ∧
        ∀ ending, (round w s first p).2 = .finish ending →
          (w.follow s first limit).2 = some (.ok ending) := by
  have hfault : fault? w first = none := by
    rw [fault?, if_neg]
    exact fun h => hpoll.ne' h.1
  simp only [Waiter.follow, hfault, run, Waiter.openings]
  split
  · -- a run that gives up as it starts asks nothing and opens no window
    exact ⟨rfl, fun p hp => absurd hp List.not_mem_nil⟩
  · refine ⟨calls_rounds limit (start first), fun p hp => ⟨?_, fun ending hfinish => ?_⟩⟩
    · obtain ⟨before, after, hreached, hcalls⟩ := Reaches.start.opened hp
      exact ⟨before.calls, after, hcalls, hreached.agrees.latest⟩
    · exact congrArg (Option.map Except.ok) (rounds_of_finish hp hfinish)

/-- The windows of every run keep their pace. All that a run asks is asked in their rounds, each is
opened when the transaction is broadcast that it watches, and each does what it should. With a node
and a caller that answer at once, the requests come a window apart, and a run that gives up ends a
window after its last request, if its first transaction left room for a window at all; else it ends
as it starts. Where lookups are answered at once and a receipt is there from some time of a window
on, it is found at the first due time from then on. -/
theorem windows_kept (w : Waiter) (s : Surroundings) (first : Transaction) (limit : Nat)
    (hpoll : 0 < w.poll) :
    ((w.follow s first limit).1.calls =
      (w.openings s first limit).flatMap fun p => (round w s first p).1.calls) ∧
    (∀ p ∈ w.openings s first limit,
      (∃ before after, (w.follow s first limit).1.calls
        = before ++ (round w s first p).1.calls ++ after ∧
        latest s first before = ⟨p.current, p.now⟩) ∧
      KeepsPace w s first p) ∧
    (s.Instant → WindowsApart w (w.follow s first limit).1.calls ∧
      (first.offer.ceilingPrice < w.ceiling →
        GivesUpOnTime w (w.follow s first limit).1.calls (w.follow s first limit).2)) ∧
    (w.ceiling ≤ first.offer.ceilingPrice →
      (w.follow s first limit).2 = some (.ok ⟨.ok (.gaveUp .firstAtCeiling first), 0⟩)) ∧
    ∀ p ∈ w.openings s first limit, ∀ since receipt,
      InstantLookups w s p → since ≤ w.poll * (w.window / w.poll) →
      (∀ k, k * w.poll ≤ w.window → ∀ found,
        (s.receipt (p.lookups + k) p.current.hash).answer = .ok (some found) ↔
          since ≤ k * w.poll ∧ found = receipt) →
      ∃ time, IsLeast {time | w.poll ∣ time ∧ since ≤ time} time ∧
        (w.follow s first limit).2 = some (.ok ⟨.ok (.mined p.current receipt), p.now + time⟩) := by
  obtain ⟨hcalls, hopenings⟩ := follow_openings s first limit hpoll
  have hcourse := follow_course w s first limit
  refine ⟨hcalls, fun p hp => ⟨(hopenings p hp).1, keepsPace hpoll p⟩,
    fun instant => ⟨hcourse.windowsApart instant, hcourse.givesUpOnTime instant⟩,
    hcourse.gaveUp_of_atCeiling, ?_⟩
  intro p hp since receipt instant within available
  obtain ⟨time, hleast, hfound⟩ : ∃ time, IsLeast {time | w.poll ∣ time ∧ since ≤ time} time ∧
      (watch w s p).found = some (receipt, p.now + time) :=
    window_first_due hpoll instant within available
  refine ⟨time, hleast, (hopenings p hp).2 _ ?_⟩
  rw [round_of_found hfound]

/-- With polls three units apart, a replacement that is mined two units after it was broadcast is
seen three units after. -/
theorem replacement_seen_at_next_poll :
    (Waiter.follow ⟨10, 3, .clamp 4⟩ (reporting (.ofUInt64 101) (transferReceipt (.ofUInt64 101)) 5)
      (offering (.legacy (.clamp 3))) 2).2
    = some (.ok ⟨.ok (.mined ⟨.ofUInt64 101, .clamp 9, .clamp 21000, .legacy (.clamp 4)⟩
        (transferReceipt (.ofUInt64 101))), 13⟩) := by
  obtain ⟨-, -, -, -, hseen⟩ := windows_kept ⟨10, 3, .clamp 4⟩
    (reporting (.ofUInt64 101) (transferReceipt (.ofUInt64 101)) 5)
    (offering (.legacy (.clamp 3))) 2 (by decide)
  have hsince : ∀ k, 5 ≤ 4 + k ↔ 2 ≤ k * 3 := by omega
  have hleast : IsLeast {time | 3 ∣ time ∧ 2 ≤ time} 3 :=
    ⟨⟨Nat.dvd_refl 3, by decide⟩,
      fun time htime => Nat.le_of_dvd (Nat.lt_of_lt_of_le (by decide) htime.2) htime.1⟩
  -- the second window: four lookups were made in the first one, which ended at ten
  obtain ⟨time, htime, hmined⟩ := hseen
    ⟨10, ⟨.ofUInt64 101, .clamp 9, .clamp 21000, .legacy (.clamp 4)⟩, 4, 0, 1⟩
    (List.mem_cons_of_mem _ (List.mem_cons_self ..)) 2 (transferReceipt (.ofUInt64 101))
    (fun k hk => rfl) (by decide)
    (fun k hk found => reporting_answer_iff.trans (and_congr_left' (hsince k)))
  rw [hmined, htime.unique hleast]

/-- A first transaction that is priced at the ceiling is given up at once, without a window and
without a request. -/
theorem given_up_at_once :
    (quiet none).Instant ∧
      (Waiter.follow ⟨10, 10, .clamp 3⟩ (quiet none) (offering (.legacy (.clamp 3))) 1).2
        = some (.ok ⟨.ok (.gaveUp .firstAtCeiling (offering (.legacy (.clamp 3)))), 0⟩) ∧
      ¬ GivesUpOnTime ⟨10, 10, .clamp 3⟩
        (Waiter.follow ⟨10, 10, .clamp 3⟩ (quiet none) (offering (.legacy (.clamp 3))) 1).1.calls
        (Waiter.follow ⟨10, 10, .clamp 3⟩ (quiet none) (offering (.legacy (.clamp 3))) 1).2 := by
  refine ⟨⟨fun _ _ => rfl, fun _ => rfl, fun _ _ => rfl⟩, rfl, fun h => ?_⟩
  exact absurd (h _ _ 0 rfl) (by decide)

end ChainWatch.Mining
