import ChainWatch.Proofs.Resubscription.Course

/-!
# When retrying ends

A policy may limit how long to retry without a success. The clock of that limit is set back when a
subscription is established, and it is read when the subscription has ended: the time for which
the subscription was up counts as retrying. `gives_up_iff` says when a supervisor gives up, on a
clock that never goes back: the time of retrying since the last subscription ended, the time for
which that subscription was up, and the next pause together exceed the limit.

`healthy_hour_gives_up` is what follows from counting that time: a subscription that was up for an
hour is not retried once, though the limit leaves a minute and the pause takes twelve seconds.
-/

namespace ChainWatch.Resubscription

/-! ## Times of a run -/

/-- What the clock shows at a happening, where that is known. -/
def Happening.time? : Happening → Option Nat
  | turn time => some time
  | refused _ clock _ | established clock | lost _ clock _ => some clock
  | rested | told | heeded | closed => none

/-- What the clock showed last in a run that began at `now`. -/
def latest (now : Nat) (hs : List Happening) : Nat := (hs.filterMap Happening.time?).getLastD now

/-- All happenings of a run that began at `now` are timed by one clock, which never goes back. -/
def InOrder : (now : Nat) → List Happening → Prop
  | _, [] => True
  | now, h :: rest => now ≤ h.time?.getD now ∧ InOrder (h.time?.getD now) rest

instance InOrder.instDecidable : (now : Nat) → (hs : List Happening) → Decidable (InOrder now hs)
  | _, [] => inferInstanceAs (Decidable True)
  | now, h :: rest =>
    have := instDecidable (h.time?.getD now) rest
    inferInstanceAs (Decidable (now ≤ h.time?.getD now ∧ InOrder (h.time?.getD now) rest))

/-- When an attempt brought a subscription. -/
def establishedAt? : Supervisor × Happening → Option Nat
  | (s, .established clock) => if s.phase = .subscribing then some clock else none
  | _ => none

/-- When a subscription that was up came to its end. -/
def lostAt? : Supervisor × Happening → Option Nat
  | (s, .lost _ clock _) => if s.phase = .live then some clock else none
  | _ => none

/-- When the last subscription was established; the start of the run if none was. -/
def lastSuccess (start : Nat) (trail : List (Supervisor × Happening)) : Nat :=
  (trail.filterMap establishedAt?).getLastD start

/-- When the last subscription ended; the start of the run if none has. -/
def lastLoss (start : Nat) (trail : List (Supervisor × Happening)) : Nat :=
  (trail.filterMap lostAt?).getLastD start

/-- For how long there has been nothing but retrying. -/
def retrying (start clock : Nat) (trail : List (Supervisor × Happening)) : Nat :=
  clock - lastLoss start trail

/-- For how long the last subscription was up; nothing if there was none. -/
def lifetime (start : Nat) (trail : List (Supervisor × Happening)) : Nat :=
  lastLoss start trail - lastSuccess start trail

theorem getLastD_filterMap_cons {α : Type} (f : α → Option Nat) (a : α) (rest : List α)
    (d : Nat) :
    ((a :: rest).filterMap f).getLastD d = (rest.filterMap f).getLastD ((f a).getD d) := by
  rw [List.filterMap_cons]
  cases f a with
  | none => rfl
  | some b => exact List.getLastD_cons

theorem getLastD_filterMap_snoc {α : Type} (f : α → Option Nat) (l : List α) (a : α) (d : Nat) :
    ((l ++ [a]).filterMap f).getLastD d = (f a).getD ((l.filterMap f).getLastD d) := by
  rw [List.filterMap_append]
  cases hf : f a with
  | none => simp [hf]
  | some b => simp [hf]

theorem InOrder.append {now : Nat} {before after : List Happening}
    (h : InOrder now (before ++ after)) : InOrder now before ∧ InOrder (latest now before) after := by
  induction before generalizing now with
  | nil => exact ⟨trivial, h⟩
  | cons first rest ih =>
    obtain ⟨hle, hrest⟩ := h
    have hboth := ih hrest
    refine ⟨⟨hle, hboth.1⟩, ?_⟩
    rw [latest, getLastD_filterMap_cons]
    exact hboth.2

/-! ## What the supervisor remembers of them -/

/-- It has no subscription and is after the next one. -/
def Phase.isDown : Phase → Bool
  | ready | subscribing | pausing _ _ => true
  | live | closing | ended _ => false

/-- The supervisor counts from the last success. That is the later one of success and loss while
a subscription is up, and the earlier one while none is. -/
structure Counts (s : Supervisor) (success loss now : Nat) : Prop where
  since : s.backoff.since = success
  up : s.phase = .live → loss ≤ success ∧ success ≤ now
  down : s.phase.isDown = true → success ≤ loss ∧ loss ≤ now

theorem counts_start (policy : Policy) (start : Nat) :
    Counts (.start policy start) start start start :=
  ⟨rfl, nofun, fun _ => ⟨Nat.le_refl _, Nat.le_refl _⟩⟩

theorem establishedAt?_of_ignores {s : Supervisor} {h : Happening} (ignores : s.Ignores h) :
    establishedAt? (s, h) = none := by
  cases h with
  | established clock => exact if_neg ignores
  | _ => rfl

theorem lostAt?_of_ignores {s : Supervisor} {h : Happening} (ignores : s.Ignores h) :
    lostAt? (s, h) = none := by
  cases h with
  | lost error clock pause => exact if_neg ignores
  | _ => rfl

/-- Where something fails no subscription is established, the clock is known, and from there on
the last loss is before it and after the last success. -/
theorem Counts.fails {s : Supervisor} {success loss now : Nat} {h : Happening} {acts : List Act}
    {clock pause : Nat} (counts : Counts s success loss now)
    (fails : Fails s.phase h acts clock pause) (later : now ≤ h.time?.getD now) :
    establishedAt? (s, h) = none ∧ h.time?.getD now = clock ∧
      success ≤ (lostAt? (s, h)).getD loss ∧ (lostAt? (s, h)).getD loss ≤ clock := by
  obtain ⟨-, hup, hdown⟩ := counts
  generalize hphase : s.phase = phase at fails hup hdown
  cases fails with
  | refused =>
    obtain ⟨hsuccess, hloss⟩ := hdown rfl
    exact ⟨rfl, rfl, hsuccess, Nat.le_trans hloss later⟩
  | lost =>
    -- the subscription ends here, and here is not before it was established
    obtain ⟨-, hsuccess⟩ := hup rfl
    simp only [lostAt?, if_pos hphase]
    exact ⟨rfl, rfl, Nat.le_trans hsuccess later, Nat.le_refl _⟩

theorem Counts.step {s : Supervisor} {success loss now : Nat} {h : Happening}
    (counts : Counts s success loss now) (later : now ≤ h.time?.getD now) :
    Counts (s.step h) ((establishedAt? (s, h)).getD success) ((lostAt? (s, h)).getD loss)
      (h.time?.getD now) := by
  have hcases := s.step_cases h
  generalize s.step h = next at hcases
  obtain ⟨hsince, hup, hdown⟩ := counts
  cases hcases with
  | ignored ignores =>
    rw [establishedAt?_of_ignores ignores, lostAt?_of_ignores ignores]
    exact ⟨hsince, fun h => ⟨(hup h).1, Nat.le_trans (hup h).2 later⟩,
      fun h => ⟨(hdown h).1, Nat.le_trans (hdown h).2 later⟩⟩
  | told => exact ⟨hsince, hup, hdown⟩
  | asked phase =>
    have horder := hdown (phase ▸ rfl)
    exact ⟨hsince, nofun, fun _ => ⟨horder.1, Nat.le_trans horder.2 later⟩⟩
  | established phase =>
    have horder := hdown (phase ▸ rfl)
    simp only [establishedAt?, if_pos phase]
    exact ⟨rfl, fun _ => ⟨Nat.le_trans horder.2 later, Nat.le_refl _⟩, nofun⟩
  | paused fails allowed =>
    obtain ⟨hnone, htime, hsuccess, hloss⟩ := Counts.fails ⟨hsince, hup, hdown⟩ fails later
    rw [hnone, htime]
    exact ⟨hsince, nofun, fun _ => ⟨hsuccess, hloss⟩⟩
  | gaveUp fails exceeded =>
    obtain ⟨hnone, -⟩ := Counts.fails ⟨hsince, hup, hdown⟩ fails later
    rw [hnone]
    exact ⟨hsince, nofun, nofun⟩
  | rested phase free =>
    exact ⟨hsince, nofun, fun _ => hdown (phase ▸ rfl)⟩
  | stopped told phase => exact ⟨hsince, nofun, nofun⟩
  | unsubscribed told phase => exact ⟨hsince, nofun, nofun⟩
  | closed phase => exact ⟨hsince, nofun, nofun⟩

theorem Counts.run {s : Supervisor} {success loss now : Nat} {hs : List Happening}
    (counts : Counts s success loss now) (ordered : InOrder now hs) :
    Counts (s.run hs) (lastSuccess success (s.trail hs)) (lastLoss loss (s.trail hs))
      (latest now hs) := by
  induction hs generalizing s success loss now with
  | nil => exact counts
  | cons h rest ih =>
    have hrest := ih (counts.step ordered.1) ordered.2
    rw [Supervisor.trail, lastSuccess, lastLoss, latest, getLastD_filterMap_cons,
      getLastD_filterMap_cons, getLastD_filterMap_cons]
    exact hrest

/-! ## Giving up -/

/-- A supervisor gives up in a step exactly if something fails there and the limit leaves no time
for the pause. -/
theorem exhausted_step_iff {s : Supervisor} (h : Happening) (goesOn : ∀ error, s.phase ≠ .ended error) :
    (s.step h).phase = .ended (some .resubscriptionExhausted) ↔
      ∃ acts clock pause, Fails s.phase h acts clock pause ∧
        s.backoff.allows s.policy clock pause = false := by
  constructor
  · intro hended
    have hcases := s.step_cases h
    generalize s.step h = next at hcases hended
    cases hcases with
    | ignored ignores => exact absurd hended (goesOn _)
    | told => exact absurd hended (goesOn _)
    | @gaveUp h acts clock pause fails exceeded => exact ⟨acts, clock, pause, fails, exceeded⟩
    | asked phase => cases hended
    | established phase => cases hended
    | paused fails allowed => cases hended
    | rested phase free => cases hended
    | stopped told phase => cases hended
    | unsubscribed told phase => cases hended
    | closed phase => cases hended
  · rintro ⟨acts, clock, pause, fails, exceeded⟩
    rw [Supervisor.step_of_fails fails, Supervisor.pauseOrEnd, if_neg]
    exact Bool.eq_false_iff.mp exceeded

/-- The same of a run: the supervisor has given up if it did so in one of its steps. -/
theorem exhausted_run_iff (s : Supervisor) (hs : List Happening)
    (goesOn : ∀ error, s.phase ≠ .ended error) :
    (s.run hs).phase = .ended (some .resubscriptionExhausted) ↔
      ∃ before failure after acts clock pause, hs = before ++ failure :: after ∧
        Fails (s.run before).phase failure acts clock pause ∧
        (s.run before).backoff.allows s.policy clock pause = false := by
  constructor
  · intro hended
    induction hs generalizing s with
    | nil => exact absurd hended (goesOn _)
    | cons h rest ih =>
      by_cases hstep : ∃ error, (s.step h).phase = .ended error
      · -- it ended in the first step, and so it ended there as it does in the whole run
        obtain ⟨error, herror⟩ := hstep
        have hlater := Supervisor.phase_run_of_ended herror rest
        have hsame : error = some .resubscriptionExhausted :=
          Phase.ended.inj (hlater.symm.trans hended)
        rw [hsame] at herror
        obtain ⟨acts, clock, pause, fails, exceeded⟩ := (exhausted_step_iff h goesOn).mp herror
        exact ⟨[], h, rest, acts, clock, pause, rfl, fails, exceeded⟩
      · obtain ⟨before, failure, after, acts, clock, pause, rfl, fails, exceeded⟩ :=
          ih (s.step h) (fun error herror => hstep ⟨error, herror⟩) hended
        rw [s.policy_step] at exceeded
        exact ⟨h :: before, failure, after, acts, clock, pause, rfl, fails, exceeded⟩
  · rintro ⟨before, failure, after, acts, clock, pause, rfl, fails, exceeded⟩
    have hgoesOn : ∀ error, (s.run before).phase ≠ .ended error := by
      intro error herror
      rw [herror] at fails
      cases fails
    rw [← s.policy_run before] at exceeded
    have hended := (exhausted_step_iff failure hgoesOn).mpr ⟨acts, clock, pause, fails, exceeded⟩
    rw [← s.run_snoc] at hended
    have hlater := Supervisor.phase_run_of_ended hended after
    rwa [← s.run_append, List.append_assoc] at hlater

theorem allows_eq_false_iff {policy : Policy} {most : Nat} (limited : policy.maxElapsed = some most)
    (b : Backoff) (clock pause : Nat) :
    b.allows policy clock pause = false ↔ most < clock - b.since + pause := by
  simp only [Backoff.allows, limited, decide_eq_false_iff_not, Nat.not_le]

/-- Where something fails, the time since the last success is the time of retrying and the time
for which the last subscription was up. -/
theorem since_eq_retrying_add_lifetime {s : Supervisor} {start : Nat} {before : List Happening}
    {failure : Happening} {acts : List Act} {clock pause : Nat}
    (counts : Counts s start start start) (ordered : InOrder start (before ++ [failure]))
    (fails : Fails (s.run before).phase failure acts clock pause) :
    clock - (s.run before).backoff.since =
      retrying start clock (s.trail (before ++ [failure]))
        + lifetime start (s.trail (before ++ [failure])) := by
  obtain ⟨hbefore, hfailure⟩ := ordered.append
  have hcounts := counts.run hbefore
  obtain ⟨hnone, -, hsuccess, hloss⟩ := hcounts.fails fails hfailure.1
  have hlastSuccess : lastSuccess start (s.trail (before ++ [failure]))
      = lastSuccess start (s.trail before) := by
    unfold lastSuccess
    rw [s.trail_snoc, getLastD_filterMap_snoc, hnone]
    rfl
  have hlastLoss : lastLoss start (s.trail (before ++ [failure]))
      = (lostAt? (s.run before, failure)).getD (lastLoss start (s.trail before)) := by
    unfold lastLoss
    rw [s.trail_snoc, getLastD_filterMap_snoc]
  rw [hcounts.since, retrying, lifetime, hlastSuccess, hlastLoss]
  omega

/-- On a clock that never goes back, a supervisor with a limit gives up exactly where an attempt
or a subscription fails and the time since the last subscription ended, the time for which that
subscription was up, and the next pause together exceed the limit. -/
theorem gives_up_iff (policy : Policy) (start most : Nat) (hs : List Happening)
    (limited : policy.maxElapsed = some most) (ordered : InOrder start hs) :
    ((Supervisor.start policy start).run hs).phase = .ended (some .resubscriptionExhausted) ↔
      ∃ before failure after acts clock pause, hs = before ++ failure :: after ∧
        Fails ((Supervisor.start policy start).run before).phase failure acts clock pause ∧
        most < retrying start clock ((Supervisor.start policy start).trail (before ++ [failure]))
          + lifetime start ((Supervisor.start policy start).trail (before ++ [failure]))
          + pause := by
  have hiff := exhausted_run_iff (.start policy start) hs (fun error herror => by cases herror)
  rw [hiff]
  -- both sides speak of the same place in the run; it remains to read the limit there
  constructor
  · rintro ⟨before, failure, after, acts, clock, pause, rfl, fails, exceeded⟩
    refine ⟨before, failure, after, acts, clock, pause, rfl, fails, ?_⟩
    rw [List.append_cons] at ordered
    rw [← since_eq_retrying_add_lifetime (counts_start policy start) ordered.append.1 fails]
    exact (allows_eq_false_iff limited _ clock pause).mp exceeded
  · rintro ⟨before, failure, after, acts, clock, pause, rfl, fails, exceeded⟩
    refine ⟨before, failure, after, acts, clock, pause, rfl, fails, ?_⟩
    rw [List.append_cons] at ordered
    rw [← since_eq_retrying_add_lifetime (counts_start policy start) ordered.append.1 fails]
      at exceeded
    exact (allows_eq_false_iff limited _ clock pause).mpr exceeded

/-- A second in nanoseconds. -/
def second : Nat := 1000000000

/-- Pauses of up to two minutes, and a minute of retrying. -/
def minuteOfRetrying : Policy := { Policy.of (120 * second) (15 * second) with
  maxElapsed := some (60 * second) }

/-- Twenty seconds of retrying are too many for a subscription that was up for twenty more. -/
theorem twenty_seconds_up_counted :
    InOrder 0 [.turn 0, .established 0, .lost none (20 * second) (12 * second), .rested,
        .turn (32 * second), .refused .subscriptionClosed (40 * second) (24 * second)] ∧
      ((Supervisor.start minuteOfRetrying 0).run
        [.turn 0, .established 0, .lost none (20 * second) (12 * second), .rested,
          .turn (32 * second), .refused .subscriptionClosed (40 * second) (24 * second)]).phase
        = .ended (some .resubscriptionExhausted) := by
  have hordered : InOrder 0 [.turn 0, .established 0, .lost none (20 * second) (12 * second),
      .rested, .turn (32 * second),
      .refused .subscriptionClosed (40 * second) (24 * second)] := by decide
  refine ⟨hordered, (gives_up_iff minuteOfRetrying 0 (60 * second) _ rfl hordered).mpr ?_⟩
  exact ⟨[.turn 0, .established 0, .lost none (20 * second) (12 * second), .rested,
    .turn (32 * second)], _, [], _, _, _, rfl, .refused, by decide⟩

/-- A subscription that was up for an hour is not retried once, though a minute of retrying is
allowed, none of it is over, and the pause takes twelve seconds. -/
theorem healthy_hour_gives_up :
    ((Supervisor.start minuteOfRetrying 0).run [.turn 0, .established 0]).phase = .live ∧
      ((Supervisor.start minuteOfRetrying 0).run
        [.turn 0, .established 0, .lost none (3600 * second) (12 * second)]).phase
        = .ended (some .resubscriptionExhausted) ∧
      60 * second < lifetime 0 ((Supervisor.start minuteOfRetrying 0).trail
        [.turn 0, .established 0, .lost none (3600 * second) (12 * second)]) ∧
      retrying 0 (3600 * second) ((Supervisor.start minuteOfRetrying 0).trail
        [.turn 0, .established 0, .lost none (3600 * second) (12 * second)]) + 12 * second
        ≤ 60 * second := by
  decide

end ChainWatch.Resubscription
