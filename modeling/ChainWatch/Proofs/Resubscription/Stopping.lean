import ChainWatch.Proofs.Resubscription.Delivery
import ChainWatch.Proofs.Resubscription.Lifecycle
import ChainWatch.Proofs.Subscription.Reporting

/-!
# Stopping

Whoever holds the handle of a supervisor may tell it to stop at any moment, and the supervisor heeds
that when it waits. If something else is there at the same time it may go on nevertheless: an
attempt that succeeds is taken note of, a pause that is over is followed by an attempt. What bounds
this is the pause. One that begins after the supervisor was told is not over when it begins, if it
has any length, and so it is where the supervisor stops at the latest.

`stops_when_told` says what that comes to: one more attempt at most; no subscription that is left
behind; and, where retrying has no limit, an end that is no error and that nobody sees who has not
told the supervisor to stop.
-/

namespace ChainWatch.Resubscription

/-! ## One more attempt -/

/-- Any pause that the happening leads to has a length. -/
def Happening.takesTime : Happening → Bool
  | refused _ _ pause | lost _ _ pause => 0 < pause
  | turn _ | established _ | rested | told | heeded | closed => true

/-- How many attempts a supervisor that was told to stop may still make. -/
def Phase.spare : Phase → Nat
  | ready => 1
  | pausing length wasTold => if wasTold ∧ 0 < length then 0 else 1
  | subscribing | live | closing | ended _ => 0

/-- A supervisor in a given phase that was told to stop may make one more attempt at most. -/
theorem Phase.spare_le (phase : Phase) : phase.spare ≤ 1 := by
  cases phase with
  | ready => exact Nat.le_refl 1
  | pausing length wasTold =>
    show (if wasTold = true ∧ 0 < length then 0 else 1) ≤ 1
    split
    · exact Nat.zero_le 1
    · exact Nat.le_refl 1
  | subscribing => exact Nat.zero_le 1
  | live => exact Nat.zero_le 1
  | closing => exact Nat.zero_le 1
  | ended error => exact Nat.zero_le 1

/-- A failure is no attempt. It comes in a phase that leaves no attempt to make, and the pause after
it is as long as it says. -/
theorem Fails.spare {phase : Phase} {h : Happening} {acts : List Act} {clock pause : Nat}
    (fails : Fails phase h acts clock pause) :
    acts.count .ask = 0 ∧ phase.spare = 0 ∧ h.takesTime = decide (0 < pause) ∧ h ≠ .told := by
  cases fails with
  | refused => exact ⟨rfl, rfl, rfl, nofun⟩
  | lost => exact ⟨rfl, rfl, rfl, nofun⟩

namespace Supervisor

variable {s : Supervisor}

theorem count_ask_alertActs (s : Supervisor) (time : Nat) :
    (s.alertActs time ++ [Act.ask]).count .ask = 1 := by
  unfold alertActs
  split
  · rfl
  · split <;> rfl

/-- A supervisor was told to stop if it had been told before, or is told now. -/
theorem told_step_iff (s : Supervisor) (h : Happening) :
    (s.step h).told = true ↔ s.told = true ∨ h = .told := by
  have hcases := s.step_cases h
  generalize s.step h = next at hcases
  cases hcases with
  | ignored ignores =>
    have hother : h ≠ .told := fun heq => by rw [heq] at ignores; exact ignores
    exact (or_iff_left hother).symm
  | told => exact ⟨fun _ => .inr rfl, fun _ => rfl⟩
  | asked phase => exact (or_iff_left nofun).symm
  | established phase => exact (or_iff_left nofun).symm
  | paused fails allowed => exact (or_iff_left fails.spare.2.2.2).symm
  | gaveUp fails exceeded => exact (or_iff_left fails.spare.2.2.2).symm
  | rested phase free => exact (or_iff_left nofun).symm
  | stopped told phase => exact (or_iff_left nofun).symm
  | unsubscribed told phase => exact (or_iff_left nofun).symm
  | closed phase => exact (or_iff_left nofun).symm

theorem told_run_iff (s : Supervisor) (hs : List Happening) :
    (s.run hs).told = true ↔ s.told = true ∨ .told ∈ hs := by
  induction hs generalizing s with
  | nil => exact (or_iff_left List.not_mem_nil).symm
  | cons h rest ih =>
    show ((s.step h).run rest).told = true ↔ _
    rw [ih, told_step_iff, List.mem_cons, or_assoc, eq_comm (a := h)]

/-- Every attempt after the supervisor was told to stop uses up one that it may still make. -/
theorem asks_step {h : Happening} (told : s.told = true) (takesTime : h.takesTime = true) :
    ∃ acts, (s.step h).log = s.log ++ acts ∧
      acts.count .ask + (s.step h).phase.spare ≤ s.phase.spare := by
  have hlog : s.log = s.log ++ [] := (List.append_nil _).symm
  have hcases := s.step_cases h
  generalize s.step h = next at hcases
  cases hcases with
  | ignored ignores => exact ⟨[], hlog, Nat.le_of_eq (Nat.zero_add _)⟩
  | told => exact ⟨[], hlog, Nat.le_of_eq (Nat.zero_add _)⟩
  | @asked time phase =>
    refine ⟨s.alertActs time ++ [.ask], rfl, ?_⟩
    rw [count_ask_alertActs, phase]
    exact Nat.le_refl 1
  | established phase => exact ⟨[], hlog, Nat.zero_le _⟩
  | @paused h acts clock pause fails allowed =>
    obtain ⟨hcount, -, hpause, -⟩ := fails.spare
    rw [hpause] at takesTime
    -- the pause begins after the supervisor was told, and no attempt comes after it
    have hspare : (Phase.pausing pause s.told).spare = 0 :=
      if_pos ⟨told, of_decide_eq_true takesTime⟩
    refine ⟨acts ++ [Act.count .resubscription], List.append_assoc s.log acts _, ?_⟩
    show (acts ++ [Act.count .resubscription]).count .ask + (Phase.pausing pause s.told).spare ≤ _
    rw [List.count_append, hcount, hspare]
    exact Nat.zero_le _
  | @gaveUp h acts clock pause fails exceeded =>
    refine ⟨acts, rfl, ?_⟩
    rw [fails.spare.1]
    exact Nat.zero_le _
  | @rested length wasTold phase free =>
    have hspare : (Phase.pausing length wasTold).spare = 1 := if_neg free
    refine ⟨[], hlog, ?_⟩
    rw [phase, hspare]
    exact Nat.le_refl 1
  | stopped told phase => exact ⟨[], hlog, Nat.zero_le _⟩
  | unsubscribed told phase => exact ⟨[.unsubscribe], rfl, Nat.zero_le _⟩
  | closed phase => exact ⟨[], hlog, Nat.zero_le _⟩

theorem spare_run {hs : List Happening} (told : s.told = true)
    (takeTime : ∀ h ∈ hs, h.takesTime = true) :
    (s.run hs).attempts + (s.run hs).phase.spare ≤ s.attempts + s.phase.spare := by
  induction hs generalizing s with
  | nil => exact Nat.le_refl _
  | cons h rest ih =>
    obtain ⟨acts, hlog, hspare⟩ := asks_step told (takeTime h List.mem_cons_self)
    have hattempts := attempts_of_log hlog
    have htold : (s.step h).told = true := (s.told_step_iff h).mpr (.inl told)
    have hrest := ih htold fun h hmem => takeTime h (List.mem_cons_of_mem _ hmem)
    show ((s.step h).run rest).attempts + ((s.step h).run rest).phase.spare ≤ _
    omega

/-! ## Without a limit -/

/-- The supervisor comes to an end only as it was told to. -/
structure Obedient (s : Supervisor) : Prop where
  closing : s.phase = .closing → s.told = true
  ended : ∀ error, s.phase = .ended error → error = none ∧ s.told = true

theorem obedient_step {h : Happening} (unlimited : s.policy.maxElapsed = none)
    (obedient : s.Obedient) : (s.step h).Obedient := by
  have hcases := s.step_cases h
  generalize s.step h = next at hcases
  cases hcases with
  | ignored ignores => exact obedient
  | told => exact ⟨fun _ => rfl, fun error ended => ⟨(obedient.ended error ended).1, rfl⟩⟩
  | asked phase => exact ⟨nofun, nofun⟩
  | established phase => exact ⟨nofun, nofun⟩
  | paused fails allowed => exact ⟨nofun, nofun⟩
  | @gaveUp h acts clock pause fails exceeded =>
    -- there is always time for a pause
    have hallowed : s.backoff.allows s.policy clock pause = true := by
      unfold Backoff.allows
      rw [unlimited]
    exact absurd (hallowed.symm.trans exceeded) nofun
  | rested phase free => exact ⟨nofun, nofun⟩
  | stopped told phase =>
    exact ⟨fun _ => told, fun error ended => ⟨(Phase.ended.inj ended).symm, told⟩⟩
  | unsubscribed told phase => exact ⟨fun _ => told, nofun⟩
  | closed phase =>
    exact ⟨nofun, fun error ended => ⟨(Phase.ended.inj ended).symm, obedient.closing phase⟩⟩

theorem obedient_run (hs : List Happening) (unlimited : s.policy.maxElapsed = none)
    (obedient : s.Obedient) : (s.run hs).Obedient := by
  induction hs generalizing s with
  | nil => exact obedient
  | cons h rest ih =>
    exact ih ((s.policy_step h).symm ▸ unlimited) (obedient_step unlimited obedient)

end Supervisor

/-! ## What the holder of the handle is told -/

theorem Phase.ended_of_ending? {phase : Phase} {ending : Subscription.Ending}
    (ended : phase.ending? = some ending) : phase = .ended ending.error? := by
  cases phase with
  | ended error =>
    cases error with
    | none => cases ended; rfl
    | some error => cases ended; rfl
  | ready => cases ended
  | subscribing => cases ended
  | live => cases ended
  | pausing length wasTold => cases ended
  | closing => cases ended

/-- What the holder of the handle of a supervisor knows in a phase of it: nothing while it goes on.
When it has ended the first one who sees that is told what it ended with, and others nothing. -/
inductive Informed (phase : Phase) (holder : Subscription.Holder) : Prop where
  | early (running : holder.handle.progress = .running) (goesOn : phase.ending? = none)
      (silent : holder.outcomes = [])
  | due {ending : Subscription.Ending} (due : holder.handle.progress = .ended ending)
      (ended : phase.ending? = some ending) (silent : holder.outcomes = [])
  | told {ending : Subscription.Ending} {more : Nat} (reported : holder.handle.progress = .reported)
      (ended : phase.ending? = some ending)
      (told : holder.outcomes = ending.error? :: List.replicate more none)

namespace Informed

variable {phase : Phase} {holder : Subscription.Holder}

/-- Whoever was told of an end was told of the one that the supervisor has come to, or nothing. -/
theorem ended_of_mem (informed : Informed phase holder) {outcome : Option ChainError}
    (mem : outcome ∈ holder.outcomes) :
    ∃ error, phase = .ended error ∧ (outcome = error ∨ outcome = none) := by
  cases informed with
  | early running goesOn silent => rw [silent] at mem; exact absurd mem List.not_mem_nil
  | due due ended silent => rw [silent] at mem; exact absurd mem List.not_mem_nil
  | told reported ended told =>
    refine ⟨_, Phase.ended_of_ending? ended, ?_⟩
    rw [told] at mem
    rcases List.mem_cons.mp mem with hfirst | hmore
    · exact .inl hfirst
    · exact .inr (List.mem_replicate.mp hmore).2

/-- A look at an end is told of it, if it is the first one. -/
theorem look (informed : Informed phase holder) : Informed phase holder.look := by
  cases informed with
  | early running goesOn silent =>
    rw [Subscription.Holder.look_running running]
    exact .early running goesOn silent
  | @due ending due ended silent =>
    rw [Subscription.Holder.look_ended due]
    have htold : holder.outcomes ++ [ending.error?] = ending.error? :: List.replicate 0 none := by
      rw [silent]
      rfl
    exact .told rfl ended (List.filterMap_append.trans htold)
  | @told ending more reported ended told =>
    rw [Subscription.Holder.look_reported reported]
    have htold : holder.outcomes ++ [none] = ending.error? :: List.replicate (more + 1) none := by
      rw [told, List.replicate_succ', List.cons_append]
    exact .told reported ended (List.filterMap_append.trans htold)

/-- Another holder knows as much if the handle shows the same and as much was told. -/
theorem same (informed : Informed phase holder) {other : Subscription.Holder}
    (progress : other.handle.progress = holder.handle.progress)
    (outcomes : other.outcomes = holder.outcomes) : Informed phase other := by
  cases informed with
  | early running goesOn silent =>
    exact .early (progress.trans running) goesOn (outcomes.trans silent)
  | due due ended silent => exact .due (progress.trans due) ended (outcomes.trans silent)
  | told reported ended told => exact .told (progress.trans reported) ended (outcomes.trans told)

theorem giveUp (informed : Informed phase holder) : Informed phase holder.giveUp := by
  unfold Subscription.Holder.giveUp
  split
  · exact informed
  · exact informed.same rfl (List.filterMap_append.trans (List.append_nil _))

/-- When the supervisor comes to its end, the handle shows it. -/
theorem arrive {next : Phase} (informed : Informed phase holder)
    (stays : ∀ ending, phase.ending? = some ending → next.ending? = some ending) :
    Informed next (holder.run (next.ending?.map .finish).toList) := by
  cases hnext : next.ending? with
  | none =>
    cases informed with
    | early running goesOn silent => exact .early running hnext silent
    | due due ended silent => exact absurd ((stays _ ended).symm.trans hnext) nofun
    | told reported ended told => exact absurd ((stays _ ended).symm.trans hnext) nofun
  | some ending =>
    show Informed next { holder with handle := holder.handle.finish ending }
    cases informed with
    | early running goesOn silent =>
      rw [Subscription.Handle.finish_of_running running]
      exact .due rfl hnext silent
    | due due ended silent =>
      rw [Subscription.Handle.finish_of_not_running (by rw [due]; nofun)]
      exact .due due (stays _ ended) silent
    | told reported ended told =>
      rw [Subscription.Handle.finish_of_not_running (by rw [reported]; nofun)]
      exact .told reported (stays _ ended) told

end Informed

namespace Upkeep

variable {u : Upkeep}

/-- Every move leaves the holder of the handle informed. -/
theorem informed_step (informed : Informed u.supervisor.phase u.holder) (move : Move) :
    Informed (u.step move).supervisor.phase (u.step move).holder := by
  cases move with
  | happen h =>
    have hstays : ∀ ending, u.supervisor.phase.ending? = some ending →
        (u.supervisor.step h).phase.ending? = some ending := by
      intro ending ended
      have hphase := Phase.ended_of_ending? ended
      rw [Supervisor.phase_step_of_ended hphase h, ← hphase, ended]
    show Informed (u.supervisor.step h).phase (u.holder.run (seen h (u.supervisor.step h).phase))
    rw [seen, Subscription.Holder.run_append]
    have htold : Informed u.supervisor.phase
        (u.holder.run (if h = .told then [.unsubscribe] else [])) := by
      split
      · exact informed.same rfl rfl
      · exact informed
    exact htold.arrive hstays
  | deliver => exact informed
  | look => exact informed.look
  | giveUp => exact informed.giveUp

theorem informed_run (informed : Informed u.supervisor.phase u.holder) (moves : List Move) :
    Informed (u.run moves).supervisor.phase (u.run moves).holder := by
  induction moves generalizing u with
  | nil => exact informed
  | cons move rest ih => exact ih (informed_step informed move)

/-! ## The end -/

theorem supervisor_run (u : Upkeep) (moves : List Move) :
    (u.run moves).supervisor = u.supervisor.run (happenings moves) := by
  induction moves generalizing u with
  | nil => rfl
  | cons move rest ih =>
    rw [run_cons, ih]
    cases move <;> rfl

theorem happenings_append (before after : List Move) :
    happenings (before ++ after) = happenings before ++ happenings after := List.filterMap_append

theorem mem_happenings {moves : List Move} {h : Happening} :
    h ∈ happenings moves ↔ .happen h ∈ moves := by
  rw [happenings, List.mem_filterMap]
  constructor
  · rintro ⟨move, hmem, heq⟩
    cases move <;> simp_all
  · exact fun hmem => ⟨.happen h, hmem, rfl⟩

/-- Whatever happens to a supervisor, and whoever takes a turn: from the moment when it is told to
stop it makes one more attempt at most, if every pause takes time. When it has ended, it has
unsubscribed all subscriptions that it was given, and has seen them end. And if retrying has no
limit, nobody who waits for the end of the supervisor is told of an error, or told anything before
the supervisor was told to stop. -/
theorem stops_when_told (policy : Policy) (clock : Nat) (moves : List Move)
    (takeTime : ∀ h ∈ happenings moves, h.takesTime = true) :
    (∀ before after, moves = before ++ .happen .told :: after →
      ((start policy clock).run moves).supervisor.attempts
        ≤ ((start policy clock).run before).supervisor.attempts + 1) ∧
    (∀ error, ((start policy clock).run moves).supervisor.phase = .ended error →
      ∀ k, .established k ∈ (Supervisor.start policy clock).history 0 (happenings moves) →
        .unsubscribed k ∈ (Supervisor.start policy clock).history 0 (happenings moves) ∧
        .gone k ∈ (Supervisor.start policy clock).history 0 (happenings moves)) ∧
    (policy.maxElapsed = none →
      ∀ outcome ∈ ((start policy clock).run moves).holder.outcomes,
        outcome = none ∧ .happen .told ∈ moves) := by
  have hsupervisor := supervisor_run (start policy clock) moves
  refine ⟨?_, ?_, ?_⟩
  · rintro before after rfl
    rw [happenings_append] at takeTime
    have htakeTime : ∀ h ∈ happenings after, h.takesTime = true :=
      fun h hmem => takeTime h (List.mem_append_right _ (List.mem_cons_of_mem _ hmem))
    have hspare := Supervisor.spare_run (s := ((start policy clock).run before).supervisor.step .told)
      rfl htakeTime
    have hmost := ((start policy clock).run before).supervisor.phase.spare_le
    rw [run_append, run_cons, supervisor_run _ after]
    -- to be told is no attempt, and leaves the supervisor in its phase
    exact Nat.le_trans (Nat.le_trans (Nat.le_add_right _ _) hspare) (Nat.add_le_add_left hmost _)
  · intro error ended k given
    rw [hsupervisor] at ended
    exact Supervisor.settled_of_ended rfl ended given
  · intro unlimited outcome hmem
    have hinformed := informed_run (u := start policy clock) (.early rfl rfl rfl) moves
    obtain ⟨error, hended, houtcome⟩ := hinformed.ended_of_mem hmem
    have hobedient := Supervisor.obedient_run (s := .start policy clock) (happenings moves) unlimited
      ⟨nofun, nofun⟩
    rw [hsupervisor] at hended
    obtain ⟨rfl, htold⟩ := hobedient.ended error hended
    rw [Supervisor.told_run_iff, mem_happenings] at htold
    exact ⟨houtcome.elim id id, htold.resolve_left nofun⟩

/-- A supervisor that is told to stop when a pause has just ended. It makes an attempt and is given a
subscription, which ends; in the pause after that it stops. -/
theorem stops_when_told_after_a_pause :
    ((start (.of 100 10) 0).run
        [.happen (.turn 0), .happen (.refused .subscriptionClosed 0 5), .happen .rested, .happen .told,
          .happen (.turn 5), .happen (.established 5), .look, .happen (.lost none 6 5),
          .happen .rested, .happen .heeded, .look]).supervisor.attempts ≤ 1 + 1 ∧
      .gone 1 ∈ (Supervisor.start (.of 100 10) 0).history 0
        [.turn 0, .refused .subscriptionClosed 0 5, .rested, .told, .turn 5, .established 5,
          .lost none 6 5, .rested, .heeded] := by
  have hstops := stops_when_told (.of 100 10) 0
    [.happen (.turn 0), .happen (.refused .subscriptionClosed 0 5), .happen .rested, .happen .told,
      .happen (.turn 5), .happen (.established 5), .look, .happen (.lost none 6 5),
      .happen .rested, .happen .heeded, .look] (by decide)
  have hmost := hstops.1
    [.happen (.turn 0), .happen (.refused .subscriptionClosed 0 5), .happen .rested] _ rfl
  exact ⟨hmost, (hstops.2.1 none (by decide) 1 (by decide)).2⟩

/-- Pauses without a length may be slept through, and another attempt may follow each of them. -/
example : ((start (.of 0 10) 0).run
    [.happen .told, .happen (.turn 0), .happen (.refused .subscriptionClosed 0 0), .happen .rested,
      .happen (.turn 0), .happen (.refused .subscriptionClosed 0 0), .happen .rested,
      .happen (.turn 0)]).supervisor.attempts = 3 := by decide

end Upkeep

end ChainWatch.Resubscription
