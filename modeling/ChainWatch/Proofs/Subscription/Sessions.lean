import ChainWatch.Proofs.Subscription.Reporting
import ChainWatch.Subscription.Session

/-!
# Sessions as holders

A session with a subscription is one of the runs of a holder: a step that waits is a wait that looks
when it begins and, if the task ends in time, once more; otherwise it is given up. So everything
that is said of the waits of holders can be said of the answers in a session (`answers_eq`).

`unsubscribed_failures_reported` gives two sessions that are told of a failure after they have
unsubscribed.
-/

namespace ChainWatch.Subscription

/-- What the answer to a step tells whoever waited for the end, as the outcome of a wait. -/
def StepAnswer.outcome? : StepAnswer → Option (Option (Option ChainError))
  | ended error => some (some error)
  | pending => some none
  | nothing | flag _ => none

namespace Session

/-- The moves of a holder that a step comes to. -/
def moves (s : Session) : Step → List Move
  | .waitForEnd patience =>
    if s.handle.hasEnded then [.look]
    else if (s.wait (s.now + patience) true).handle.hasEnded then
      [.look, .finish s.body.ending, .look]
    else [.look, .giveUp]
  | .unsubscribe | .drop => [.unsubscribe]
  | .isUnsubscribed => []
  | .sleep ms =>
    if (s.wait (s.now + ms) false).handle.hasEnded then [.finish s.body.ending] else []

/-- The moves that a list of steps comes to. -/
def allMoves (s : Session) : List Step → List Move
  | [] => []
  | step :: rest => s.moves step ++ (s.step step).2.allMoves rest

/-- What a session is told about the end. -/
def answers (s : Session) (steps : List Step) : List (Option (Option ChainError)) :=
  (s.trail steps).filterMap fun entry => entry.1.outcome?

/-! ## Waiting -/

theorem hasEnded_iff (h : Handle) : h.hasEnded = true ↔ h.progress ≠ .running := bne_iff_ne

theorem hasEnded_finish (h : Handle) (ending : Ending) : (h.finish ending).hasEnded = true := by
  unfold Handle.finish
  split
  next => rfl
  next ended => exact (hasEnded_iff h).mpr ended

/-- While a session waits its task ends, or nothing happens to the handle. -/
theorem handle_wait (s : Session) (time : Nat) (untilEnd : Bool) :
    (s.wait time untilEnd).handle =
      if (s.wait time untilEnd).handle.hasEnded then s.handle.finish s.body.ending
      else s.handle := by
  -- where nothing happens to it, and it has ended, a second end changes nothing
  have hsame : s.handle =
      if s.handle.hasEnded then s.handle.finish s.body.ending else s.handle := by
    split
    next ended => exact (Handle.finish_of_not_running ((hasEnded_iff _).mp ended) _).symm
    next => rfl
  unfold wait
  split
  · exact hsame
  · split
    · split
      · exact (if_pos (hasEnded_finish _ _)).symm
      · exact hsame
    · exact hsame

theorem body_wait (s : Session) (time : Nat) (untilEnd : Bool) :
    (s.wait time untilEnd).body = s.body := by
  unfold wait
  split
  · rfl
  · split
    · split <;> rfl
    · rfl

/-- What a wait for the end answers, and what it leaves, is read off the handle after it. -/
theorem step_waitForEnd (s t : Session) (patience : Nat)
    (waited : t = if s.handle.hasEnded then s else s.wait (s.now + patience) true) :
    s.step (.waitForEnd patience) =
      (match t.handle.poll.1 with
        | some error => .ended error
        | none => .pending, { t with handle := t.handle.poll.2 }) := by
  simp only [step, ← waited, report]
  cases t.handle.poll.1 <;> rfl

theorem body_step (s : Session) (step : Step) : (s.step step).2.body = s.body := by
  cases step with
  | waitForEnd patience =>
    rw [step_waitForEnd s _ patience rfl]
    show (if s.handle.hasEnded then s else s.wait (s.now + patience) true).body = s.body
    split
    · rfl
    · exact body_wait s _ _
  | sleep ms => exact body_wait s _ _
  | unsubscribe => rfl
  | drop => rfl
  | isUnsubscribed => rfl

/-! ## One step after another -/

/-- A look at a handle whose task has ended is the last one of its wait, and brings what a poll
brings. -/
theorem look_of_hasEnded {handle : Handle} (ended : handle.hasEnded = true) (looks : Nat)
    (waits : List Wait) :
    ∃ outcome, handle.poll.1 = some outcome ∧
      Holder.look ⟨handle, looks, waits⟩
        = ⟨handle.poll.2, 0, waits ++ [⟨looks + 1, some outcome⟩]⟩ := by
  unfold Holder.look Handle.poll
  cases hprogress : handle.progress with
  | running => exact absurd hprogress ((hasEnded_iff _).mp ended)
  | ended ending => exact ⟨_, rfl, rfl⟩
  | reported => exact ⟨_, rfl, rfl⟩

/-- A session that waits for the end makes the moves of one wait. -/
theorem run_moves_waitForEnd (s : Session) (patience : Nat) (waits : List Wait) :
    ∃ more, Holder.run ⟨s.handle, 0, waits⟩ (s.moves (.waitForEnd patience))
        = ⟨(s.step (.waitForEnd patience)).2.handle, 0, waits ++ more⟩ ∧
      more.map Wait.outcome = (s.step (.waitForEnd patience)).1.outcome?.toList := by
  by_cases hended : s.handle.hasEnded
  · -- the end is there already, and the first look sees it
    obtain ⟨outcome, hpoll, hlook⟩ := look_of_hasEnded hended 0 waits
    refine ⟨[⟨1, some outcome⟩], ?_⟩
    rw [step_waitForEnd s s patience (if_pos hended).symm, moves, if_pos hended, hpoll]
    exact ⟨hlook, rfl⟩
  · have hrunning : s.handle.progress = .running :=
      Decidable.not_not.mp fun hne => hended ((hasEnded_iff _).mpr hne)
    have hfirst : Holder.look ⟨s.handle, 0, waits⟩ = ⟨s.handle, 1, waits⟩ :=
      Holder.look_running hrunning
    have hwait := s.handle_wait (s.now + patience) true
    rw [step_waitForEnd s _ patience (if_neg hended).symm, moves, if_neg hended]
    by_cases hends : (s.wait (s.now + patience) true).handle.hasEnded
    · -- the first look comes before the end, and the second one sees it
      obtain ⟨outcome, hpoll, hlook⟩ := look_of_hasEnded hends 1 waits
      refine ⟨[⟨2, some outcome⟩], ?_⟩
      rw [if_pos hends] at hwait
      rw [if_pos hends, hpoll, ← hlook, hwait, Holder.run_cons, Holder.step, hfirst]
      exact ⟨rfl, rfl⟩
    · -- the end does not come in time, and the wait is given up
      refine ⟨[⟨1, none⟩], ?_⟩
      rw [if_neg hends] at hwait
      rw [if_neg hends, Holder.run_cons, Holder.step, hfirst, hwait]
      simp only [Handle.poll, hrunning]
      exact ⟨rfl, rfl⟩

/-- Every step of a session makes the moves that it comes to. -/
theorem run_moves (s : Session) (step : Step) (waits : List Wait) :
    ∃ more, Holder.run ⟨s.handle, 0, waits⟩ (s.moves step)
        = ⟨(s.step step).2.handle, 0, waits ++ more⟩ ∧
      more.map Wait.outcome = (s.step step).1.outcome?.toList := by
  cases step with
  | waitForEnd patience => exact s.run_moves_waitForEnd patience waits
  | unsubscribe => exact ⟨[], by rw [List.append_nil]; rfl, rfl⟩
  | drop => exact ⟨[], by rw [List.append_nil]; rfl, rfl⟩
  | isUnsubscribed => exact ⟨[], by rw [List.append_nil]; rfl, rfl⟩
  | sleep ms =>
    refine ⟨[], ?_, rfl⟩
    have hwait := s.handle_wait (s.now + ms) false
    rw [List.append_nil, moves]
    show _ = Holder.mk (s.wait (s.now + ms) false).handle 0 waits
    split
    next ended => rw [hwait, if_pos ended]; rfl
    next running => rw [hwait, if_neg running]; rfl

/-- A session is a run of a holder, and its answers are what the waits of that holder brought. -/
theorem run_allMoves (s : Session) (steps : List Step) (waits : List Wait) :
    ((Holder.mk s.handle 0 waits).run (s.allMoves steps)).waits.map Wait.outcome
      = waits.map Wait.outcome ++ s.answers steps := by
  induction steps generalizing s waits with
  | nil => exact (List.append_nil _).symm
  | cons step rest ih =>
    obtain ⟨more, hrun, hmore⟩ := s.run_moves step waits
    have hanswers : s.answers (step :: rest)
        = (s.step step).1.outcome?.toList ++ (s.step step).2.answers rest := by
      unfold answers
      rw [trail, List.filterMap_cons]
      cases (s.step step).1.outcome? <;> rfl
    rw [allMoves, Holder.run_append, hrun, ih, hanswers, ← hmore, List.map_append,
      List.append_assoc]

/-- The task of a session ends with what its body says. -/
theorem finish_mem_moves {s : Session} {step : Step} {ending : Ending}
    (mem : Move.finish ending ∈ s.moves step) : ending = s.body.ending := by
  cases step with
  | waitForEnd patience =>
    rw [moves] at mem
    split at mem
    · simp at mem
    · split at mem
      · simpa using mem
      · simp at mem
  | sleep ms =>
    rw [moves] at mem
    split at mem
    · simpa using mem
    · simp at mem
  | unsubscribe => simp [moves] at mem
  | drop => simp [moves] at mem
  | isUnsubscribed => simp [moves] at mem

theorem finish_mem_allMoves {s : Session} {steps : List Step} {ending : Ending}
    (mem : Move.finish ending ∈ s.allMoves steps) : ending = s.body.ending := by
  induction steps generalizing s with
  | nil => exact absurd mem List.not_mem_nil
  | cons step rest ih =>
    rw [allMoves, List.mem_append] at mem
    rcases mem with hmem | hmem
    · exact finish_mem_moves hmem
    · rw [ih hmem, body_step]

end Session

/-- Waits that were given up brought nothing. -/
theorem GivenUp.map_outcome {waits : List Wait} (given : GivenUp waits) :
    waits.map Wait.outcome = List.replicate waits.length none := by
  rw [List.eq_replicate_iff, List.length_map]
  refine ⟨rfl, fun outcome hmem => ?_⟩
  obtain ⟨wait, hwait, rfl⟩ := List.mem_map.mp hmem
  exact given wait hwait

/-- In every session the waits are pending for as long as the task has not ended; the first one after
that is told what it ended with, and the others nothing. -/
theorem Session.answers_eq (body : Body) (steps : List Step) :
    ∃ pending looks sights, (Session.start body).answers steps = List.replicate pending none
      ++ (reports body.ending.error? looks sights).map Wait.outcome := by
  have hanswers := (Session.start body).run_allMoves steps []
  rw [List.map_nil, List.nil_append] at hanswers
  rw [← hanswers]
  by_cases hends : Move.finish body.ending ∈ (Session.start body).allMoves steps
  · obtain ⟨earlier, later, hsplit, hfirst⟩ := List.eq_append_cons_of_mem hends
    have hrunning : Running earlier := by
      intro ending hmem
      have hwhole : Move.finish ending ∈ (Session.start body).allMoves steps := by
        rw [hsplit]
        exact List.mem_append_left _ hmem
      have hbody : ending = body.ending := Session.finish_mem_allMoves hwhole
      exact hfirst (hbody ▸ hmem)
    obtain ⟨givenUp, looks, hgiven, hwaits⟩ := Holder.run_finish earlier later _ hrunning
    refine ⟨givenUp.length, looks, later.count .look, ?_⟩
    rw [hsplit]
    show (Holder.start.run _).waits.map Wait.outcome = _
    rw [hwaits, List.map_append, hgiven.map_outcome]
  · have hrunning : Running ((Session.start body).allMoves steps) := by
      intro ending hmem
      exact hends (Session.finish_mem_allMoves hmem ▸ hmem)
    have hgiven := (Holder.run_running (h := Holder.start) rfl givenUp_nil hrunning).2
    exact ⟨_, 0, 0, hgiven.map_outcome.trans (List.append_nil _).symm⟩

/-- A task that answers with an error when it is told to stop, and one that does not listen and
fails after five milliseconds: both were told to stop while they ran, and the wait that follows is
told of the error. -/
theorem unsubscribed_failures_reported :
    ((Session.start ⟨true, 0, .failed .subscriptionClosed⟩).unsubscribe.handle = ⟨true, .running⟩ ∧
      ((Session.start ⟨true, 0, .failed .subscriptionClosed⟩).trail
          [.unsubscribe, .isUnsubscribed, .waitForEnd 1000]).map Prod.fst
        = [.nothing, .flag true, .ended (some .subscriptionClosed)]) ∧
    (Session.start ⟨false, 5, .failed .subscriptionClosed⟩).unsubscribe.handle = ⟨true, .running⟩ ∧
      ((Session.start ⟨false, 5, .failed .subscriptionClosed⟩).trail
          [.unsubscribe, .isUnsubscribed, .waitForEnd 1000]).map Prod.fst
        = [.nothing, .flag true, .ended (some .subscriptionClosed)] := by
  decide

end ChainWatch.Subscription
