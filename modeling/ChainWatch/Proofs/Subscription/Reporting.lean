import ChainWatch.Subscription.Holder

/-!
# How the end of a task is reported

The holder of a handle waits for the end of a task as often as it likes, and gives up as many of
its waits as it likes. `end_reported_once` says what becomes of all of them: none is over before
the task has ended, unless it is given up; the first look after the end brings what the task ended
with; and every wait after that is over with its first look and brings nothing.

Telling a task to stop has no part in this. What a task ends with is reported in the same way
whether it was told or not, so that a task that answers with an error, or that fails after all, is
reported with that error. `unsubscribed_quiet_iff` says when a holder who has unsubscribed hears
nothing of the kind.
-/

namespace ChainWatch.Subscription

/-! ## What an end has to be reported as -/

/-- A task that breaks down is reported as an internal error, one that fails with its own error;
other endings are no errors. -/
def Ending.AsksFor : Ending → Option ChainError → Prop
  | finished, outcome | cutOff, outcome => outcome = none
  | failed error, outcome => outcome = some error
  | broken _, outcome | brokenSilently, outcome => ∃ reason, outcome = some (.internal reason)

theorem Ending.asksFor_error? (ending : Ending) : ending.AsksFor ending.error? := by
  cases ending with
  | finished => rfl
  | failed error => rfl
  | broken message => exact ⟨_, rfl⟩
  | brokenSilently => exact ⟨_, rfl⟩
  | cutOff => rfl

/-- The task does not end in these moves. -/
def Running (moves : List Move) : Prop := ∀ ending, Move.finish ending ∉ moves

/-- All of these waits were given up. -/
def GivenUp (waits : List Wait) : Prop := ∀ wait ∈ waits, wait.outcome = none

/-- The waits of a holder that looks so often after the end of its task. The first of them, which
may have begun before the end, takes so many looks in all; the others take one. -/
def reports (outcome : Option ChainError) (looks : Nat) : (sights : Nat) → List Wait
  | 0 => []
  | sights + 1 => ⟨looks, some outcome⟩ :: List.replicate sights ⟨1, some none⟩

theorem givenUp_nil : GivenUp [] := fun _ hmem => absurd hmem List.not_mem_nil

theorem GivenUp.snoc {waits : List Wait} (given : GivenUp waits) (looks : Nat) :
    GivenUp (waits ++ [⟨looks, none⟩]) := by
  intro wait hmem
  rcases List.mem_append.mp hmem with hmem | hmem
  · exact given wait hmem
  · rw [List.mem_singleton.mp hmem]

/-! ## One look -/

namespace Handle

theorem finish_of_running {h : Handle} (running : h.progress = .running) (ending : Ending) :
    h.finish ending = { h with progress := .ended ending } := by
  simp only [finish, running]

/-- A task ends only once. -/
theorem finish_of_not_running {h : Handle} (ended : h.progress ≠ .running) (ending : Ending) :
    h.finish ending = h := by
  unfold finish
  split
  next running => exact absurd running ended
  next => rfl

end Handle

namespace Holder

variable {h : Holder} {ending : Ending}

theorem look_running (progress : h.handle.progress = .running) :
    h.look = { h with looks := h.looks + 1 } := by
  simp only [look, Handle.poll, progress]

theorem look_ended (progress : h.handle.progress = .ended ending) :
    h.look = ⟨{ h.handle with progress := .reported }, 0,
      h.waits ++ [⟨h.looks + 1, some ending.error?⟩]⟩ := by
  simp only [look, Handle.poll, progress]

theorem look_reported (progress : h.handle.progress = .reported) :
    h.look = { h with looks := 0, waits := h.waits ++ [⟨h.looks + 1, some none⟩] } := by
  simp only [look, Handle.poll, progress]

/-- A move that is no look, and not the end of a running task, leaves the progress of the task and
tells nobody anything. Where no wait is under way it leaves the waits as they are. -/
theorem step_quiet {move : Move} (other : move ≠ .look)
    (settled : h.handle.progress ≠ .running ∨ ∀ ending, move ≠ .finish ending) :
    (h.step move).handle.progress = h.handle.progress ∧
      (GivenUp h.waits → GivenUp (h.step move).waits) ∧
      (h.looks = 0 → (h.step move).looks = 0 ∧ (h.step move).waits = h.waits) := by
  cases move with
  | look => exact absurd rfl other
  | giveUp =>
    by_cases hidle : h.looks = 0
    · have hsame : h.step .giveUp = h := if_pos hidle
      rw [hsame]
      exact ⟨rfl, id, fun _ => ⟨hidle, rfl⟩⟩
    · have hgivenUp : h.step .giveUp
          = { h with looks := 0, waits := h.waits ++ [⟨h.looks, none⟩] } := if_neg hidle
      rw [hgivenUp]
      exact ⟨rfl, fun given => given.snoc h.looks, fun idle => absurd idle hidle⟩
  | unsubscribe => exact ⟨rfl, id, fun idle => ⟨idle, rfl⟩⟩
  | finish ending =>
    have hended : h.handle.progress ≠ .running :=
      settled.resolve_right fun unending => unending ending rfl
    show (h.handle.finish ending).progress = _ ∧ _
    rw [Handle.finish_of_not_running hended]
    exact ⟨rfl, id, fun idle => ⟨idle, rfl⟩⟩

/-! ## All looks of a run

A task runs, then it has ended and nobody was told, then somebody was. Each of the three lemmas goes
through a run that begins in one of these. -/

theorem run_append (h : Holder) (before after : List Move) :
    h.run (before ++ after) = (h.run before).run after := List.foldl_append

theorem run_cons (h : Holder) (move : Move) (rest : List Move) :
    h.run (move :: rest) = (h.step move).run rest := rfl

/-- While the task runs no wait is over but by being given up. -/
theorem run_running {moves : List Move} (progress : h.handle.progress = .running)
    (given : GivenUp h.waits) (running : Running moves) :
    (h.run moves).handle.progress = .running ∧ GivenUp (h.run moves).waits := by
  induction moves generalizing h with
  | nil => exact ⟨progress, given⟩
  | cons move rest ih =>
    have hrest : Running rest := fun ending hmem => running ending (List.mem_cons_of_mem _ hmem)
    rw [run_cons]
    by_cases hlook : move = .look
    · rw [hlook, step, look_running progress]
      exact ih progress given hrest
    · have hunending : ∀ ending, move ≠ .finish ending := by
        intro ending hfinish
        exact running ending (hfinish ▸ List.mem_cons_self)
      obtain ⟨hprogress, hgiven, -⟩ := step_quiet hlook (.inr hunending)
      exact ih (hprogress.trans progress) (hgiven given) hrest

/-- Once somebody was told, every look is a wait of its own that brings nothing. -/
theorem run_reported (moves : List Move) (progress : h.handle.progress = .reported)
    (idle : h.looks = 0) :
    (h.run moves).waits = h.waits ++ List.replicate (moves.count .look) ⟨1, some none⟩ := by
  induction moves generalizing h with
  | nil => exact (List.append_nil _).symm
  | cons move rest ih =>
    rw [run_cons]
    by_cases hlook : move = .look
    · rw [hlook, step, look_reported progress, List.count_cons_self, List.replicate_succ,
        ih (h := { h with looks := 0, waits := h.waits ++ [⟨h.looks + 1, some none⟩] }) progress rfl,
        idle, List.append_assoc]
      rfl
    · have hended : h.handle.progress ≠ .running := by simp [progress]
      obtain ⟨hprogress, -, hwaits⟩ := step_quiet hlook (.inl hended)
      obtain ⟨hidle, hsame⟩ := hwaits idle
      rw [List.count_cons_of_ne hlook, ih (hprogress.trans progress) hidle, hsame]

/-- When the task has ended the next look reports it, whatever is given up until then. -/
theorem run_ended (moves : List Move) (progress : h.handle.progress = .ended ending)
    (given : GivenUp h.waits) :
    ∃ givenUp looks, GivenUp givenUp ∧
      (h.run moves).waits = givenUp ++ reports ending.error? looks (moves.count .look) := by
  induction moves generalizing h with
  | nil => exact ⟨h.waits, 0, given, (List.append_nil _).symm⟩
  | cons move rest ih =>
    rw [run_cons]
    by_cases hlook : move = .look
    · refine ⟨h.waits, h.looks + 1, given, ?_⟩
      rw [hlook, step, look_ended progress, List.count_cons_self, reports,
        run_reported rest rfl rfl, List.append_assoc]
      rfl
    · have hended : h.handle.progress ≠ .running := by simp [progress]
      obtain ⟨hprogress, hgiven, -⟩ := step_quiet hlook (.inl hended)
      rw [List.count_cons_of_ne hlook]
      exact ih (hprogress.trans progress) (hgiven given)

/-- The waits of a holder whose task ends among its moves. -/
theorem run_finish (earlier later : List Move) (ending : Ending) (running : Running earlier) :
    ∃ givenUp looks, GivenUp givenUp ∧
      (start.run (earlier ++ .finish ending :: later)).waits
        = givenUp ++ reports ending.error? looks (later.count .look) := by
  obtain ⟨hprogress, hgiven⟩ := run_running (h := start) rfl givenUp_nil running
  rw [run_append]
  refine run_ended (h := (start.run earlier).step (.finish ending)) later ?_ hgiven
  rw [step, Handle.finish_of_running hprogress]

end Holder

/-- Whatever the holder of a handle does, and whenever the task ends, if it does: before the end no
wait is over but those that were given up. After it the first look reports what the task ended
with, and each further one is a wait of its own that brings nothing. -/
theorem end_reported_once (earlier later : List Move) (ending : Ending) (running : Running earlier) :
    GivenUp (Holder.start.run earlier).waits ∧
    ∃ givenUp looks outcome, GivenUp givenUp ∧ ending.AsksFor outcome ∧
      (Holder.start.run (earlier ++ .finish ending :: later)).waits
        = givenUp ++ reports outcome looks (later.count .look) := by
  refine ⟨(Holder.run_running rfl givenUp_nil running).2, ?_⟩
  obtain ⟨givenUp, looks, hgiven, hwaits⟩ := Holder.run_finish earlier later ending running
  exact ⟨givenUp, looks, ending.error?, hgiven, ending.asksFor_error?, hwaits⟩

/-- A wait is given up after two looks; the next one is told of the failure at its first look, which
comes after the end, and then there is nothing more to tell. -/
theorem end_reported_once_second_wait :
    ∃ givenUp looks outcome, GivenUp givenUp ∧ outcome = some .subscriptionClosed ∧
      (Holder.start.run [.look, .look, .giveUp, .finish (.failed .subscriptionClosed), .look, .look,
        .look]).waits = givenUp ++ reports outcome looks 3 := by
  have hrunning : Running [.look, .look, .giveUp] := fun ending => by simp
  exact (end_reported_once _ [.look, .look, .look] (.failed .subscriptionClosed) hrunning).2

/-! ## Handles that were unsubscribed -/

theorem GivenUp.outcomes_eq {waits : List Wait} (given : GivenUp waits) :
    waits.filterMap Wait.outcome = [] :=
  List.filterMap_eq_nil_iff.mpr given

/-- What is told to those who look so often after the end. -/
theorem outcomes_reports (outcome : Option ChainError) (looks sights : Nat) :
    (∀ told ∈ (reports outcome looks sights).filterMap Wait.outcome, told = none) ↔
      outcome = none ∨ sights = 0 := by
  cases sights with
  | zero => simp [reports]
  | succ sights => simp [reports]

/-- A holder unsubscribes while the task runs, and the task goes on for a while or for ever. As long
as it runs nobody is told anything. Once it has ended, nobody is told of an error exactly if the
task has not ended with one, or if nobody looks any more. -/
theorem unsubscribed_quiet_iff (before between later : List Move) (ending : Ending)
    (running : Running (before ++ .unsubscribe :: between)) :
    (Holder.start.run (before ++ .unsubscribe :: between)).outcomes = [] ∧
    ((∀ told ∈ (Holder.start.run
        (before ++ .unsubscribe :: between ++ .finish ending :: later)).outcomes, told = none) ↔
      ending.error? = none ∨ Move.look ∉ later) := by
  refine ⟨(Holder.run_running rfl givenUp_nil running).2.outcomes_eq, ?_⟩
  obtain ⟨givenUp, looks, hgiven, hwaits⟩ := Holder.run_finish _ later ending running
  rw [Holder.outcomes, hwaits, List.filterMap_append, hgiven.outcomes_eq, List.nil_append,
    outcomes_reports, List.count_eq_zero]

/-- A task that ends cleanly some time after it was told to stop. -/
theorem unsubscribed_quiet_iff_clean_end :
    Running ([.look] ++ .unsubscribe :: [.giveUp]) ∧
      ∀ told ∈ (Holder.start.run [.look, .unsubscribe, .giveUp, .finish .finished, .look]).outcomes,
        told = none := by
  have hrunning : Running ([.look] ++ .unsubscribe :: [.giveUp]) := fun ending => by simp
  have hquiet := (unsubscribed_quiet_iff [.look] [.giveUp] [.look] .finished hrunning).2
  exact ⟨hrunning, hquiet.mpr (.inl rfl)⟩

end ChainWatch.Subscription
