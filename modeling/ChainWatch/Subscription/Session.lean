import ChainWatch.Subscription.Handle

/-!
# Sessions with a subscription

A session goes through a list of steps on one subscription. Times are in milliseconds. The task
goes on only while the session waits; where both are due at the same millisecond, the session
goes first.
-/

namespace ChainWatch.Subscription

/-- A subscription at a moment. -/
structure Session where
  body : Body
  handle : Handle
  now : Nat
  /-- When the task was told to stop. -/
  cancelledAt : Option Nat

/-- The steps of a session. -/
inductive Step where
  | waitForEnd (patience : Nat)
  | unsubscribe
  | drop
  | isUnsubscribed
  | sleep (ms : Nat)

/-- What a step answers. -/
inductive StepAnswer where
  | nothing
  | flag (b : Bool)
  | ended (error : Option ChainError)
  | pending
deriving DecidableEq

namespace Session

def start (body : Body) : Session := ⟨body, .start, 0, none⟩

/-- When the running task will end, as far as that is known. -/
def endsAt? (s : Session) : Option Nat :=
  if s.handle.hasEnded then none else s.body.end? 0 s.cancelledAt

/-- Waits until a time, or only until the task ends if that is what is waited for. -/
def wait (s : Session) (time : Nat) (untilEnd : Bool) : Session :=
  if time ≤ s.now then s
  else
    match s.endsAt? with
    | some finish =>
      if finish < time ∨ finish ≤ s.now then
        { s with
          handle := s.handle.finish s.body.ending
          now := if untilEnd then max s.now finish else time }
      else { s with now := time }
    | none => { s with now := time }

def unsubscribe (s : Session) : Session :=
  { s with handle := s.handle.unsubscribe, cancelledAt := s.cancelledAt.or (some s.now) }

/-- Reports the end, if there is one to report. -/
def report (s : Session) : Option (Option ChainError) × Session :=
  let (outcome, handle) := s.handle.poll
  (outcome, { s with handle := handle })

/-- How many tasks ended because they were told to. -/
def stopped (s : Session) : Nat := if s.body.untilCancelled ∧ s.handle.hasEnded then 1 else 0

/-- One step. -/
def step (s : Session) : Step → StepAnswer × Session
  | .waitForEnd patience =>
    let s := if s.handle.hasEnded then s else s.wait (s.now + patience) true
    match s.report with
    | (some error, s) => (.ended error, s)
    | (none, s) => (.pending, s)
  | .unsubscribe | .drop => (.nothing, s.unsubscribe)
  | .isUnsubscribed => (.flag s.handle.cancelled, s)
  | .sleep ms => (.nothing, s.wait (s.now + ms) false)

/-- The answers to a list of steps, each with the session after it. -/
def trail (s : Session) : List Step → List (StepAnswer × Session)
  | [] => []
  | step :: rest =>
    let (answer, next) := s.step step
    (answer, next) :: next.trail rest

end Session

end ChainWatch.Subscription
