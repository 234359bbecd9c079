import ChainWatch.Resubscription.Supervisor
import ChainWatch.Subscription.Handle

/-!
# Runs of a supervisor

A run makes the attempts of a list, one after another, and then one whose subscription stays up
until it is told to stop. Times are in nanoseconds; sleeping ends on whole milliseconds. The clock
that measures how long retrying goes on does not take part in the waiting: it moves on by a
nanosecond with everything that happens. Every pause is as long as its interval. Notices are
delivered whenever the supervisor waits.

The supervisor may be told to stop some time after the start of one of the attempts. What is due
at that very moment comes later, but if it is the start itself, what can be done at once is done.
-/

namespace ChainWatch.Resubscription

/-- A millisecond in nanoseconds. -/
def millisecond : Nat := 1000000

/-- An attempt as it will go: how many milliseconds it takes and what it brings. -/
structure Attempt where
  delay : Nat
  result : Except ChainError Subscription.Body

/-- The attempt after the last one of a list. -/
def Attempt.steady : Attempt := ⟨0, .ok .steady⟩

/-- When the supervisor is told to stop: so many milliseconds after the start of an attempt; the
first one has number 1. -/
structure Stop where
  attempt : Nat
  after : Nat

/-- A run at a moment. -/
structure Run where
  supervisor : Supervisor
  outbox : Outbox
  now : Nat
  /-- What the clock shows that measures how long retrying goes on. -/
  clock : Nat
  /-- When the supervisor is told to stop. -/
  stopTime : Option Nat
  /-- What is due from here on comes after that. -/
  horizon : Option Nat
  /-- How many subscriptions ended because they were told to. -/
  stopped : Nat

namespace Run

def start (policy : Policy) : Run :=
  ⟨.start policy 0, .start policy.room, 0, 0, none, none, 0⟩

/-- Something happens to the supervisor; its new notices go into the outbox, and the clock moves
on. -/
def meet (r : Run) (h : Happening) : Run :=
  let next := r.supervisor.step h
  let fresh := next.notices.drop r.supervisor.notices.length
  { r with supervisor := next, outbox := fresh.foldl Outbox.post r.outbox, clock := r.clock + 1 }

/-- Is the supervisor told to stop before what is due at a time? -/
def toldBefore (r : Run) (time : Nat) : Bool :=
  match r.horizon with
  | some horizon => horizon ≤ time
  | none => false

/-- Tells the supervisor to stop. -/
def tell (r : Run) : Run :=
  { (r.meet .told).meet .heeded with now := (r.stopTime).getD r.now }

/-- The supervisor sleeps, unless there is nothing to sleep for, and wakes up or is told to stop. -/
def sleep (r : Run) (length : Nat) : Run :=
  if length = 0 then r
  else
    let wake := (r.now + length + (millisecond - 1)) / millisecond * millisecond
    let r := { r with outbox := r.outbox.drain }
    if r.toldBefore wake then r.tell else { r with now := wake }

/-- How long the next pause would be. -/
def nextPause (r : Run) : Nat := r.supervisor.backoff.interval

/-- The subscription is up: it ends by itself, or the supervisor is told to stop and waits for its
end. -/
def liveThrough (r : Run) (body : Subscription.Body) : Run :=
  let r := { r with outbox := r.outbox.drain }
  let body := { body with pause := body.pause * millisecond }
  match body.end? r.now none with
  | some finish =>
    if r.toldBefore finish then r.tell.meet .closed
    else { r with now := finish }.meet (.lost body.ending.error? r.clock r.nextPause)
  | none =>
    if r.stopTime.isSome then
      let r := r.tell.meet .closed
      { r with stopped := r.stopped + 1 }
    else r

/-- An attempt starts; if the supervisor is told to stop so long after this one, that has a time now. -/
def aim (r : Run) (stop : Option Stop) (number : Nat) : Run :=
  match stop with
  | some stop =>
    if stop.attempt = number then
      let time := r.now + stop.after * millisecond
      { r with stopTime := some time, horizon := some (max time (r.now + 1)) }
    else r
  | none => r

/-- The attempt brings what it brings, if the supervisor has waited for it. -/
def answer (r : Run) (result : Except ChainError Subscription.Body) : Run :=
  match r.supervisor.phase, result with
  | .subscribing, .error e => r.meet (.refused e r.clock r.nextPause)
  | .subscribing, .ok body => (r.meet (.established r.clock)).liveThrough body
  | _, _ => r

/-- The pause, if the supervisor makes one. -/
def rest (r : Run) : Run :=
  match r.supervisor.phase with
  | .pausing length _ => (r.sleep length).meet .rested
  | _ => r

/-- Makes an attempt and waits for what comes of it, up to the end of the pause after it. -/
def attempt (r : Run) (stop : Option Stop) (number : Nat) (a : Attempt) : Run :=
  let r := (r.meet (.turn r.now)).aim stop number
  ((r.sleep (a.delay * millisecond)).answer a.result).rest

/-- Makes the attempts of a list, as long as the supervisor goes on. -/
def attempts (stop : Option Stop) : (number : Nat) → List Attempt → Run → Run
  | _, [], r => r
  | number, a :: rest, r =>
    if r.supervisor.phase = .ready then attempts stop (number + 1) rest (r.attempt stop number a)
    else r

/-- The whole run. All notices are delivered in the end. -/
def whole (policy : Policy) (stop : Option Stop) (list : List Attempt) : Run :=
  let r := attempts stop 1 (list ++ [.steady]) (start policy)
  { r with outbox := r.outbox.drain }

/-- The error that the supervisor ended with. -/
def error? (r : Run) : Option ChainError :=
  match r.supervisor.phase with
  | .ended error => error
  | _ => none

end Run

end ChainWatch.Resubscription
