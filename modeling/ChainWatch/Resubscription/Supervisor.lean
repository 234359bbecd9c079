import ChainWatch.Metrics.Sample
import ChainWatch.Resubscription.Backoff
import ChainWatch.Resubscription.Outbox

/-!
# Keeping a subscription alive

A supervisor subscribes, waits for the subscription to end, pauses, and subscribes again, until it
is told to stop or has been at it for too long. It is given here by what it does in answer to what
happens; times and the lengths of pauses come from outside. Everything it does goes into a log.

Attempts that follow each other too soon raise an alert. A supervisor that was told to stop heeds
that as soon as it waits for something that is not there yet; where both are there, either may come
first. A subscription that is up at that moment is unsubscribed, and the supervisor ends when that
subscription has.
-/

namespace ChainWatch.Resubscription

/-- What a supervisor is doing. -/
inductive Phase where
  /-- It is about to make an attempt. -/
  | ready
  | subscribing
  | live
  /-- It pauses for so long; had it been told to stop before it began? -/
  | pausing (length : Nat) (wasTold : Bool)
  /-- It unsubscribed and waits for the end. -/
  | closing
  | ended (error : Option ChainError)
deriving DecidableEq

/-- What a supervisor does. -/
inductive Act where
  /-- It asks for a subscription. -/
  | ask
  | count (sample : Metrics.Sample)
  | notify (notice : Notice)
  /-- It unsubscribes the subscription it has. -/
  | unsubscribe
deriving DecidableEq

/-- What happens to a supervisor. The clock is the one that measures how long retrying goes on;
`pause` is how long the next pause would be. -/
inductive Happening where
  /-- Its turn to make an attempt comes at a time. -/
  | turn (time : Nat)
  /-- The attempt failed. -/
  | refused (error : ChainError) (clock pause : Nat)
  /-- The attempt brought a subscription. -/
  | established (clock : Nat)
  /-- The subscription ended. -/
  | lost (error : Option ChainError) (clock pause : Nat)
  /-- The pause is over. -/
  | rested
  /-- The supervisor is told to stop. -/
  | told
  /-- The supervisor heeds that it was told to stop. -/
  | heeded
  /-- The subscription that was unsubscribed has ended. -/
  | closed
deriving DecidableEq

/-- A supervisor and what it has done, the latest last. -/
structure Supervisor where
  policy : Policy
  phase : Phase
  told : Bool
  /-- When the latest attempt was made. -/
  lastAttempt : Option Nat
  backoff : Backoff
  log : List Act

namespace Supervisor

def start (policy : Policy) (clock : Nat) : Supervisor :=
  ⟨policy, .ready, false, none, .start policy clock, []⟩

def act (s : Supervisor) (acts : List Act) : Supervisor := { s with log := s.log ++ acts }

/-- What is done about the time since the last attempt. -/
def alertActs (s : Supervisor) (time : Nat) : List Act :=
  match s.lastAttempt with
  | none => []
  | some last =>
    if time - last < s.policy.alertThreshold then
      [.count .resubscriptionAlert, .notify (.alert (time - last))]
    else []

/-- Pauses, or gives up. -/
def pauseOrEnd (s : Supervisor) (clock pause : Nat) : Supervisor :=
  if s.backoff.allows s.policy clock pause then
    { s with phase := .pausing pause s.told, backoff := s.backoff.grow s.policy }.act
      [.count .resubscription]
  else { s with phase := .ended (some .resubscriptionExhausted) }

/-- Heeds that it was told to stop, where it can. -/
def heed (s : Supervisor) : Supervisor :=
  match s.phase with
  | .subscribing | .pausing _ _ => { s with phase := .ended none }
  | .live => { s.act [.unsubscribe] with phase := .closing }
  | _ => s

/-- What a supervisor does when something happens; what does not concern it in its phase changes
nothing. A pause that began when the supervisor had been told is never slept through. -/
def step (s : Supervisor) (h : Happening) : Supervisor :=
  match h, s.phase with
  | .told, _ => { s with told := true }
  | .heeded, _ => if s.told then s.heed else s
  | .turn time, .ready =>
    { s.act (s.alertActs time ++ [.ask]) with phase := .subscribing, lastAttempt := some time }
  | .refused error clock pause, .subscribing =>
    (s.act [.count .subscribeFailure, .notify (.failure error)]).pauseOrEnd clock pause
  | .established clock, .subscribing =>
    { s with phase := .live, backoff := .start s.policy clock }
  | .lost _ clock pause, .live => (s.act [.unsubscribe]).pauseOrEnd clock pause
  | .closed, .closing => { s with phase := .ended none }
  | .rested, .pausing length wasTold =>
    if wasTold ∧ 0 < length then s else { s with phase := .ready }
  | _, _ => s

/-- A supervisor after a list of happenings. -/
def run (s : Supervisor) (hs : List Happening) : Supervisor := hs.foldl step s

/-- The samples in the log. -/
def samples (s : Supervisor) : List Metrics.Sample :=
  s.log.filterMap fun
    | .count sample => some sample
    | _ => none

/-- The notices in the log. -/
def notices (s : Supervisor) : List Notice :=
  s.log.filterMap fun
    | .notify notice => some notice
    | _ => none

/-- How often a subscription was asked for. -/
def attempts (s : Supervisor) : Nat := s.log.count .ask

end Supervisor

end ChainWatch.Resubscription
