import ChainWatch.Error

/-!
# Subscriptions

A subscription is a task that runs in the background and a handle to it. The handle can tell the
task to stop, and it can wait for its end. The first wait that sees the end reports what the task
ended with; after that there is nothing more to report.
-/

namespace ChainWatch.Subscription

/-- How a task ends. -/
inductive Ending where
  | finished
  | failed (error : ChainError)
  /-- It broke down with a message. -/
  | broken (message : String)
  /-- It broke down with something that is no text. -/
  | brokenSilently
  /-- It was cut off from outside, without being told to stop. -/
  | cutOff
deriving DecidableEq

/-- The error that an ending is reported as. Every broken task is called `N`. -/
def Ending.error? : Ending → Option ChainError
  | finished | cutOff => none
  | failed error => some error
  | broken message =>
    some (.internal ("Subscription task panicked: task N panicked with message " ++ Text.quote message))
  | brokenSilently => some (.internal "Subscription task panicked: task N panicked")

/-- What has become of a task. -/
inductive Progress where
  | running
  /-- It has ended, and nobody has been told. -/
  | ended (ending : Ending)
  | reported
deriving DecidableEq

/-- A handle to a task. -/
structure Handle where
  cancelled : Bool
  progress : Progress
deriving DecidableEq

namespace Handle

def start : Handle := ⟨false, .running⟩

/-- Tells the task to stop. -/
def unsubscribe (h : Handle) : Handle := { h with cancelled := true }

/-- The task ends, if it has not done so. -/
def finish (h : Handle) (ending : Ending) : Handle :=
  match h.progress with
  | .running => { h with progress := .ended ending }
  | _ => h

/-- Looks whether there is an end to report: nothing while the task runs; otherwise the error, if
there is one. -/
def poll (h : Handle) : Option (Option ChainError) × Handle :=
  match h.progress with
  | .running => (none, h)
  | .ended ending => (some ending.error?, { h with progress := .reported })
  | .reported => (some none, h)

/-- Has the task ended? -/
def hasEnded (h : Handle) : Bool := h.progress != .running

end Handle

/-- What a task does: it may wait until it is told to stop; then it takes some milliseconds and
ends. -/
structure Body where
  untilCancelled : Bool
  pause : Nat
  ending : Ending
deriving DecidableEq

/-- A task that stays up until it is told to stop. -/
def Body.steady : Body := ⟨true, 0, .finished⟩

/-- When the task ends that started and was told to stop at the given times. -/
def Body.end? (b : Body) (start : Nat) (cancelled : Option Nat) : Option Nat :=
  if b.untilCancelled then cancelled.map fun time => max start time + b.pause
  else some (start + b.pause)

end ChainWatch.Subscription
