import ChainWatch.Settings.Basic

/-!
# Backing off

Between two attempts to subscribe there is a pause around an interval that starts at a tenth of
the longest one and doubles from pause to pause until it is the longest one. A success starts it
over. Retrying ends when the time since the last success, together with the next pause, passes
what is allowed. Times are in nanoseconds.
-/

namespace ChainWatch.Resubscription

/-- How subscriptions are kept alive. -/
structure Policy where
  /-- The longest interval between two attempts. -/
  backoffMax : Nat
  /-- Attempts closer together than this raise an alert. -/
  alertThreshold : Nat
  /-- For how long to retry without a success; without a number, for ever. -/
  maxElapsed : Option Nat
  /-- How many notices may wait to be delivered. -/
  capacity : Nat

/-- The fewest notices that there is always room for. -/
def Policy.leastCapacity : Nat := 1

/-- How many notices may wait where nothing else is said. -/
def Policy.defaultCapacity : Nat := 16

/-- A policy without a limit on retrying. -/
def Policy.of (backoffMax alertThreshold : Nat) : Policy :=
  ⟨backoffMax, alertThreshold, none, defaultCapacity⟩

/-- The same policy with room for so many notices. -/
def Policy.withCapacity (p : Policy) (capacity : Nat) : Policy :=
  { p with capacity := max capacity leastCapacity }

/-- How many notices may wait, whatever the policy asks for. -/
def Policy.room (p : Policy) : Nat := max p.capacity leastCapacity

/-- The policy that settings ask for. -/
def Policy.ofSettings (s : ResubscribeSettings) : Policy :=
  { Policy.of s.backoffMax.nanos s.alertThreshold.nanos with
    maxElapsed := s.maxElapsed.map Duration.nanos }.withCapacity s.eventBuffer.toNat

/-- The most notices that can be managed. -/
def Policy.mostCapacity : Nat := UInt64.size / 8 - 1

/-- A policy that asks for too much room breaks down before the first attempt. -/
def Policy.fault? (p : Policy) : Option Fault :=
  if p.capacity ≤ mostCapacity then none else some .tooManySlots

/-- The state of the pauses: the interval of the next one, and when they started over. -/
structure Backoff where
  interval : Nat
  since : Nat
deriving DecidableEq

namespace Backoff

/-- Starts over at a reading of the clock. -/
def start (p : Policy) (clock : Nat) : Backoff := ⟨p.backoffMax / 10, clock⟩

/-- The state after one more pause. -/
def grow (b : Backoff) (p : Policy) : Backoff := { b with interval := min (2 * b.interval) p.backoffMax }

/-- Is there time for a pause? -/
def allows (b : Backoff) (p : Policy) (clock pause : Nat) : Bool :=
  match p.maxElapsed with
  | none => true
  | some most => clock - b.since + pause ≤ most

end Backoff

end ChainWatch.Resubscription
