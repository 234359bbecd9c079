import ChainWatch.BlockCounter.Poller
import ChainWatch.HeadFollower
import ChainWatch.Limiter.Permits
import ChainWatch.Mining.Run
import ChainWatch.Resubscription.Backoff

/-!
# The components that run on settings

Each component is made from its own part of the settings and breaks down, when it is made or at its
first turn, on values that it cannot work with: a ticker that has no pause, or more slots or more
room than can be managed. `Settings.fault?` collects what each of them does with the settings as
they are; `Settings.flaw?` is the check that is to keep such settings from them.
-/

namespace ChainWatch

/-- What runs on settings. -/
inductive Component where
  /-- Whoever waits for this transaction to be mined. -/
  | waiter (first : Transaction)
  | blockCounter
  | headFollower
  | resubscription
  | limiter

/-- What a component that is made from these settings breaks down with, if it does. -/
def Settings.fault? (s : Settings) : Component → Option Fault
  | .waiter first => Mining.fault? (.ofSettings s.mining) first
  | .blockCounter => BlockCounter.fault? s.chain.blockPoll.millis
  | .headFollower => HeadFollower.fault? s.chain.headDedupe.nanos
  | .resubscription => (Resubscription.Policy.ofSettings s.resubscribe).fault?
  | .limiter => (Limiter.Plan.ofSettings s.rateLimit).fault?

end ChainWatch
