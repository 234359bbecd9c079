import ChainWatch.Metrics.Sample
import ChainWatch.Node.Script
import ChainWatch.Settings.Basic
import ChainWatch.Transaction

/-!
# Waiting for a transaction to be mined

A waiter looks for the receipt of a transaction through one check window after the other. At the
end of each window without a receipt the transaction is replaced by one with the same nonce, the
same gas limit and a higher price, until a receipt shows up or the ceiling leaves no room.

This module holds the vocabulary: the waiter, what it asks of the node and of its caller, and how
a run can end. Times are in milliseconds.
-/

namespace ChainWatch.Mining

/-- The bounds a waiter keeps to. -/
structure Waiter where
  /-- The length of a check window. -/
  window : Nat
  /-- The time from one lookup's due time to the next one's. -/
  poll : Nat
  /-- No price above this one is offered. -/
  ceiling : Word

/-- Lookups are a second apart where nothing else is said. -/
def defaultPoll : Nat := 1000

def Waiter.ofSettings (s : MiningSettings) : Waiter :=
  ⟨s.check.millis, s.receiptPoll.millis, s.ceiling⟩

/-- Why a waiter stopped raising the price. -/
inductive GiveUpReason where
  /-- The first transaction was priced at the ceiling or above. -/
  | firstAtCeiling
  /-- The last replacement was priced at the ceiling. -/
  | ceilingReached
  /-- No replacement that a node accepts fits below the ceiling. -/
  | floorAboveCeiling
deriving DecidableEq

def GiveUpReason.label : GiveUpReason → String
  | firstAtCeiling => "original_at_ceiling"
  | ceilingReached => "ceiling_reached"
  | floorAboveCeiling => "floor_above_ceiling"

/-- The label under which a failed replacement is counted among the waiters that gave up. -/
def resubmissionFailedLabel : String := "resubmission_failed"

/-- How a run ends without an error. -/
inductive Verdict where
  | mined (transaction : Transaction) (receipt : Receipt)
  /-- `last` is the latest broadcast; it may still be mined. -/
  | gaveUp (reason : GiveUpReason) (last : Transaction)
deriving DecidableEq

/-- What a waiter asks, of the node or of its caller. -/
inductive Call where
  | lookup (hash : Hash)
  | latestBlock
  | resubmit (options : GasOptions)
deriving DecidableEq

/-- The answers that a waiter meets, by the number of the call of each sort, counted from zero. -/
structure Surroundings where
  receipt : Nat → Hash → Node.Timed (Option Receipt)
  block : Nat → Node.Timed Header
  resubmit : Nat → GasOptions → Node.Timed Transaction

end ChainWatch.Mining
