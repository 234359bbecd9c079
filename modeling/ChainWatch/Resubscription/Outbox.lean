import ChainWatch.Error

/-!
# Notices and their delivery

What goes wrong while a subscription is kept alive is told to a listener by another task. Notices
wait for it in an outbox of bounded size; one that finds no room is dropped. Those that wait when
the supervisor ends are still delivered.
-/

namespace ChainWatch.Resubscription

/-- What a listener is told. -/
inductive Notice where
  /-- Two attempts came so soon after one another. -/
  | alert (gap : Nat)
  /-- An attempt failed. -/
  | failure (error : ChainError)
deriving DecidableEq

/-- Notices that wait and those that were delivered, the oldest first. -/
structure Outbox where
  capacity : Nat
  waiting : List Notice
  delivered : List Notice

namespace Outbox

def start (capacity : Nat) : Outbox := ⟨capacity, [], []⟩

/-- Puts a notice in, if there is room. -/
def post (o : Outbox) (n : Notice) : Outbox :=
  if o.waiting.length < o.capacity then { o with waiting := o.waiting ++ [n] } else o

/-- Delivers the oldest notice that waits. -/
def deliver (o : Outbox) : Outbox :=
  match o.waiting with
  | [] => o
  | n :: rest => { o with waiting := rest, delivered := o.delivered ++ [n] }

/-- Delivers all notices that wait. -/
def drain (o : Outbox) : Outbox :=
  { o with waiting := [], delivered := o.delivered ++ o.waiting }

end Outbox

end ChainWatch.Resubscription
