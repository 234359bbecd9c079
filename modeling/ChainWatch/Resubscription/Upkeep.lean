import ChainWatch.Resubscription.Supervisor
import ChainWatch.Subscription.Holder

/-!
# The upkeep of a subscription

Three take part in the upkeep of a subscription. The supervisor keeps it alive. The dispatcher takes
the notices out of the outbox, one at a time, and hands them to the listeners. And somebody holds
the handle of the supervisor: they may wait for its end, and they tell it to stop when they
unsubscribe or let go of the handle.

Each of the three goes on when it pleases. The supervisor never waits for the dispatcher: a notice
that finds no room is dropped there and then.
-/

namespace ChainWatch.Resubscription

/-- The notices that a supervisor raises when something happens. -/
def Supervisor.raises (s : Supervisor) (h : Happening) : List Notice :=
  (s.step h).notices.drop s.notices.length

/-- What the task of a supervisor has ended with. -/
def Phase.ending? : Phase → Option Subscription.Ending
  | ended none => some .finished
  | ended (some error) => some (.failed error)
  | _ => none

/-- A supervisor, its notices, and the holder of its handle. -/
structure Upkeep where
  supervisor : Supervisor
  outbox : Outbox
  holder : Subscription.Holder

namespace Upkeep

/-- What may come next. -/
inductive Move where
  /-- Something happens to the supervisor. -/
  | happen (h : Happening)
  /-- The dispatcher hands the oldest notice that waits to its listener. -/
  | deliver
  /-- The holder of the handle looks for the end of the supervisor. -/
  | look
  /-- The holder gives up waiting for it. -/
  | giveUp
deriving DecidableEq

def start (policy : Policy) (clock : Nat) : Upkeep :=
  ⟨.start policy clock, .start policy.room, .start⟩

/-- What a happening is to the holder of the handle, where it leaves the supervisor in a phase. -/
def seen (h : Happening) (next : Phase) : List Subscription.Move :=
  (if h = .told then [.unsubscribe] else []) ++ (next.ending?.map .finish).toList

/-- Something happens to the supervisor. -/
def happen (u : Upkeep) (h : Happening) : Upkeep where
  supervisor := u.supervisor.step h
  outbox := (u.supervisor.raises h).foldl Outbox.post u.outbox
  holder := u.holder.run (seen h (u.supervisor.step h).phase)

def step (u : Upkeep) : Move → Upkeep
  | .happen h => u.happen h
  | .deliver => { u with outbox := u.outbox.deliver }
  | .look => { u with holder := u.holder.look }
  | .giveUp => { u with holder := u.holder.giveUp }

/-- The upkeep after a list of moves. -/
def run (u : Upkeep) (moves : List Move) : Upkeep := moves.foldl step u

/-- What happened to the supervisor. -/
def happenings (moves : List Move) : List Happening :=
  moves.filterMap fun
    | .happen h => some h
    | _ => none

end Upkeep

end ChainWatch.Resubscription
