import ChainWatch.Subscription.Handle

/-!
# Holders of handles

Whoever holds a handle may wait for the end of its task, one wait after another. A wait looks at the
handle when it begins and again when it is woken, and it is over as soon as it sees an end. It may
be given up before that: who waits for several things at once gives up the others when one of them
comes. Meanwhile the task goes on. When it ends, and with what, is its own affair, also after it was
told to stop.
-/

namespace ChainWatch.Subscription

/-- A wait that is over. -/
structure Wait where
  /-- How often it looked. -/
  looks : Nat
  /-- What it was told about the end of the task; nothing if it was given up. -/
  outcome : Option (Option ChainError)
deriving DecidableEq

/-- What may happen next. -/
inductive Move where
  /-- The wait that is under way looks; if there is none, a new one begins with this look. -/
  | look
  /-- The wait that is under way is given up. -/
  | giveUp
  | unsubscribe
  /-- The task ends. -/
  | finish (ending : Ending)
deriving DecidableEq

/-- A handle and the waits of its holder. -/
structure Holder where
  handle : Handle
  /-- How often the wait that is under way has looked; zero if there is none. -/
  looks : Nat
  /-- The waits that are over, the earliest first. -/
  waits : List Wait
deriving DecidableEq

namespace Holder

/-- The holder of the handle of a task that has just been started. -/
def start : Holder := ⟨.start, 0, []⟩

def look (h : Holder) : Holder :=
  match h.handle.poll with
  | (none, handle) => { h with handle := handle, looks := h.looks + 1 }
  | (some outcome, handle) => ⟨handle, 0, h.waits ++ [⟨h.looks + 1, some outcome⟩]⟩

def giveUp (h : Holder) : Holder :=
  if h.looks = 0 then h else { h with looks := 0, waits := h.waits ++ [⟨h.looks, none⟩] }

def step (h : Holder) : Move → Holder
  | .look => h.look
  | .giveUp => h.giveUp
  | .unsubscribe => { h with handle := h.handle.unsubscribe }
  | .finish ending => { h with handle := h.handle.finish ending }

/-- The holder after a list of moves. -/
def run (h : Holder) (moves : List Move) : Holder := moves.foldl step h

/-- What was told to the waits that were not given up, the earliest first. -/
def outcomes (h : Holder) : List (Option ChainError) := h.waits.filterMap Wait.outcome

end Holder

end ChainWatch.Subscription
