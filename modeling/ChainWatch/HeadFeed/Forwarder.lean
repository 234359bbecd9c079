import ChainWatch.Error
import ChainWatch.Transaction

/-!
# Forwarding heads

A forwarder listens to a node and passes each head on to a receiver through a sink of bounded
size. While the sink is full it holds the one head that does not fit and does not listen. It ends
with an error only when the node stops telling; it ends without one when the receiver has gone
away or when it was told to stop. Being told to stop is noticed while it listens, never while it
holds a head.
-/

namespace ChainWatch.HeadFeed

/-- What a forwarder is doing. -/
inductive Phase where
  | listening
  /-- It holds a head for which the sink has no room. -/
  | holding (head : Header)
  | ended (error : Option ChainError)
deriving DecidableEq

/-- A forwarder, its sink and its receiver. -/
structure Forwarder where
  capacity : Nat
  /-- The heads in the sink, the oldest first. -/
  sink : List Header
  receiverGone : Bool
  cancelled : Bool
  phase : Phase

namespace Forwarder

def start (capacity : Nat) : Forwarder := ⟨capacity, [], false, false, .listening⟩

/-- Passes on the head that it holds, if it can. -/
def passOn (f : Forwarder) : Forwarder :=
  match f.phase with
  | .holding head =>
    if f.receiverGone then { f with phase := .ended none }
    else if f.sink.length < f.capacity then
      { f with sink := f.sink ++ [head], phase := .listening }
    else f
  | _ => f

/-- Stops a listening forwarder that was told to stop. -/
def heed (f : Forwarder) : Forwarder :=
  match f.phase with
  | .listening => if f.cancelled then { f with phase := .ended none } else f
  | _ => f

/-- Goes on as far as it can without hearing from the node. -/
def settle (f : Forwarder) : Forwarder := f.passOn.heed

/-- The node tells a head. Only a listening forwarder hears it. -/
def hear (f : Forwarder) (head : Header) : Forwarder :=
  match f.phase with
  | .listening => { f with phase := .holding head }
  | _ => f

/-- The node stops telling. -/
def lose (f : Forwarder) : Forwarder :=
  match f.phase with
  | .listening => { f with phase := .ended (some .subscriptionClosed) }
  | _ => f

/-- The receiver takes the oldest head out of the sink. -/
def receive? (f : Forwarder) : Option (Header × Forwarder) :=
  match f.sink with
  | [] => none
  | head :: rest => some (head, { f with sink := rest })

/-- The receiver goes away, and what is in the sink with it. -/
def dropReceiver (f : Forwarder) : Forwarder := { f with receiverGone := true, sink := [] }

/-- Tells the forwarder to stop. -/
def unsubscribe (f : Forwarder) : Forwarder := { f with cancelled := true }

/-- Has it ended? -/
def hasEnded (f : Forwarder) : Bool :=
  match f.phase with
  | .ended _ => true
  | _ => false

/-- The error it ended with. -/
def error? (f : Forwarder) : Option ChainError :=
  match f.phase with
  | .ended error => error
  | _ => none

end Forwarder

end ChainWatch.HeadFeed
