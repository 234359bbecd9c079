import ChainWatch.HeadFeed.Forwarder
import ChainWatch.Node.Client

/-!
# Listening to heads

A session subscribes to the heads of a node, receives them for a while, and then waits for the
subscription to end. What the node tells is a list of items, each some milliseconds after the
forwarder began to listen for it; an item that is no block is passed over. Times are in
milliseconds. Whenever the session waits the forwarder goes on; where both are due at the same
millisecond, the session goes first.
-/

namespace ChainWatch.HeadFeed

/-- Something that the node tells; an item without a head cannot be read. -/
structure Item where
  delay : Nat
  head : Option Header

/-- What the node will tell, and whether it then stops. -/
structure Stream where
  items : List Item
  ends : Bool

/-- An open subscription at a moment. -/
structure Session where
  forwarder : Forwarder
  stream : Stream
  /-- Since when the forwarder has been listening for the next item. -/
  since : Nat
  now : Nat

namespace Session

/-- Hears the items that arrive up to a time, as long as the forwarder listens. -/
def hearUpTo (time : Nat) (ends : Bool) :
    (items : List Item) → (f : Forwarder) → (since : Nat) → List Item × Forwarder × Nat
  | [], f, since => ([], if ends then f.lose else f, since)
  | item :: rest, f, since =>
    if f.phase = .listening ∧ since + item.delay ≤ time then
      match item.head with
      | some head => hearUpTo time ends rest (f.hear head).settle (since + item.delay)
      | none => hearUpTo time ends rest f (since + item.delay)
    else (item :: rest, f, since)

/-- Lets the forwarder go on up to a time that is not before the present. -/
def flow (s : Session) (time : Nat) : Session :=
  let wasHolding := s.forwarder.phase ≠ .listening
  let f := s.forwarder.settle
  let (items, f, since) := hearUpTo time s.stream.ends s.stream.items f
    (if wasHolding then s.now else s.since)
  { s with forwarder := f, stream := { s.stream with items := items }, since := since }

/-- When the next item arrives, if the forwarder listens for one. -/
def nextArrival? (s : Session) : Option Nat :=
  match s.forwarder.phase, s.stream.items with
  | .listening, item :: _ => some (s.since + item.delay)
  | _, _ => none

/-- Waits until the forwarder is as asked or the deadline has come. -/
def waitFor (done : Forwarder → Bool) (deadline : Nat) : (fuel : Nat) → Session → Session
  | 0, s => s
  | fuel + 1, s =>
    if done s.forwarder then s
    else
      let s := s.flow s.now
      if done s.forwarder then s
      else match s.nextArrival? with
        | some time =>
          if time < deadline then waitFor done deadline fuel { s with now := max s.now time }
          else { s with now := max s.now deadline }
        | none => { s with now := max s.now deadline }

/-- Waits for something with a deadline; each round hears at least one item. -/
def wait (s : Session) (done : Forwarder → Bool) (deadline : Nat) : Session :=
  if done s.forwarder ∨ deadline ≤ s.now then s
  else waitFor done deadline (s.stream.items.length + 2) s

/-- Sleeps. -/
def sleep (s : Session) (ms : Nat) : Session := s.wait (fun _ => false) (s.now + ms)

/-- Receives heads until the deadline, at most `most` of them, with a pause after each. -/
def listen (deadline pause : Nat) : (most : Nat) → Session → List (Header × Nat) × Session
  | 0, s => ([], s)
  | most + 1, s =>
    let s := s.wait (fun f => !f.sink.isEmpty || f.hasEnded) deadline
    match s.forwarder.receive? with
    | none => ([], s)
    | some (head, f) =>
      let (heads, final) := listen deadline pause most ({ s with forwarder := f }.sleep pause)
      ((head, s.now) :: heads, final)

end Session

/-- What a listener does. -/
structure Listener where
  /-- How many heads the sink holds. -/
  capacity : Nat
  /-- For how long heads are received. -/
  listen : Nat
  /-- At most so many; without a number, all of them. -/
  most : Option Nat
  /-- The pause after each head. -/
  pause : Nat
  dropsReceiver : Bool
  unsubscribes : Bool
  /-- For how long the end is waited for. -/
  patience : Nat

/-- What came of listening: the heads with their times, and how and when the subscription ended,
if it did. -/
structure Report where
  heads : List (Header × Nat)
  ending : Option (Option ChainError × Nat)

/-- Listens to a stream that the node has opened. -/
def Listener.hear (l : Listener) (stream : Stream) : Report :=
  let opened := (Session.mk (.start l.capacity) stream 0 0).flow 0
  let (heads, s) := opened.listen l.listen l.pause (l.most.getD (stream.items.length + 1))
  let f := s.forwarder
  let f := if l.dropsReceiver then f.dropReceiver else f
  let f := if l.unsubscribes then f.unsubscribe else f
  let s := { s with forwarder := f }.wait Forwarder.hasEnded (s.now + l.patience)
  ⟨heads, if s.forwarder.hasEnded then some (s.forwarder.error?, s.now) else none⟩

/-- Subscribes and listens; a node that refuses tells nothing. -/
def Listener.subscribe (l : Listener) (reply : Node.Reply) (stream : Stream) :
    Except ChainError Report :=
  reply.subscription.map fun _ => l.hear stream

end ChainWatch.HeadFeed
