import ChainWatch.HeadFeed.Session

/-!
# Feeds of heads

A feed is a subscription to heads together with the node that tells them and the one who receives
them. The call that opens it is answered when the node has replied; a refusal is the answer of the
call, and the forwarder then ends at once. After that the node, the forwarder, the receiver and
whoever may cancel the feed make their moves in any order.
-/

namespace ChainWatch.HeadFeed

/-- A subscription to heads. -/
structure Feed where
  reply : Node.Reply
  /-- What the node has still to tell; an item without a head cannot be read. -/
  notices : List (Option Header)
  /-- Does it then stop? -/
  ends : Bool
  /-- What the call was answered with. -/
  answer : Option (Except ChainError Unit)
  forwarder : Forwarder
  received : List Header

/-- What may happen in a feed. -/
inductive Move where
  /-- The call is answered. -/
  | answer
  /-- The forwarder hears the next item. -/
  | hear
  /-- It finds that the node tells nothing more. -/
  | lose
  | passOn
  | heed
  | receive
  | dropReceiver
  | unsubscribe
deriving DecidableEq

namespace Feed

/-- A feed that has been asked for. -/
def start (reply : Node.Reply) (notices : List (Option Header)) (ends : Bool) (capacity : Nat) :
    Feed :=
  ⟨reply, notices, ends, none, .start capacity, []⟩

/-- Has the call been answered with a subscription? -/
def isOpen (f : Feed) : Bool :=
  match f.answer with
  | some (.ok _) => true
  | _ => false

/-- A step of a feed; nothing if it is not possible. -/
def step (f : Feed) : Move → Feed
  | .answer =>
    match f.answer, f.reply.subscription with
    | some _, _ => f
    | none, .ok _ => { f with answer := some (.ok ()) }
    | none, .error e =>
      { f with answer := some (.error e), forwarder := { f.forwarder with phase := .ended none } }
  | .hear =>
    match f.notices with
    | [] => f
    | notice :: rest =>
      if f.isOpen ∧ f.forwarder.phase = .listening then
        { f with notices := rest, forwarder := notice.elim f.forwarder f.forwarder.hear }
      else f
  | .lose =>
    if f.isOpen ∧ f.notices = [] ∧ f.ends then { f with forwarder := f.forwarder.lose } else f
  | .passOn => { f with forwarder := f.forwarder.passOn }
  | .heed => if f.isOpen then { f with forwarder := f.forwarder.heed } else f
  | .receive =>
    match f.forwarder.receive? with
    | none => f
    | some (head, forwarder) => { f with forwarder := forwarder, received := f.received ++ [head] }
  | .dropReceiver => { f with forwarder := f.forwarder.dropReceiver }
  | .unsubscribe => if f.isOpen then { f with forwarder := f.forwarder.unsubscribe } else f

/-- The feed after a list of moves. -/
def run (f : Feed) (moves : List Move) : Feed := moves.foldl step f

end Feed

end ChainWatch.HeadFeed
