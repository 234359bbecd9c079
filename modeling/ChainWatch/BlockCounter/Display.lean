import ChainWatch.BlockCounter.Height

/-!
# A height on display

Those who wait for a height share one display of it. Each has its turns when it pleases the
schedule: at a turn it judges the height, unless it has judged it since it last moved, and then is
told what it waits for or falls asleep. A move of the height wakes everybody, and so does the end of
its moving. Answers of the node, the end, newcomers and turns come in any order.

Whoever is woken by the end without a further move is told that the height stopped, and does not
look at it again; that this is right rests on what was judged before.
-/

namespace ChainWatch.BlockCounter

/-- What a lookout is doing. -/
inductive Stage where
  /-- Its turn will come. -/
  | awake
  /-- It has no turn until it is woken. -/
  | asleep
  | told (verdict : Verdict)
  /-- It was dropped before it was told anything. -/
  | gone
deriving DecidableEq

/-- Somebody who waits for a height before a display. -/
structure Lookout where
  target : UInt64
  /-- After how many moves it judged the height last, if it has. -/
  judged : Option Nat
  stage : Stage

namespace Lookout

/-- A lookout that has not had its first turn. -/
def fresh (target : UInt64) : Lookout := ⟨target, none, .awake⟩

/-- What comes of a look at the height. -/
def sight (l : Lookout) (h : Height) : Stage :=
  if l.judged ≠ some h.moves ∧ l.target ≤ h.value then .told (.reached h.value)
  else if h.running then .asleep
  else .told .stopped

/-- A turn; only who is awake has one. -/
def turn (l : Lookout) (h : Height) : Lookout :=
  if l.stage = .awake then { l with judged := some h.moves, stage := l.sight h } else l

def wake (l : Lookout) : Lookout := if l.stage = .asleep then { l with stage := .awake } else l

/-- What a lookout was told. -/
def told? (l : Lookout) : Option Verdict :=
  match l.stage with
  | .told verdict => some verdict
  | _ => none

/-- A lookout is dropped; what it was told before stays told. -/
def leave (l : Lookout) : Lookout := if l.told?.isSome then l else { l with stage := .gone }

end Lookout

/-- A height and those who wait for it, in the order of their coming. -/
structure Display where
  height : Height
  lookouts : List Lookout

/-- What may happen before a display. -/
inductive Happening where
  /-- The node answers whoever moves the height. -/
  | heard (answer : Except ChainError UInt64)
  /-- Nobody moves the height any more. -/
  | ended
  /-- Somebody comes to wait for a height. -/
  | join (target : UInt64)
  /-- A lookout has its turn. -/
  | turn (i : Nat)
  /-- A lookout is dropped. -/
  | leave (i : Nat)

namespace Display

/-- A first height that nobody waits before. -/
def start (value : UInt64) : Display := ⟨.start value, []⟩

def wakeAll (d : Display) (height : Height) : Display := ⟨height, d.lookouts.map Lookout.wake⟩

/-- Takes note of an answer; who sleeps is woken only if the height moves. -/
def hear (d : Display) (answer : Except ChainError UInt64) : Display :=
  if (d.height.learn answer).moves = d.height.moves then d else d.wakeAll (d.height.learn answer)

def step (d : Display) : Happening → Display
  | .heard answer => if d.height.running then d.hear answer else d
  | .ended => d.wakeAll d.height.stop
  | .join target => { d with lookouts := d.lookouts ++ [.fresh target] }
  | .turn i => { d with lookouts := d.lookouts.modify i fun l => l.turn d.height }
  | .leave i => { d with lookouts := d.lookouts.modify i Lookout.leave }

/-- The display after a list of happenings. -/
def run (d : Display) (happenings : List Happening) : Display := happenings.foldl step d

end Display

/-- The heights that the node told while somebody listened, the earliest first. -/
def polled : List Happening → List UInt64
  | [] => []
  | .heard (.ok value) :: rest => value :: polled rest
  | .ended :: _ => []
  | _ :: rest => polled rest

end ChainWatch.BlockCounter
