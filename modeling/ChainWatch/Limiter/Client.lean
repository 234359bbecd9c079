import ChainWatch.Limiter.Permits
import ChainWatch.Metrics.Sample
import ChainWatch.Node.Question
import ChainWatch.Node.Script

/-!
# A client behind a limiter

Each call waits for a permit, asks the node, and gives the permit back whatever the node says. A
call that gets no permit in time fails without asking. Calls share one limiter. A call may be
dropped at any time: one that waits withdraws, and one that has its permit gives it back.

Every wait has a timer, and timers are numbered in the order in which they were set. `run` goes
from one moment at which timers are due to the next. Within a moment, the calls whose timers are
due go on in the order of the timers; then come those that were handed a slot meanwhile. A call
whose patience ends in the moment in which it is handed a slot takes the slot.

`turn` is one move of one call at any time, whatever the timers say. `run` makes such moves, and
nothing else; other orders of them are what other schedules of the calls can lead to.
-/

namespace ChainWatch.Limiter

/-- A call to be made: when, what it asks, and what the node will say. -/
structure Call where
  arrival : Nat
  question : Node.Question
  reply : Node.Timed Node.Answer

/-- Where a call stands. A stage that waits has the time and the number of its timer. -/
inductive Stage where
  | coming (due timer : Nat)
  | waiting (due timer : Nat)
  | asking (asked due timer : Nat)
  | refused (time : Nat)
  | answered (asked time : Nat)
  /-- Dropped, before it had asked the node or after. -/
  | dropped (asked : Option Nat) (time : Nat)
deriving DecidableEq

/-- The timer of a stage: when it is due, and its number. -/
def Stage.timer? : Stage → Option (Nat × Nat)
  | coming due timer => some (due, timer)
  | waiting due timer => some (due, timer)
  | asking _ due timer => some (due, timer)
  | _ => none

/-- All calls and the limiter they share. -/
structure Traffic where
  plan : Plan
  permits : Permits
  calls : List (Call × Stage)
  nextTimer : Nat
  samples : List Metrics.Sample
  /-- What the node was asked, each question with the number of its call. -/
  inner : List (Nat × Node.Question)

namespace Traffic

/-- Before anything has happened, each call waits for its time to come. -/
def start (plan : Plan) (calls : List Call) : Traffic :=
  ⟨plan, plan.permits, calls.zipIdx.map fun (c, i) => (c, .coming c.arrival i), calls.length, [], []⟩

/-- Moves one call to another stage. -/
def setStage (t : Traffic) (i : Nat) (stage : Stage) : Traffic :=
  match t.calls[i]? with
  | some (c, _) => { t with calls := t.calls.set i (c, stage) }
  | none => t

/-- A call has its answer and gives its permit back. -/
def finish (t : Traffic) (i asked now : Nat) : Traffic :=
  { t.setStage i (.answered asked now) with permits := t.permits.release }

/-- A call that has its permit asks the node. -/
def ask (t : Traffic) (i now : Nat) : Traffic :=
  match t.calls[i]? with
  | some (c, _) =>
    let t : Traffic := { t with
      samples := t.samples ++ [.rpcCall c.question.method]
      inner := t.inner ++ [(i, c.question)] }
    if c.reply.delay = 0 then t.finish i now now
    else { t.setStage i (.asking now (now + c.reply.delay) t.nextTimer) with nextTimer := t.nextTimer + 1 }
  | none => t

/-- A call that was handed a slot takes it and asks the node. -/
def takeSlot (t : Traffic) (i now : Nat) : Traffic :=
  { t with permits := t.permits.take i }.ask i now

/-- A call leaves without a permit. -/
def refuse (t : Traffic) (i now : Nat) : Traffic :=
  { t.setStage i (.refused now) with
      permits := t.permits.withdraw i
      samples := t.samples ++ [.permitTimeout] }

/-- A call arrives and asks for a permit. -/
def arrive (t : Traffic) (i now : Nat) : Traffic :=
  let (permits, reception) := t.permits.request i
  let t := { t with permits := permits }
  match reception with
  | .permit => t.ask i now
  | _ =>
    let patience := t.plan.timeout.millis
    if patience = 0 then t.refuse i now
    else { t.setStage i (.waiting (now + patience) t.nextTimer) with nextTimer := t.nextTimer + 1 }

/-- The timer of a call is due. -/
def fire (now : Nat) (t : Traffic) (i : Nat) : Traffic :=
  match t.calls[i]? with
  | some (_, .coming _ _) => t.arrive i now
  | some (_, .asking asked _ _) => t.finish i asked now
  | some (_, .waiting _ _) => if i ∈ t.permits.handed then t.takeSlot i now else t.refuse i now
  | _ => t

/-- A call is dropped. -/
def drop (now : Nat) (t : Traffic) (i : Nat) : Traffic :=
  match t.calls[i]? with
  | some (_, .coming _ _) => t.setStage i (.dropped none now)
  | some (_, .waiting _ _) =>
    { t.setStage i (.dropped none now) with permits := t.permits.withdraw i }
  | some (_, .asking asked _ _) =>
    { t.setStage i (.dropped (some asked) now) with permits := t.permits.release }
  | _ => t

/-- The calls whose timers are due, in the order of the timers. -/
def due (t : Traffic) (now : Nat) : List Nat :=
  let found := t.calls.zipIdx.filterMap fun ((_, stage), i) =>
    match stage.timer? with
    | some (time, timer) => if time = now then some (timer, i) else none
    | none => none
  (found.mergeSort fun a b => a.1 ≤ b.1).map Prod.snd

/-- Lets those who were handed a slot go on, one after the other; each turn moves a call on. -/
def passSlots (now : Nat) : (fuel : Nat) → Traffic → Traffic
  | 0, t => t
  | fuel + 1, t =>
    match t.permits.handed with
    | [] => t
    | i :: _ => passSlots now fuel (t.takeSlot i now)

/-- All that happens at one moment. -/
def moment (t : Traffic) (now : Nat) : Traffic :=
  passSlots now (t.calls.length + 1) ((t.due now).foldl (fire now) t)

/-- One move of one call: what its timer would make it do, taking the slot that it was handed, or
being dropped. -/
inductive Turn where
  | fire (now i : Nat)
  | takeSlot (now i : Nat)
  | drop (now i : Nat)

/-- Makes one move. -/
def turn (t : Traffic) : Turn → Traffic
  | .fire now i => fire now t i
  | .takeSlot now i => if i ∈ t.permits.handed then t.takeSlot i now else t
  | .drop now i => drop now t i

/-- Makes moves, one after the other. -/
def turns (t : Traffic) (moves : List Turn) : Traffic := moves.foldl turn t

/-- The next moment at which a timer is due. -/
def nextMoment? (t : Traffic) : Option Nat :=
  (t.calls.filterMap fun (_, stage) => stage.timer?.map Prod.fst).min?

/-- Goes through at most `fuel` moments; each moves a call on. -/
def go : (fuel : Nat) → Traffic → Traffic
  | 0, t => t
  | fuel + 1, t =>
    match t.nextMoment? with
    | none => t
    | some now => go fuel (t.moment now)

end Traffic

/-- What became of a call. -/
structure CallReport where
  question : Node.Question
  result : Except ChainError Node.Answer
  /-- When the node was asked, if it was. -/
  asked : Option Nat
  finished : Nat

/-- All calls from beginning to end; a call has three timers at most. -/
def run (plan : Plan) (calls : List Call) : Traffic :=
  (Traffic.start plan calls).go (3 * calls.length + 1)

/-- What became of each call; only one that was answered or refused has a result. -/
def Traffic.reports (t : Traffic) : List CallReport :=
  t.calls.map fun (c, stage) =>
    match stage with
    | .answered asked time => ⟨c.question, c.reply.answer, some asked, time⟩
    | .refused time => ⟨c.question, .error t.plan.timeoutError, none, time⟩
    | _ => ⟨c.question, .error t.plan.timeoutError, none, 0⟩

end ChainWatch.Limiter
