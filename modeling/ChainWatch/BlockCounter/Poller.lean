import ChainWatch.BlockCounter.Height
import ChainWatch.Node.Script

/-!
# Polling the height

A poller asks the node for the height when it starts and then once every period. A tick that
finds the poller busy is made up for when the answer is there; if it comes more than a little late,
the next one follows a whole period later. The poller stops when it is told to or when nobody is
left who could want the height, but it does not leave an answer unheard. A period of zero breaks
it. Times are in milliseconds.
-/

namespace ChainWatch.BlockCounter

/-- By how many milliseconds a tick may be late and still count as in time. -/
def leeway : Nat := 5

/-- A ticker cannot tick without a pause. -/
def fault? (period : Nat) : Option Fault := if period = 0 then some .zeroPeriod else none

/-- What a poller is doing. -/
inductive Activity where
  /-- It has not had its first turn. -/
  | fresh
  /-- It waits for its next tick. -/
  | resting (due : Nat)
  /-- It waits for an answer; the tick after this one is known. -/
  | asking (arrival due : Nat) (answer : Except ChainError UInt64)
  | stopped

/-- A poller, the height it moves, how often the node was asked for it, and when, the latest
time first. -/
structure Poller where
  period : Nat
  height : Height
  activity : Activity
  questions : Nat
  asked : List Nat

namespace Poller

/-- When the tick after one comes that was due and handled at the given times. -/
def nextTick (period due now : Nat) : Nat := if due + leeway < now then now + period else due + period

/-- What there is to do next, and when. -/
def nextTime? (p : Poller) : Option Nat :=
  match p.activity with
  | .resting due => some due
  | .asking arrival _ _ => some arrival
  | _ => none

/-- Takes note of an answer and rests until the next tick. -/
def hear (p : Poller) (answer : Except ChainError UInt64) (due : Nat) : Poller :=
  { p with height := p.height.learn answer, activity := .resting due }

/-- One thing that a poller does by itself; nothing if it has to wait. `unwanted` says that it was
told to stop or that nobody is left who could want the height. -/
def act (p : Poller) (heights : Nat → Node.Timed UInt64) (unwanted : Bool) (now : Nat) :
    Option Poller :=
  match p.activity with
  | .fresh =>
    if p.period = 0 then some { p with height := p.height.stop, activity := .stopped }
    else some { p with activity := .resting now }
  | .resting due =>
    if unwanted then some { p with height := p.height.stop, activity := .stopped }
    else if due ≤ now then
      let reply := heights p.questions
      let next := nextTick p.period due now
      let p := { p with questions := p.questions + 1, asked := now :: p.asked }
      if reply.delay = 0 then some (p.hear reply.answer next)
      else some { p with activity := .asking (now + reply.delay) next reply.answer }
    else none
  | .asking arrival due answer => if arrival ≤ now then some (p.hear answer due) else none
  | .stopped => none

/-- At its first turn a poller sets up its ticker, which breaks it or makes it rest. -/
theorem act_fresh {p : Poller} (h : p.activity = .fresh) (heights : Nat → Node.Timed UInt64)
    (unwanted : Bool) (now : Nat) :
    p.act heights unwanted now =
      some (if (fault? p.period).isSome then { p with height := p.height.stop, activity := .stopped }
        else { p with activity := .resting now }) := by
  rw [act, h, fault?]
  by_cases hzero : p.period = 0 <;> simp [hzero]

/-- How many things a poller can have to do at one moment: ticks come at least a millisecond apart
and only those of the leeway are made up for. -/
def busiest : Nat := 2 * leeway + 6

/-- Goes on as far as it can at one moment. -/
def settle (heights : Nat → Node.Timed UInt64) (unwanted : Bool) (now : Nat) :
    (fuel : Nat) → Poller → Poller
  | 0, p => p
  | fuel + 1, p =>
    match p.act heights unwanted now with
    | some next => settle heights unwanted now fuel next
    | none => p

end Poller

end ChainWatch.BlockCounter
