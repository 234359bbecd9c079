import ChainWatch.BlockCounter.Poller

/-!
# Sessions with a block counter

A session starts a counter with a first answer of the node and then goes through a list of steps.
Whenever it waits the poller goes on, and after it those who wait for heights in the background;
where both are due at the same millisecond, the session goes first.
-/

namespace ChainWatch.BlockCounter

/-- Somebody who watches the height, and how many of its moves have been seen. -/
structure Watch where
  id : String
  seen : Nat

/-- A session at a moment. -/
structure Session where
  heights : Nat → Node.Timed UInt64
  poller : Poller
  now : Nat
  cancelled : Bool
  /-- Does the session still hold the counter? -/
  held : Bool
  watches : List Watch
  waiters : List Waiter

/-- The steps of a session. -/
inductive Step where
  | current
  | sleep (ms : Nat)
  | cancel
  | drop
  | wait (target : UInt64) (patience : Nat)
  /-- Waits in the background, under an identifier. -/
  | waiter (id : String) (target : UInt64)
  | pollWaiter (id : String) (patience : Nat)
  | watch (id : String)
  | pollWatch (id : String)

/-- What a step answers. -/
inductive StepAnswer where
  | nothing
  | height (value : UInt64)
  | reached (value : UInt64)
  | failed (error : ChainError)
  | closed
  | pending
  /-- What a watch sees, and whether it is new; nothing where nobody moves the height any more. -/
  | seen (value : UInt64) (isNew : Option Bool)
deriving DecidableEq

/-- What waiting for a height that will not come fails with. -/
def stoppedError : ChainError := .internal "Block counter stopped"

namespace Session

/-- Starts a counter: the first answer and when it comes. -/
def start (heights : Nat → Node.Timed UInt64) (period : Nat) : Except (ChainError × Nat) Session :=
  let reply := heights 0
  match reply.answer with
  | .error e => .error (e, reply.delay)
  | .ok value => .ok ⟨heights, ⟨period, .start value, .fresh, 1, [0]⟩, reply.delay, false, true, [], []⟩

/-- Is the poller told to stop, or is nobody left who could want the height? -/
def unwanted (s : Session) : Bool :=
  s.cancelled || (!s.held && s.watches.isEmpty && s.waiters.all fun w => w.verdict.isSome)

/-- The poller's turn. -/
def poll (s : Session) : Session :=
  { s with poller := s.poller.settle s.heights s.unwanted s.now Poller.busiest }

/-- Everybody else goes on as far as possible at one moment: the poller, those who wait, and the
poller again, should nobody be left. -/
def settle (s : Session) : Session :=
  let polled := s.poll
  let told := polled.waiters.map fun w => w.look polled.poller.height
  Session.poll { polled with waiters := told }

/-- Waits until something is so, or until a time. -/
def waitUntil (done : Session → Bool) (deadline : Nat) (s : Session) : Session :=
  if done s.settle then s.settle
  else
    match s.settle.poller.nextTime? with
    | some time =>
      if _h : s.now < time ∧ time < deadline then
        waitUntil done deadline { s.settle with now := time }
      else { s.settle with now := deadline }
    | none => { s.settle with now := deadline }
termination_by deadline - s.now

/-- Waits until something is so, for so many milliseconds. -/
def wait (s : Session) (done : Session → Bool) (patience : Nat) : Session :=
  if done s ∨ patience = 0 then s else waitUntil done (s.now + patience) s

/-- Shows what is known of a height that was waited for. -/
def answerOf : Option Verdict → StepAnswer
  | some (.reached value) => .reached value
  | some .stopped => .failed stoppedError
  | none => .pending

/-- The last waiter with an identifier. -/
def waiter? (s : Session) (id : String) : Option Waiter := s.waiters.reverse.find? fun w => w.id == id

/-- One step. -/
def step (s : Session) : Step → StepAnswer × Session
  | .current => (.height s.poller.height.value, s)
  | .sleep ms => (.nothing, s.wait (fun _ => false) ms)
  | .cancel => (.nothing, { s with cancelled := true })
  | .drop => (.nothing, { s with held := false })
  | .wait target patience =>
    let s := s.wait (fun s => (verdict? s.poller.height target).isSome) patience
    (answerOf (verdict? s.poller.height target), s)
  | .waiter id target => (.nothing, { s with waiters := s.waiters ++ [⟨id, target, none⟩] })
  | .pollWaiter id patience =>
    let verdict? (s : Session) := (s.waiter? id).bind Waiter.verdict
    let s := s.wait (fun s => (verdict? s).isSome) patience
    match verdict? s with
    | some (.reached value) => (.reached value, s)
    | some .stopped => (.closed, s)
    | none => (.pending, s)
  | .watch id => (.nothing, { s with watches := ⟨id, 0⟩ :: s.watches.filter fun w => w.id != id })
  | .pollWatch id =>
    let height := s.poller.height
    let seen := ((s.watches.find? fun w => w.id == id).map Watch.seen).getD 0
    let isNew := if height.running then some (seen != height.moves) else none
    (.seen height.value isNew,
      { s with watches := s.watches.map fun w => if w.id = id then { w with seen := height.moves } else w })

/-- The answers to a list of steps, each with the session after it. -/
def trail (s : Session) : List Step → List (StepAnswer × Session)
  | [] => []
  | step :: rest =>
    let (answer, next) := s.step step
    (answer, next) :: next.trail rest

end Session

end ChainWatch.BlockCounter
