import ChainWatch.Limiter.Permits
import ChainWatch.Metrics.Sample

/-!
# Sessions with a limiter

A session is one caller that goes through a list of steps, with others that wait for permits in
the background. Whenever the session waits, the others go on: first at the present moment, then
from one deadline to the next. Where the session's own waiting ends at the same millisecond as
another's, the session goes first.

A caller that was handed a slot takes it even if its deadline has come.
-/

namespace ChainWatch.Limiter

/-- How a background caller ended. -/
inductive Ended where
  | permit
  | timedOut
deriving DecidableEq

/-- A caller in the background. -/
structure Background where
  id : String
  ticket : Nat
  deadline : Nat
  /-- How and when it ended, if it has. -/
  ended : Option (Ended × Nat)

/-- A session: the time, the permits, those in the background and the permits it holds itself. -/
structure Session where
  plan : Plan
  permits : Permits
  now : Nat
  background : List Background
  held : List String
  nextTicket : Nat
  samples : List Metrics.Sample

/-- The steps of a session. -/
inductive Step where
  | acquire (id : String)
  | spawn (id : String)
  | done (id : String)
  | join (id : String)
  | abort (id : String)
  | giveBack (id : String)
  | timeout
  | sleep (ms : Nat)

/-- What a step answers. -/
inductive StepAnswer where
  | nothing
  | flag (b : Bool)
  | duration (d : Duration)
  | got (result : Ended)
  | joined (result : Ended) (time : Nat)

namespace Session

def start (plan : Plan) : Session := ⟨plan, plan.permits, 0, [], [], 0, []⟩

/-- How long a caller waits, in milliseconds. -/
def patience (s : Session) : Nat := s.plan.timeout.millis

/-- Lets one background caller go on at the present moment. -/
def settleOne (s : Session) (b : Background) : Session × Background :=
  if b.ended.isSome then (s, b)
  else if b.ticket ∈ s.permits.handed then
    ({ s with permits := s.permits.take b.ticket }, { b with ended := some (.permit, s.now) })
  else if b.deadline ≤ s.now then
    ({ s with
        permits := s.permits.withdraw b.ticket
        samples := s.samples ++ [.permitTimeout] },
      { b with ended := some (.timedOut, s.now) })
  else (s, b)

/-- Lets all background callers go on at the present moment. -/
def settle (s : Session) : Session :=
  let (s, background) := s.background.foldl
    (fun (s, settled) b =>
      let (s, b) := s.settleOne b
      (s, settled ++ [b])) (s, [])
  { s with background := background }

/-- The deadlines that are still ahead, up to a bound. -/
def deadlinesBefore (s : Session) (bound : Nat) : List Nat :=
  s.background.filterMap fun b =>
    if b.ended.isNone ∧ b.deadline < bound then some b.deadline else none

/-- Goes from deadline to deadline, all before `bound`; each one ends somebody's waiting. -/
def passDeadlines (bound : Nat) : (fuel : Nat) → Session → Session
  | 0, s => s
  | fuel + 1, s =>
    match (s.deadlinesBefore bound).min? with
    | none => s
    | some deadline => passDeadlines bound fuel { s with now := max s.now deadline }.settle

/-- Waits until a time; what is due then is left for later. -/
def waitUntil (s : Session) (time : Nat) : Session :=
  let s := s.settle
  { passDeadlines time (s.background.length + 1) s with now := time }

/-- Keeps a permit under an identifier; one that was kept under it before comes back. -/
def hold (s : Session) (id : String) : Session :=
  if id ∈ s.held then { s with permits := s.permits.release }
  else { s with held := id :: s.held }

/-- Gives a permit back. -/
def giveBack (s : Session) (id : String) : Session :=
  if id ∈ s.held then { s with permits := s.permits.release, held := s.held.erase id } else s

/-- Asks for a permit and waits for it. -/
def acquire (s : Session) (id : String) : Session × StepAnswer :=
  let ticket := s.nextTicket
  let (permits, reception) := s.permits.request ticket
  let s := { s with permits := permits, nextTicket := ticket + 1 }
  match reception with
  | .permit => (s.hold id, .got .permit)
  | _ =>
    let s := if s.patience = 0 then s else s.waitUntil (s.now + s.patience)
    if ticket ∈ s.permits.handed then
      ({ s with permits := s.permits.take ticket }.hold id, .got .permit)
    else
      ({ s with
          permits := s.permits.withdraw ticket
          samples := s.samples ++ [.permitTimeout] },
        .got .timedOut)

/-- Starts a caller in the background and lets all others go on. -/
def spawn (s : Session) (id : String) : Session :=
  let s := s.settle
  let ticket := s.nextTicket
  let (permits, reception) := s.permits.request ticket
  let ended := if reception = .permit then some (Ended.permit, s.now) else none
  let caller : Background := ⟨id, ticket, s.now + s.patience, ended⟩
  { s with
      permits := permits
      nextTicket := ticket + 1
      background := s.background ++ [caller] : Session }.settle

/-- The background caller with an identifier, the latest one if there are several. -/
def find? (s : Session) (id : String) : Option Background :=
  (s.background.filter fun b => b.id = id).getLast?

/-- Takes a caller out of the background. -/
def forget (s : Session) (b : Background) : Session :=
  { s with background := s.background.filter fun other => other.ticket ≠ b.ticket }

/-- Waits for the end of a background caller. -/
def join (s : Session) (id : String) : Session × StepAnswer :=
  let finish (s : Session) (b : Background) : Session × StepAnswer :=
    match b.ended with
    | some (.permit, time) => ((s.forget b).hold id, .joined .permit time)
    | some (.timedOut, time) => (s.forget b, .joined .timedOut time)
    | none => (s, .nothing)
  match s.find? id with
  | none => (s, .nothing)
  | some b =>
    if b.ended.isSome then finish s b
    else
      let s := s.settle
      let s :=
        match s.find? id with
        | some b => if b.ended.isSome then s else (s.waitUntil b.deadline).settle
        | none => s
      match s.find? id with
      | some b => finish s b
      | none => (s, .nothing)

/-- Ends a background caller and takes its permit from it. -/
def abort (s : Session) (id : String) : Session :=
  match s.find? id with
  | none => s
  | some b =>
    match b.ended with
    | some (.permit, _) => { s.forget b with permits := s.permits.release }
    | some (.timedOut, _) => s.forget b
    | none => { s.forget b with permits := s.permits.withdraw b.ticket }.settle

/-- Takes one step. -/
def step (s : Session) : Step → Session × StepAnswer
  | .acquire id => s.acquire id
  | .spawn id => (s.spawn id, .nothing)
  | .done id =>
    let s := s.settle
    (s, .flag ((s.find? id).all fun b => b.ended.isSome))
  | .join id => s.join id
  | .abort id => (s.abort id, .nothing)
  | .giveBack id => (s.giveBack id, .nothing)
  | .timeout => (s, .duration s.plan.timeout)
  | .sleep ms => (if ms = 0 then s else s.waitUntil (s.now + ms), .nothing)

/-- Takes steps in turn; each answer comes with the session after it. -/
def trail (s : Session) : List Step → List (StepAnswer × Session)
  | [] => []
  | step :: rest =>
    let (next, answer) := s.step step
    (answer, next) :: next.trail rest

/-- Gives back every permit that is out, in the background or not. -/
def close (s : Session) : Session :=
  let out := s.held.length +
    (s.background.filter fun b => (b.ended.map Prod.fst) = some .permit).length
  { s with permits := (List.range out).foldl (fun p _ => p.release) s.permits }

end Session

end ChainWatch.Limiter
