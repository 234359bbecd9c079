import ChainWatch.Error
import ChainWatch.Settings.Basic

/-!
# Permits

A call to the node needs a permit. Two limits apply, each of which may be off: a bucket that holds
one token and is refilled by the wall clock, and a number of slots. Callers that find no free slot
queue up, and a slot that comes free is handed to the one who has waited longest; the permit is out
once that caller takes it. The gauge counts the permits that are out.

Callers are known by ticket numbers. Nothing here moves time: whoever waits too long withdraws.
-/

namespace ChainWatch.Limiter

/-- The state of a limiter. -/
structure Permits where
  /-- The number of slots; zero means that no caller ever waits for one. -/
  limit : Nat
  /-- Is the token there? `none` where tokens are not asked for. -/
  token : Option Bool
  free : Nat
  /-- Who waits for a slot, longest first. -/
  queue : List Nat
  /-- Who was handed a slot and has not taken it yet. -/
  handed : List Nat
  /-- The gauge: how many permits are out. -/
  inFlight : Nat

/-- How a request for a permit begins. -/
inductive Reception where
  /-- The permit is out. -/
  | permit
  /-- The caller waits for a slot. -/
  | queued
  /-- The caller waits for the token. -/
  | starved
deriving DecidableEq

namespace Permits

/-- Nobody has asked yet. -/
def fresh (requestsPerSecond limit : Nat) : Permits :=
  ⟨limit, if requestsPerSecond = 0 then none else some true, limit, [], [], 0⟩

/-- Asks for a slot. -/
def seek (p : Permits) (ticket : Nat) : Permits × Reception :=
  if p.limit = 0 then ({ p with inFlight := p.inFlight + 1 }, .permit)
  else if 0 < p.free then ({ p with free := p.free - 1, inFlight := p.inFlight + 1 }, .permit)
  else ({ p with queue := p.queue ++ [ticket] }, .queued)

/-- Asks for a permit: the token first, then a slot. -/
def request (p : Permits) (ticket : Nat) : Permits × Reception :=
  match p.token with
  | none => p.seek ticket
  | some true => { p with token := some false }.seek ticket
  | some false => (p, .starved)

/-- Hands a slot to whoever has waited longest; if nobody waits, it is free. -/
def handOver (p : Permits) : Permits :=
  match p.queue with
  | [] => { p with free := p.free + 1 }
  | ticket :: rest => { p with queue := rest, handed := p.handed ++ [ticket] }

/-- A permit comes back. -/
def release (p : Permits) : Permits :=
  let p := { p with inFlight := p.inFlight - 1 }
  if p.limit = 0 then p else p.handOver

/-- A caller that was handed a slot takes it. -/
def take (p : Permits) (ticket : Nat) : Permits :=
  { p with handed := p.handed.erase ticket, inFlight := p.inFlight + 1 }

/-- A caller stops waiting; a slot that it was handed passes on. -/
def withdraw (p : Permits) (ticket : Nat) : Permits :=
  if ticket ∈ p.handed then { p with handed := p.handed.erase ticket }.handOver
  else { p with queue := p.queue.erase ticket }

end Permits

/-! ## A limiter and its patience -/

/-- How long a call waits for a permit where nothing else is said: five minutes. -/
def defaultTimeout : Duration := .ofSeconds 300

/-- The largest number of slots that can be managed. -/
def mostSlots : Nat := (UInt64.size - 1) / 8

/-- What a limiter is made from. -/
structure Plan where
  requestsPerSecond : Nat
  slots : Nat
  timeout : Duration

def Plan.ofSettings (s : RateSettings) : Plan :=
  ⟨s.requestsPerSecond.toNat, s.concurrency.toNat, s.permitTimeout.getD defaultTimeout⟩

/-- A plan with more slots than can be managed cannot be carried out. -/
def Plan.fault? (p : Plan) : Option Fault :=
  if mostSlots < p.slots then some .tooManySlots else none

def Plan.permits (p : Plan) : Permits := .fresh p.requestsPerSecond p.slots

/-- The error of a call that waited too long. -/
def Plan.timeoutError (p : Plan) : ChainError := .permitTimeout p.timeout

end ChainWatch.Limiter
