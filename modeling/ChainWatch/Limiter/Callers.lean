import ChainWatch.Limiter.Permits
import ChainWatch.Metrics.Sample

/-!
# The callers of a limiter

Callers ask for permits, wait, go on, give up and give back, each when it pleases. `Callers` keeps
a limiter together with what its callers know: who waits, in the order of asking, and whose permit
is out. Every happening is one of the limiter's own operations; one that cannot happen, such as
giving back a permit that is not out, changes nothing.

A caller whose patience is over first looks whether it was handed a slot, and takes it if so.
-/

namespace ChainWatch.Limiter

/-- What may happen next. -/
inductive Happening where
  /-- A caller asks for a permit. -/
  | ask (ticket : Nat)
  /-- A caller that was handed a slot gets its turn. -/
  | take (ticket : Nat)
  /-- A waiting caller's patience is over. -/
  | expire (ticket : Nat)
  /-- A waiting caller is dropped. -/
  | cancel (ticket : Nat)
  /-- A permit is released or dropped. -/
  | giveBack (ticket : Nat)
deriving DecidableEq

/-- A limiter and its callers. -/
structure Callers where
  permits : Permits
  /-- Who waits, the first to ask first. -/
  waiting : List Nat
  /-- Whose permit is out. -/
  out : List Nat
  samples : List Metrics.Sample

namespace Callers

/-- A limiter without a bucket that nobody has asked yet. -/
def start (slots : Nat) : Callers := ⟨.fresh 0 slots, [], [], []⟩

def ask (c : Callers) (ticket : Nat) : Callers :=
  let received := c.permits.request ticket
  if received.2 = .permit then { c with permits := received.1, out := c.out ++ [ticket] }
  else { c with permits := received.1, waiting := c.waiting ++ [ticket] }

def take (c : Callers) (ticket : Nat) : Callers :=
  { c with
    permits := c.permits.take ticket
    waiting := c.waiting.erase ticket
    out := c.out ++ [ticket] }

def leave (c : Callers) (ticket : Nat) : Callers :=
  { c with permits := c.permits.withdraw ticket, waiting := c.waiting.erase ticket }

/-- A caller leaves because its patience is over. -/
def timeOut (c : Callers) (ticket : Nat) : Callers :=
  { c.leave ticket with samples := c.samples ++ [.permitTimeout] }

def giveBack (c : Callers) (ticket : Nat) : Callers :=
  { c with permits := c.permits.release, out := c.out.erase ticket }

def step (c : Callers) : Happening → Callers
  | .ask ticket => if ticket ∈ c.waiting ∨ ticket ∈ c.out then c else c.ask ticket
  | .take ticket => if ticket ∈ c.permits.handed then c.take ticket else c
  | .expire ticket =>
    if ticket ∈ c.permits.handed then c.take ticket
    else if ticket ∈ c.waiting then c.timeOut ticket
    else c
  | .cancel ticket => if ticket ∈ c.waiting then c.leave ticket else c
  | .giveBack ticket => if ticket ∈ c.out then c.giveBack ticket else c

/-- The callers after a list of happenings. -/
def run (c : Callers) (happenings : List Happening) : Callers := happenings.foldl step c

end Callers

end ChainWatch.Limiter
