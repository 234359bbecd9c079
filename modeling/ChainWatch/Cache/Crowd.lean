import ChainWatch.Cache.Expiring

/-!
# The callers of a cache

Whoever adds to a cache or sweeps it reads the clock first and then waits for a turn, since the
cache serves one at a time. In its turn it goes by what it has read. The clock goes on in between,
and turns come in any order, so one that read the clock late may be served before one that read it
early.
-/

namespace ChainWatch.Cache

variable {K V : Type} [DecidableEq K]

/-- What a caller wants of a cache. -/
inductive Errand (K V : Type) where
  | add (key : K) (value : V)
  | sweep
deriving DecidableEq

/-- A caller that has read the clock. -/
structure Caller (K V : Type) where
  errand : Errand K V
  /-- What the clock showed. -/
  reading : Nat
deriving DecidableEq

/-- A caller's turn; an insertion is told whether it was accepted. -/
def Caller.turn (caller : Caller K V) (c : Expiring K V) : Expiring K V × Option Bool :=
  match caller.errand with
  | .add key value =>
    let (cache, added) := c.add caller.reading key value
    (cache, some added)
  | .sweep => (c.sweep caller.reading, none)

/-- A cache, the time, and those that have read the clock and wait for their turn. -/
structure Crowd (K V : Type) where
  cache : Expiring K V
  now : Nat
  /-- Who read the clock first stands first. -/
  waiting : List (Caller K V)

/-- What may happen next. -/
inductive Happening (K V : Type) where
  /-- The clock goes on. -/
  | pass (nanos : Nat)
  /-- Somebody comes and reads the clock. -/
  | arrive (errand : Errand K V)
  /-- One of those that wait has its turn. -/
  | turn (i : Nat)
deriving DecidableEq

namespace Crowd

/-- A cache without entries that nobody uses yet. -/
def start (timespan now : Nat) : Crowd K V := ⟨.empty timespan, now, []⟩

/-- A step of a crowd; nothing if it is not possible. -/
def step (c : Crowd K V) : Happening K V → Crowd K V
  | .pass nanos => { c with now := c.now + nanos }
  | .arrive errand => { c with waiting := c.waiting ++ [⟨errand, c.now⟩] }
  | .turn i =>
    match c.waiting[i]? with
    | some caller =>
      { c with cache := (caller.turn c.cache).1, waiting := c.waiting.eraseIdx i }
    | none => c

/-- The crowd after a list of happenings. -/
def run (c : Crowd K V) (happenings : List (Happening K V)) : Crowd K V := happenings.foldl step c

end Crowd

end ChainWatch.Cache
