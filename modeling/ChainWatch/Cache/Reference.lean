import ChainWatch.Cache.Expiring

/-!
# The map that an expiring cache stands for

Each key has at most one record: the value of its last accepted insertion and the time of it. A
record is live for the timespan after that time. Nothing is ever purged, so nothing depends on
when, or whether, anyone sweeps.
-/

namespace ChainWatch.Cache

variable {K V : Type} [DecidableEq K]

/-- The last accepted insertion of every key. -/
def Records (K V : Type) := K → Option (V × Nat)

namespace Records

/-- No key was ever inserted. -/
def none : Records K V := fun _ => Option.none

/-- Was the key inserted at most a timespan before `now`? -/
def live (r : Records K V) (timespan now : Nat) (key : K) : Prop :=
  ∃ value insertedAt, r key = some (value, insertedAt) ∧ now ≤ insertedAt + timespan

/-- The value of a live key. -/
def get? (r : Records K V) (timespan now : Nat) (key : K) : Option V :=
  match r key with
  | some (value, insertedAt) => if now ≤ insertedAt + timespan then some value else Option.none
  | Option.none => Option.none

/-- Accepts an insertion exactly where the key is not live. -/
def add (r : Records K V) (timespan now : Nat) (key : K) (value : V) : Records K V × Bool :=
  if (r.get? timespan now key).isSome then (r, false)
  else (fun k => if k = key then some (value, now) else r k, true)

end Records

end ChainWatch.Cache
