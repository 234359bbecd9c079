/-!
# A cache whose entries expire

An entry lives for a fixed timespan after it was added; at the end of the timespan it is still
alive, one nanosecond later it is not. Lookups pass over dead entries. Adding first purges the dead
entries from the old end of the queue, and refuses a key that is still stored.

The cache keeps the order of insertion and the values apart: `order` holds the keys with their
times, newest first, and `values` the values with their times.
-/

namespace ChainWatch.Cache

variable {K V : Type} [DecidableEq K]

/-- A cache of values by key. Times are in nanoseconds. -/
structure Expiring (K V : Type) where
  timespan : Nat
  /-- Keys with the times of their insertion, newest first. -/
  order : List (K × Nat)
  /-- Values with the times of their insertion. -/
  values : List (K × V × Nat)

namespace Expiring

/-- The cache without entries. -/
def empty (timespan : Nat) : Expiring K V := ⟨timespan, [], []⟩

/-- Is an entry of this age still alive? -/
def alive (timespan insertedAt now : Nat) : Bool := now - insertedAt ≤ timespan

/-- The stored entry of a key, alive or not. -/
def stored? (c : Expiring K V) (key : K) : Option (V × Nat) := c.values.lookup key

/-- Drops from the old end of the queue, up to the first entry that is still alive, what has
expired; both structures lose the same keys. The queue is given oldest first. -/
def purgeOldest (timespan now : Nat) :
    List (K × Nat) → List (K × V × Nat) → List (K × Nat) × List (K × V × Nat)
  | [], values => ([], values)
  | (key, insertedAt) :: younger, values =>
    if alive timespan insertedAt now then ((key, insertedAt) :: younger, values)
    else purgeOldest timespan now younger (values.filter fun entry => entry.1 ≠ key)

/-- Drops what has expired. -/
def sweep (c : Expiring K V) (now : Nat) : Expiring K V :=
  let (oldestFirst, values) := purgeOldest c.timespan now c.order.reverse c.values
  ⟨c.timespan, oldestFirst.reverse, values⟩

/-- Adds a key unless it is stored; says whether it did. -/
def add (c : Expiring K V) (now : Nat) (key : K) (value : V) : Expiring K V × Bool :=
  let swept := c.sweep now
  if (swept.stored? key).isSome then (swept, false)
  else (⟨swept.timespan, (key, now) :: swept.order, (key, value, now) :: swept.values⟩, true)

/-- The value of a key that is alive. -/
def get? (c : Expiring K V) (now : Nat) (key : K) : Option V :=
  match c.stored? key with
  | some (value, insertedAt) => if alive c.timespan insertedAt now then some value else none
  | none => none

/-- Is the key alive? -/
def has (c : Expiring K V) (now : Nat) (key : K) : Bool := (c.get? now key).isSome

/-- How many entries are stored, dead ones that were not purged yet included. -/
def size (c : Expiring K V) : Nat := c.values.length

end Expiring

/-! ## Using a cache -/

/-- What is asked of a cache, and the passing of time between requests. -/
inductive Request (K V : Type) where
  | add (key : K) (value : V)
  | has (key : K)
  | get (key : K)
  | size
  | isEmpty
  | sweep
  | timespan
  | advance (nanos : Nat)

/-- What a cache answers. -/
inductive Answer (V : Type) where
  | flag (value : Bool)
  | value (value : Option V)
  | count (n : Nat)
  | timespan (nanos : Nat)
  | done

/-- A cache and the time on the clock. -/
structure Clocked (K V : Type) where
  cache : Expiring K V
  now : Nat

/-- Serves one request. -/
def Clocked.serve (s : Clocked K V) : Request K V → Clocked K V × Answer V
  | .add key value =>
    let (cache, added) := s.cache.add s.now key value
    (⟨cache, s.now⟩, .flag added)
  | .has key => (s, .flag (s.cache.has s.now key))
  | .get key => (s, .value (s.cache.get? s.now key))
  | .size => (s, .count s.cache.size)
  | .isEmpty => (s, .flag (s.cache.size == 0))
  | .sweep => (⟨s.cache.sweep s.now, s.now⟩, .done)
  | .timespan => (s, .timespan s.cache.timespan)
  | .advance nanos => (⟨s.cache, s.now + nanos⟩, .done)

/-- Serves requests in turn; each answer comes with the number of entries stored after it. -/
def Clocked.serveAll (s : Clocked K V) : List (Request K V) → List (Answer V × Nat)
  | [] => []
  | r :: rest =>
    let (next, answer) := s.serve r
    (answer, next.cache.size) :: next.serveAll rest

end ChainWatch.Cache
