import ChainWatch.Cache.Expiring
import ChainWatch.Storage.Store
import ChainWatch.Transaction

/-!
# Following the heads of the chain

Every head that was not seen within the dedupe window is recorded: its number becomes the content
of the record `heads/latest`. A head is known by its hash, or by its number if it has none. A
failed save is passed over. The window is swept as often as it is long.
-/

namespace ChainWatch.HeadFollower

/-- The directory of the recorded head. -/
def headsDirectory : String := "heads"

/-- The name of the recorded head. -/
def latestName : String := "latest"

/-- What a head is known by; no hash reads like a number. -/
def key (h : Header) : String :=
  match h.hash with
  | some hash => hash.text
  | none => toString h.number.toNat

/-- A follower: what it has seen, the files, and the last head it recorded. -/
structure Follower where
  seen : Cache.Expiring String Unit
  files : Storage.FileTree
  last : Option Header

/-- What a follower meets; times are in nanoseconds. -/
inductive Event where
  | sweep (now : Nat)
  | head (now : Nat) (header : Header)

/-- The store that follows is at the top of the tree. -/
def Follower.record (f : Follower) (store : Storage.Store) (h : Header) : Follower :=
  let program := store.save [Text.utf8 (toString h.number.toNat)] headsDirectory latestName
  ⟨f.seen, (program.run f.files).1, some h⟩

/-- Meets one event. -/
def Follower.step (f : Follower) (store : Storage.Store) : Event → Follower
  | .sweep now => { f with seen := f.seen.sweep now }
  | .head now header =>
    let (seen, isNew) := f.seen.add now (key header) ()
    let f := { f with seen := seen }
    if isNew then f.record store header else f

/-- The follower after each of a list of events. -/
def Follower.trail (f : Follower) (store : Storage.Store) : List Event → List Follower
  | [] => []
  | e :: rest =>
    let next := f.step store e
    next :: next.trail store rest

/-- The content of the recorded head. -/
def Follower.latest (f : Follower) (store : Storage.Store) : Option Storage.Bytes :=
  (f.files.read (store.path [Storage.Area.current.name, Text.utf8 headsDirectory,
    Text.utf8 latestName])).toOption

/-- The sweeping needs a positive window. -/
def fault? (window : Nat) : Option Fault := if window = 0 then some .zeroPeriod else none

/-- The follower at the start: nothing seen, nothing recorded. -/
def Follower.start (window : Nat) (files : Storage.FileTree) : Follower :=
  ⟨.empty window, files, none⟩

/-- Follows the heads until no more come; `last` of the follower that is left is the answer. -/
def follow (store : Storage.Store) (window : Nat) (files : Storage.FileTree)
    (events : List Event) : Outcome Follower :=
  match fault? window with
  | some cause => .fault cause
  | none =>
    let start := Follower.start window files
    .ok ((start.trail store events).getLastD start)

/-- The heads as events: each comes the given number of milliseconds after the last one was dealt
with, which takes one more millisecond. -/
def arrivals : (now : Nat) → List (Nat × Header) → List Event
  | _, [] => []
  | now, (wait, header) :: rest =>
    .head ((now + wait) * 1000000) header :: arrivals (now + wait + 1) rest

end ChainWatch.HeadFollower
