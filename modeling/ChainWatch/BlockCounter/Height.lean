import ChainWatch.Error

/-!
# The height of the chain

A height only moves forward: an answer below it, or no answer at all, leaves it where it is.
Waiters are told the height as soon as it is what they wait for. They fail only when nobody is
left to move a height that is too low.
-/

namespace ChainWatch.BlockCounter

/-- The largest height seen so far, how often it moved, and whether somebody still moves it. -/
structure Height where
  value : UInt64
  moves : Nat
  running : Bool
deriving DecidableEq

namespace Height

/-- The height with which counting begins. -/
def start (value : UInt64) : Height := ⟨value, 0, true⟩

/-- Takes note of an answer of the node. -/
def learn (h : Height) (answer : Except ChainError UInt64) : Height :=
  match answer with
  | .ok value => if h.value < value then { h with value := value, moves := h.moves + 1 } else h
  | .error _ => h

/-- Nobody moves the height any more. -/
def stop (h : Height) : Height := { h with running := false }

end Height

/-- What a waiter is told. -/
inductive Verdict where
  | reached (height : UInt64)
  | stopped
deriving DecidableEq

/-- What somebody who waits for a height is told right now; nothing yet if it may still come. -/
def verdict? (h : Height) (target : UInt64) : Option Verdict :=
  if target ≤ h.value then some (.reached h.value)
  else if h.running then none
  else some .stopped

/-- The height at which a block is buried under so many others; past the last height it is the
last one. -/
def confirmedAt (block depth : UInt64) : UInt64 :=
  UInt64.ofNat (min (block.toNat + depth.toNat) (UInt64.size - 1))

/-- Somebody who waits for a height. -/
structure Waiter where
  id : String
  target : UInt64
  verdict : Option Verdict

/-- Lets a waiter look at the height. -/
def Waiter.look (w : Waiter) (h : Height) : Waiter :=
  { w with verdict := w.verdict.or (verdict? h w.target) }

end ChainWatch.BlockCounter
