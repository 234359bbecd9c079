/-!
# Call logs

A call log lists what was asked and when. Runs of the same question are shown as one line with
their number and the times of the first and the last.
-/

namespace ChainWatch

/-- A run of equal calls. -/
structure CallRun (α : Type) where
  call : α
  count : Nat
  first : Nat
  last : Nat

namespace CallRun

variable {α : Type} [DecidableEq α]

/-- Puts one call in front of the runs of what followed it. -/
def cons (call : α) (time : Nat) : List (CallRun α) → List (CallRun α)
  | [] => [⟨call, 1, time, time⟩]
  | run :: rest =>
    if run.call = call then ⟨call, run.count + 1, time, run.last⟩ :: rest
    else ⟨call, 1, time, time⟩ :: run :: rest

/-- The runs of a call log. -/
def ofLog : List (α × Nat) → List (CallRun α)
  | [] => []
  | (call, time) :: rest => cons call time (ofLog rest)

end CallRun

end ChainWatch
