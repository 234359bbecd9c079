import ChainWatch.Error

/-!
# Answers of a node by the number of the call

What a node will say is given as a function from the number of the call, counted from zero, to a
timed answer. A script lists such answers, each with the number of calls it serves; the last one
serves all further calls.
-/

namespace ChainWatch.Node

/-- An answer that arrives some milliseconds after the question. -/
structure Timed (α : Type) where
  delay : Nat
  answer : Except ChainError α

/-- A list of answers, each for a number of calls. -/
abbrev Script (α : Type) := List (Nat × Timed α)

/-- The answer to call number `n`, counted from zero. -/
def Script.at? {α : Type} : Script α → Nat → Option (Timed α)
  | [], _ => none
  | [(_, reply)], _ => some reply
  | (times, reply) :: rest, n =>
    if n < times then some reply else Script.at? rest (n - times)

/-- As a function of the number of the call; `idle` answers where the script lists nothing. -/
def Script.answers {α : Type} (idle : α) (script : Script α) (n : Nat) : Timed α :=
  (script.at? n).getD ⟨0, .ok idle⟩

end ChainWatch.Node
