import ChainWatch.Mining.Waiter

/-!
# A check window

Lookups fall due at the start of the window and every poll interval after it, up to and including
its end. One lookup waits for the answer of the one before; a lookup that is late starts at once,
and none is skipped. An answer that has not arrived at the end of the window is dropped. A failed
lookup counts like the answer "not mined".

A window of length `w` with polls every `p` milliseconds thus has at most `w / p + 1` lookups.
-/

namespace ChainWatch.Mining

/-- What came of a window. -/
structure WindowResult where
  /-- When the lookups started. -/
  lookups : List Nat
  /-- The receipt and when it arrived. -/
  found : Option (Receipt × Nat)
deriving DecidableEq

/-- The lookups of a window that are still to come: `left` of them, the next one due at `due` and
numbered `index`; the waiter is free again at `now`. -/
def lookUntil (answers : Nat → Node.Timed (Option Receipt)) (deadline poll : Nat) :
    (left due now index : Nat) → WindowResult
  | 0, _, _, _ => ⟨[], none⟩
  | left + 1, due, now, index =>
    let start := max now due
    if deadline < start then ⟨[], none⟩
    else
      let reply := answers index
      let arrival := start + reply.delay
      if deadline < arrival then ⟨[start], none⟩
      else
        match reply.answer with
        | .ok (some receipt) => ⟨[start], some (receipt, arrival)⟩
        | _ =>
          let later := lookUntil answers deadline poll left (due + poll) arrival (index + 1)
          ⟨start :: later.lookups, later.found⟩

/-- The window of the given length that opens at `start`; `index` is the number of its first
lookup. -/
def window (answers : Nat → Node.Timed (Option Receipt)) (length poll start index : Nat) :
    WindowResult :=
  lookUntil answers (start + length) poll (length / poll + 1) start start index

end ChainWatch.Mining
