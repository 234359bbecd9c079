import ChainWatch.Error
import ChainWatch.Storage.FileTree

/-!
# File programs

A file program is a sequence of single steps on a file tree, each chosen by the answers to the
ones before. Every step is atomic; between two steps anything may happen to the tree. A program
can thus be run to its end, stopped after any number of its steps, or run among others.
-/

namespace ChainWatch.Storage

/-- One step on a file tree. -/
inductive Action where
  | makeDir (p : Path)
  | isDir (p : Path)
  | present (p : Path)
  | list (p : Path)
  | read (p : Path)
  | openEmptied (p : Path)
  | openNew (p : Path)
  | writeAt (number offset : Nat) (piece : Bytes)
  | rename (src dst : Path)
  | unlink (p : Path)
  | removeDir (p : Path)

/-- What a step answers. -/
@[reducible] def Action.Reply : Action → Type
  | makeDir _ | rename _ _ | unlink _ | removeDir _ => Except OsError Unit
  | isDir _ => Bool
  | present _ => Except OsError Bool
  | list _ => Except OsError (List (Name × Bool))
  | read _ => Except OsError Bytes
  | openEmptied _ | openNew _ => Except OsError Nat
  | writeAt _ _ _ => Unit

/-- The tree after a step, and the answer. -/
def Action.perform (t : FileTree) : (a : Action) → FileTree × a.Reply
  | makeDir p => t.makeDir p
  | isDir p => (t, t.isDir p)
  | present p => (t, t.present p)
  | list p => (t, t.list p)
  | read p => (t, t.read p)
  | openEmptied p => t.openEmptied p
  | openNew p => t.openNew p
  | writeAt number offset piece => (t.writeAt number offset piece, ())
  | rename src dst => t.rename src dst
  | unlink p => t.unlink p
  | removeDir p => t.removeDir p

/-- A sequence of steps that ends with an outcome. -/
inductive Program (α : Type) where
  | done (outcome : Outcome α)
  | step (action : Action) (next : action.Reply → Program α)

namespace Program

variable {α β : Type}

/-- Goes on with the value that a program ends with; an error or a fault ends the whole. -/
def bind : Program α → (α → Program β) → Program β
  | .done (.ok value), f => f value
  | .done (.error cause), _ => .done (.error cause)
  | .done (.fault cause), _ => .done (.fault cause)
  | .step action next, f => .step action fun reply => (next reply).bind f

instance : Monad Program where
  pure value := .done (.ok value)
  bind := bind

/-- A program of one step, which ends with the answer. -/
def act (action : Action) : Program action.Reply := .step action fun reply => .done (.ok reply)

/-- Ends with an error. -/
def fail (cause : ChainError) : Program α := .done (.error cause)

/-- Goes on with the value of a step's answer; an error of the step ends the program with it. -/
def orFail (toError : OsError → ChainError) : Except OsError α → Program α
  | .ok value => pure value
  | .error cause => fail (toError cause)

/-- The tree and the outcome at the end of a program that nothing disturbs. -/
def run : Program α → FileTree → FileTree × Outcome α
  | .done outcome, t => (t, outcome)
  | .step action next, t =>
    let (after, reply) := action.perform t
    (next reply).run after

/-- The tree after at most `count` steps, and what is left to do. -/
def runSteps : Nat → Program α → FileTree → FileTree × Program α
  | 0, program, t => (t, program)
  | _ + 1, .done outcome, t => (t, .done outcome)
  | count + 1, .step action next, t =>
    let (after, reply) := action.perform t
    (next reply).runSteps count after

/-- Programs that take turns on one tree: `turns` names, step by step, whose turn it is. -/
def interleave : List Nat → List (Program α) → FileTree → FileTree × List (Program α)
  | [], programs, t => (t, programs)
  | turn :: turns, programs, t =>
    match programs[turn]? with
    | none => interleave turns programs t
    | some program =>
      let (after, left) := program.runSteps 1 t
      interleave turns (programs.set turn left) after

end Program

end ChainWatch.Storage
