import ChainWatch.Storage.Program

/-!
# Programs that are interrupted

The system may refuse a step of a program with an error of its own, and a program may stop anywhere.
A refused step changes nothing, and the program goes on with the error as the answer. A write that
fails is not answered: the call ends with it, after as many pieces as were written.
-/

namespace ChainWatch.Storage

/-- What a refused step answers. -/
def Action.refusal (cause : OsError) : (a : Action) → Option a.Reply
  | .makeDir _ => some (.error cause)
  | .isDir _ => some false
  | .present _ => some (.error cause)
  | .list _ => some (.error cause)
  | .read _ => some (.error cause)
  | .openEmptied _ => some (.error cause)
  | .openNew _ => some (.error cause)
  | .writeAt _ _ _ => none
  | .rename _ _ => some (.error cause)
  | .unlink _ => some (.error cause)
  | .removeDir _ => some (.error cause)

namespace Program

variable {α : Type}

/-- What is left of a program when its next step is refused. -/
def refuse (cause : OsError) : Program α → Option (Program α)
  | .done _ => none
  | .step action next => (action.refusal cause).map next

/-- The next step of a program is performed or refused. -/
inductive Advances (program : Program α) (t : FileTree) : Program α → FileTree → Prop
  | performed : Advances program t (program.runSteps 1 t).2 (program.runSteps 1 t).1
  | refused {cause : OsError} {left : Program α} :
    program.refuse cause = some left → Advances program t left t

/-- A program takes any number of steps, each performed or refused, with `left` yet to do. -/
inductive Course : Program α → FileTree → Program α → FileTree → Prop
  | stop {program : Program α} {t : FileTree} : Course program t program t
  | step {program next left : Program α} {t t' t'' : FileTree} :
    Advances program t next t' → Course next t' left t'' → Course program t left t''

end Program

end ChainWatch.Storage
