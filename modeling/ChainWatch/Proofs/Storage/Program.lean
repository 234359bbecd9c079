import ChainWatch.Proofs.Storage.Tree
import ChainWatch.Storage.Faults
import ChainWatch.Storage.Store

/-!
# Running file programs

What a program made of two ends with, and what the pieces of a file add up to.
-/

namespace ChainWatch.Storage

namespace Program

variable {α β : Type} {t t' : FileTree}

theorem run_pure (value : α) (t : FileTree) : (pure value : Program α).run t = (t, .ok value) := rfl

theorem run_orFail_ok (toError : OsError → ChainError) (value : α) (t : FileTree) :
    (orFail toError (.ok value)).run t = (t, .ok value) := rfl

theorem run_orFail_error (toError : OsError → ChainError) (cause : OsError) (t : FileTree) :
    (orFail toError (.error cause) : Program α).run t = (t, .error (toError cause)) := rfl

theorem eq_ok_of_run_orFail_ok {toError : OsError → ChainError} {reply : Except OsError α} {value : α}
    (h : ((orFail toError reply).run t).2 = .ok value) : reply = .ok value := by
  cases reply with
  | ok first =>
    rw [run_orFail_ok] at h
    exact congrArg _ (Outcome.ok.inj h)
  | error cause =>
    rw [run_orFail_error] at h
    exact absurd h (by simp)

theorem run_act_bind (action : Action) (f : action.Reply → Program β) (t : FileTree) :
    (act action >>= f).run t = (f (action.perform t).2).run (action.perform t).1 := rfl

theorem run_bind (program : Program α) (f : α → Program β) (t : FileTree) :
    (program >>= f).run t =
      match program.run t with
      | (after, .ok value) => (f value).run after
      | (after, .error cause) => (after, .error cause)
      | (after, .fault cause) => (after, .fault cause) := by
  induction program generalizing t with
  | done outcome => cases outcome <;> rfl
  | step action next ih => exact ih _ _

theorem run_bind_of_ok {program : Program α} {value : α} (h : program.run t = (t', .ok value))
    (f : α → Program β) : (program >>= f).run t = (f value).run t' := by
  rw [run_bind, h]

theorem run_bind_of_error {program : Program α} {cause : ChainError}
    (h : program.run t = (t', .error cause)) (f : α → Program β) :
    (program >>= f).run t = (t', .error cause) := by
  rw [run_bind, h]

theorem run_bind_of_fault {program : Program α} {cause : Fault}
    (h : program.run t = (t', .fault cause)) (f : α → Program β) :
    (program >>= f).run t = (t', .fault cause) := by
  rw [run_bind, h]

theorem run_bind_congr {program : Program α} (h : program.run t = program.run t')
    (f : α → Program β) : (program >>= f).run t = (program >>= f).run t' := by
  rw [run_bind, run_bind, h]

/-- A program made of two ends well only if the first one does. -/
theorem exists_of_run_bind_ok {program : Program α} {f : α → Program β} {value : β}
    (h : ((program >>= f).run t).2 = .ok value) :
    ∃ first, (program.run t).2 = .ok first ∧
      ((f first).run (program.run t).1).2 = .ok value := by
  rw [run_bind] at h
  split at h
  · rename_i after first hrun
    rw [hrun]
    exact ⟨first, rfl, h⟩
  · exact absurd h (by simp)
  · exact absurd h (by simp)

theorem runSteps_done (count : Nat) (outcome : Outcome α) (t : FileTree) :
    (Program.done outcome).runSteps count t = (t, .done outcome) := by
  cases count <;> rfl

theorem runSteps_succ (count : Nat) (program : Program α) (t : FileTree) :
    program.runSteps (count + 1) t
      = (program.runSteps 1 t).2.runSteps count (program.runSteps 1 t).1 := by
  cases program with
  | done outcome =>
    rw [runSteps_done, runSteps_done]
    exact (runSteps_done count outcome t).symm
  | step action next => rfl

/-- Steps that nothing disturbs are all performed. -/
theorem course_runSteps (program : Program α) (t : FileTree) (count : Nat) :
    program.Course t (program.runSteps count t).2 (program.runSteps count t).1 := by
  induction count generalizing program t with
  | zero => exact .stop
  | succ count ih =>
    rw [runSteps_succ]
    exact .step .performed (ih _ _)

/-- What has ended stays as it is. -/
theorem Course.of_done {outcome : Outcome α} {left : Program α}
    (h : (Program.done outcome).Course t left t') : left = .done outcome ∧ t' = t := by
  generalize hprogram : Program.done outcome = program at h ⊢
  induction h with
  | stop => exact ⟨rfl, rfl⟩
  | step hadvances _ ih =>
    subst hprogram
    cases hadvances with
    | performed => exact ih rfl
    | refused hrefuse => exact absurd hrefuse nofun

/-- A program that nothing disturbs has ended after so many steps. -/
theorem exists_runSteps_eq_run (program : Program α) (t : FileTree) :
    ∃ count, program.runSteps count t = ((program.run t).1, .done (program.run t).2) := by
  induction program generalizing t with
  | done outcome => exact ⟨0, rfl⟩
  | step action next ih =>
    obtain ⟨count, hcount⟩ := ih (action.perform t).2 (action.perform t).1
    exact ⟨count + 1, hcount⟩

theorem course_run (program : Program α) (t : FileTree) :
    program.Course t (.done (program.run t).2) (program.run t).1 := by
  obtain ⟨count, hcount⟩ := exists_runSteps_eq_run program t
  have hcourse := course_runSteps program t count
  rwa [hcount] at hcourse

end Program

namespace FileTree

/-- The tree with another content in one file. -/
def filled (t : FileTree) (number : Nat) (data : Bytes) : FileTree :=
  { t with contents := t.contents.set number data }

@[simp]
theorem item?_filled (t : FileTree) (number : Nat) (data : Bytes) (p : Path) :
    (t.filled number data).item? p = t.item? p := rfl

@[simp]
theorem filled_filled (t : FileTree) (number : Nat) (old data : Bytes) :
    (t.filled number old).filled number data = t.filled number data := by
  simp [filled]

theorem content_filled {t : FileTree} {number : Nat} (h : number < t.contents.length)
    (data : Bytes) (other : Nat) :
    (t.filled number data).content other = if other = number then data else t.content other := by
  by_cases hother : other = number
  · simp [content, filled, hother, h]
  · simp [content, filled, hother, List.getD_eq_getElem?_getD,
      List.getElem?_set_ne (Ne.symm hother)]

theorem filled_content {t : FileTree} {number : Nat} (h : number < t.contents.length) :
    t.filled number (t.content number) = t := by
  rw [filled, content, List.getD_eq_getElem?_getD, List.getElem?_eq_getElem h, Option.getD_some,
    List.set_getElem_self]

theorem writeAt_end (t : FileTree) (number : Nat) (piece : Bytes) :
    t.writeAt number (t.content number).length piece
      = t.filled number (t.content number ++ piece) := by
  have hrest : (t.content number).drop ((t.content number).length + piece.length) = [] :=
    List.drop_eq_nil_of_le (Nat.le_add_right _ _)
  simp [writeAt, filled, overwrite, hrest]

end FileTree

/-- The pieces of a file that are written one after the other add up. -/
theorem Store.run_writePieces {number : Nat} (pieces : List Bytes) {t : FileTree}
    (h : number < t.contents.length) :
    (writePieces number (t.content number).length pieces).run t
      = (t.filled number (t.content number ++ pieces.flatten), .ok ()) := by
  induction pieces generalizing t with
  | nil =>
    rw [writePieces, Program.run_pure, List.flatten_nil, List.append_nil,
      FileTree.filled_content h]
  | cons piece rest ih =>
    rw [writePieces, Program.run_act_bind, Action.perform, FileTree.writeAt_end]
    have hcontent := FileTree.content_filled h (t.content number ++ piece) number
    rw [if_pos rfl] at hcontent
    have hrest := ih (t := t.filled number (t.content number ++ piece))
      (by rwa [FileTree.filled, List.length_set])
    rw [hcontent, List.length_append, FileTree.filled_filled] at hrest
    rw [hrest, List.flatten_cons, List.append_assoc]

theorem run_checkName {name : String} (h : acceptable name = true) (t : FileTree) :
    (Store.checkName name).run t = (t, .ok ()) := by
  rw [Store.checkName, if_pos h]
  rfl

/-- Two acceptable names are let through. -/
theorem run_checkNames {α : Type} {name name' : String} (h : acceptable name = true)
    (h' : acceptable name' = true) (f : Unit → Program α) (t : FileTree) :
    (Store.checkName name >>= fun _ => Store.checkName name' >>= f).run t = (f ()).run t := by
  rw [Program.run_bind_of_ok (run_checkName h t), Program.run_bind_of_ok (run_checkName h' t)]

end ChainWatch.Storage
