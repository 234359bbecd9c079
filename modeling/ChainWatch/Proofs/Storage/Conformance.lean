import ChainWatch.Proofs.Storage.Calls
import ChainWatch.Proofs.Storage.Turns

/-!
# The steps of calls

`Program.Conforms` says of a program that it keeps to rules, whatever the system answers: which
steps it may take and which errors it may end with. `Call.Takes` lists the single steps of every
call to a store with all the paths in them, and `Call.conforms` says that a call takes no others.
What is moved or written depends on the answers: an archive moves what was listed, and pieces go to
the file that was opened.
-/

namespace ChainWatch.Storage

open FileTree Program

/-- What a program may do, and what it may rely on: a refusal is always an answer. -/
structure Rules where
  allowed : Action → Prop
  credible : (a : Action) → a.Reply → Prop
  errors : ChainError → Prop
  refused : ∀ {a : Action} {cause : OsError} {reply : a.Reply},
    a.refusal cause = some reply → credible a reply

/-- A program keeps to rules as long as the answers do. -/
inductive Program.Conforms (rules : Rules) {α : Type} : Program α → Prop
  | done {outcome : Outcome α} :
    (∀ cause, outcome = .error cause → rules.errors cause) → Conforms rules (.done outcome)
  | step {action : Action} {next : action.Reply → Program α} :
    rules.allowed action →
    (∀ reply, rules.credible action reply → Conforms rules (next reply)) →
      Conforms rules (.step action next)

section

variable {rules rules' : Rules} {α β : Type} {program program' : Program α}

namespace Program

theorem Conforms.ok (value : α) : (Program.done (.ok value)).Conforms rules := .done nofun

theorem Conforms.error {cause : ChainError} (h : rules.errors cause) :
    (Program.done (.error cause) : Program α).Conforms rules :=
  .done fun _ hcause => Outcome.error.inj hcause ▸ h

theorem Conforms.fault (cause : Fault) :
    (Program.done (.fault cause) : Program α).Conforms rules := .done nofun

theorem Conforms.bind (h : program.Conforms rules) {f : α → Program β}
    (hf : ∀ value, (f value).Conforms rules) : (program >>= f).Conforms rules := by
  induction h with
  | @done outcome herrors =>
    cases outcome with
    | ok value => exact hf value
    | error cause => exact .error (herrors cause rfl)
    | fault cause => exact .fault cause
  | step hallowed _ ih => exact .step hallowed ih

theorem Conforms.mono (h : program.Conforms rules)
    (hallowed : ∀ a, rules.allowed a → rules'.allowed a)
    (hcredible : ∀ a reply, rules'.credible a reply → rules.credible a reply)
    (herrors : ∀ cause, rules.errors cause → rules'.errors cause) :
    program.Conforms rules' := by
  induction h with
  | done hdone => exact .done fun cause hcause => herrors cause (hdone cause hcause)
  | step hstep _ ih =>
    exact .step (hallowed _ hstep) fun reply hreply => ih reply (hcredible _ reply hreply)

theorem Conforms.act {action : Action} (h : rules.allowed action) {f : action.Reply → Program β}
    (hf : ∀ reply, rules.credible action reply → (f reply).Conforms rules) :
    (act action >>= f).Conforms rules := .step h hf

theorem Conforms.orFail {toError : OsError → ChainError}
    (h : ∀ cause, rules.errors (toError cause)) (reply : Except OsError α) :
    (orFail toError reply).Conforms rules := by
  cases reply with
  | ok value => exact .ok value
  | error cause => exact .error (h cause)

theorem Conforms.checkName {name : String} {f : Unit → Program β}
    (hrefused : acceptable name = false → rules.errors (.invalidName name longestRecordName))
    (hf : acceptable name = true → (f ()).Conforms rules) :
    (Store.checkName name >>= f).Conforms rules := by
  by_cases hname : acceptable name = true
  · rw [Store.checkName, if_pos hname]
    exact hf hname
  · rw [Store.checkName, if_neg hname]
    exact .error (hrefused (Bool.not_eq_true _ ▸ hname))

end Program

/-! ## What the steps of a program keep -/

/-- A property of trees that every allowed step keeps, and that makes the answers credible. -/
structure Rules.Keeps (rules : Rules) (P : FileTree → Prop) : Prop where
  perform : ∀ {t : FileTree} {a : Action}, P t → rules.allowed a → P (a.perform t).1
  credible : ∀ {t : FileTree} {a : Action}, P t → rules.allowed a →
    rules.credible a (a.perform t).2

section

variable {P : FileTree → Prop} {t t' : FileTree}

theorem Program.Conforms.refuse (h : program.Conforms rules) {cause : OsError}
    (hrefuse : program.refuse cause = some program') : program'.Conforms rules := by
  cases h with
  | done _ => exact absurd hrefuse nofun
  | step _ hnext =>
    obtain ⟨reply, hreply, rfl⟩ := Option.map_eq_some_iff.mp hrefuse
    exact hnext reply (rules.refused hreply)

theorem Program.Conforms.advance (h : program.Conforms rules) (hkeeps : rules.Keeps P) (ht : P t)
    (hadvances : program.Advances t program' t') : program'.Conforms rules ∧ P t' := by
  cases hadvances with
  | performed =>
    cases h with
    | done herrors => exact ⟨.done herrors, ht⟩
    | step hallowed hnext =>
      exact ⟨hnext _ (hkeeps.credible ht hallowed), hkeeps.perform ht hallowed⟩
  | refused hrefuse => exact ⟨h.refuse hrefuse, ht⟩

theorem Program.Conforms.course (h : program.Conforms rules) (hkeeps : rules.Keeps P) (ht : P t)
    (hcourse : program.Course t program' t') : program'.Conforms rules ∧ P t' := by
  induction hcourse with
  | stop => exact ⟨h, ht⟩
  | step hadvances _ ih =>
    obtain ⟨hconforms, hnext⟩ := h.advance hkeeps ht hadvances
    exact ih hconforms hnext

theorem Program.Conforms.run (h : program.Conforms rules) (hkeeps : rules.Keeps P) (ht : P t) :
    P (program.run t).1 :=
  (h.course hkeeps ht (course_run program t)).2

end

end

/-! ## The steps of every call -/

/-- What is known of the answers to a call: the names that are listed in a directory, and the
numbers of the files that are opened. -/
structure Answers where
  listed : Path → Name → Prop
  opened : Nat → Prop

/-- An answer is as it is known to be. -/
def Answers.Credible (known : Answers) : (a : Action) → a.Reply → Prop
  | .list p, .ok entries => ∀ entry ∈ entries, known.listed p entry.1
  | .openEmptied _, .ok number => known.opened number
  | .openNew _, .ok number => known.opened number
  | _, _ => True

theorem Answers.credible_of_refusal (known : Answers) {a : Action} {cause : OsError}
    {reply : a.Reply} (h : a.refusal cause = some reply) : known.Credible a reply := by
  cases a with
  | list _ | openEmptied _ | openNew _ =>
    obtain rfl := Option.some.inj h
    trivial
  | _ => trivial

/-- Steps that only ask. -/
inductive Action.Asks : Action → Prop
  | isDir (p : Path) : Asks (.isDir p)
  | present (p : Path) : Asks (.present p)
  | list (p : Path) : Asks (.list p)
  | read (p : Path) : Asks (.read p)

/-- The single steps of a call. -/
inductive Call.Takes (s : Store) (known : Answers) : Call → Action → Prop
  | asks {c : Call} {a : Action} : a.Asks → Takes s known c a
  | saveDirectory {pieces : List Bytes} {directory name : String} {x : Path} :
    acceptable directory = true → x <+: s.path [Area.current.name, Text.utf8 directory] →
      Takes s known (.save pieces directory name) (.makeDir x)
  | saveOpen {pieces : List Bytes} {directory name : String} :
    acceptable directory = true → acceptable name = true →
      Takes s known (.save pieces directory name)
        (.openEmptied (s.path (spot .current directory (Text.utf8 (temporaryName name)))))
  | saveWrite {pieces : List Bytes} {directory name : String} {number : Nat} (offset : Nat)
      (piece : Bytes) :
    known.opened number →
      Takes s known (.save pieces directory name) (.writeAt number offset piece)
  | savePlace {pieces : List Bytes} {directory name : String} :
    acceptable directory = true → acceptable name = true →
      Takes s known (.save pieces directory name)
        (.rename (s.path (spot .current directory (Text.utf8 (temporaryName name))))
          (s.path (spot .current directory (Text.utf8 name))))
  | delete {directory name : String} :
    acceptable directory = true → acceptable name = true →
      Takes s known (.delete directory name)
        (.unlink (s.path (spot .current directory (Text.utf8 name))))
  | archiveArea {directory : String} {x : Path} :
    acceptable directory = true → x <+: s.path [Area.archive.name] →
      Takes s known (.archive directory) (.makeDir x)
  | archiveFile {directory : String} {file : Name} :
    acceptable directory = true →
    known.listed (s.path [Area.current.name, Text.utf8 directory]) file →
      Takes s known (.archive directory)
        (.rename (s.path (spot .current directory file)) (s.path (spot .archive directory file)))
  | archiveDirectory {directory : String} :
    acceptable directory = true →
      Takes s known (.archive directory)
        (.rename (s.path [Area.current.name, Text.utf8 directory])
          (s.path [Area.archive.name, Text.utf8 directory]))
  | archiveEnd {directory : String} :
    acceptable directory = true →
      Takes s known (.archive directory)
        (.removeDir (s.path [Area.current.name, Text.utf8 directory]))
  | snapshotDirectory {clock : Int64} {pieces : List Bytes} {directory name : String} {x : Path} :
    acceptable directory = true → x <+: s.path [Area.snapshot.name, Text.utf8 directory] →
      Takes s known (.snapshot clock pieces directory name) (.makeDir x)
  | snapshotOpen {clock : Int64} {pieces : List Bytes} {directory name : String} (suffix : Int) :
    acceptable directory = true → acceptable name = true →
      Takes s known (.snapshot clock pieces directory name)
        (.openNew (s.path (spot .snapshot directory (Text.utf8 (snapshotName name suffix)))))
  | snapshotWrite {clock : Int64} {pieces : List Bytes} {directory name : String} {number : Nat}
      (offset : Nat) (piece : Bytes) :
    known.opened number →
      Takes s known (.snapshot clock pieces directory name) (.writeAt number offset piece)

/-- The names in a call, in the order in which they are checked. -/
def Call.names : Call → List String
  | .save _ directory name => [name, directory]
  | .delete directory name => [name, directory]
  | .archive directory => [directory]
  | .snapshot _ _ directory name => [name, directory]
  | .readAll => []

/-- What a call may do: it ends with an error of the system or with one that tells which name was
refused. -/
def Call.rules (c : Call) (s : Store) (known : Answers) : Rules where
  allowed := c.Takes s known
  credible := known.Credible
  errors cause := (∃ names reason, cause = s.failure names reason) ∨
    ∃ name ∈ c.names, acceptable name = false ∧ cause = .invalidName name longestRecordName
  refused := known.credible_of_refusal

section

variable {s : Store} {known : Answers} {rules : Rules} {pieces : List Bytes}
  {directory name : String}

theorem Call.rules_failure {c : Call} (names : List Name) (reason : OsError) :
    (c.rules s known).errors (s.failure names reason) := .inl ⟨names, reason, rfl⟩

theorem Call.rules_invalidName {c : Call} (hname : name ∈ c.names) (h : acceptable name = false) :
    (c.rules s known).errors (.invalidName name longestRecordName) := .inr ⟨name, hname, h, rfl⟩

theorem Call.allowed_isDir {c : Call} (p : Path) : (c.rules s known).allowed (.isDir p) :=
  Call.Takes.asks (.isDir p)

/-! ## Pieces of programs -/

theorem conforms_isDir {toError : OsError → ChainError} {p : Path}
    (hask : rules.allowed (.isDir p)) (herrors : ∀ cause, rules.errors (toError cause))
    (cause : OsError) :
    (act (.isDir p) >>= fun there =>
      if there = true then pure () else fail (toError cause)).Conforms rules := by
  refine .act hask fun there _ => ?_
  cases there with
  | true => exact .ok ()
  | false => exact .error (herrors cause)

theorem conforms_makeDirsUp {toError : OsError → ChainError} {names : List Name}
    (hmake : ∀ x, x <+: names.reverse → rules.allowed (.makeDir x))
    (hask : ∀ x, rules.allowed (.isDir x)) (herrors : ∀ cause, rules.errors (toError cause)) :
    (Store.makeDirsUp toError names).Conforms rules := by
  induction names with
  | nil =>
    rw [Store.makeDirsUp]
    refine .act (hmake _ List.nil_prefix) fun reply _ => ?_
    cases reply with
    | ok _ => exact .ok ()
    | error cause => exact conforms_isDir (hask _) herrors _
  | cons name above ih =>
    have habove : ∀ x, x <+: above.reverse → rules.allowed (.makeDir x) := by
      intro x hx
      rw [List.reverse_cons] at hmake
      exact hmake x (hx.trans (List.prefix_append _ _))
    rw [Store.makeDirsUp]
    refine .act (hmake _ (List.prefix_refl _)) fun reply _ => ?_
    cases reply with
    | ok _ => exact .ok ()
    | error cause =>
      show Conforms rules (if cause = .noEntry then _ else _)
      split
      · -- those above are made first, then the directory is tried again
        refine (ih habove).bind fun _ => .act (hmake _ (List.prefix_refl _)) fun again _ => ?_
        cases again with
        | ok _ => exact .ok ()
        | error again => exact conforms_isDir (hask _) herrors _
      · exact conforms_isDir (hask _) herrors _

theorem conforms_makeDirs (names : List Name)
    (hmake : ∀ x, x <+: s.path names → rules.allowed (.makeDir x))
    (hask : ∀ x, rules.allowed (.isDir x))
    (herrors : ∀ cause, rules.errors (s.failure names cause)) :
    (s.makeDirs names).Conforms rules :=
  conforms_makeDirsUp (by rwa [List.reverse_reverse]) hask herrors

theorem conforms_writePieces {number : Nat}
    (hwrite : ∀ offset piece, rules.allowed (.writeAt number offset piece)) (offset : Nat)
    (pieces : List Bytes) : (Store.writePieces number offset pieces).Conforms rules := by
  induction pieces generalizing offset with
  | nil => exact .ok ()
  | cons piece rest ih => exact .act (hwrite _ _) fun _ _ => ih _

/-! ## The calls -/

theorem conforms_save (s : Store) (known : Answers) (pieces : List Bytes)
    (directory name : String) :
    (s.save pieces directory name).Conforms ((Call.save pieces directory name).rules s known) := by
  refine .checkName (Call.rules_invalidName (by simp [Call.names])) fun hn =>
    .checkName (Call.rules_invalidName (by simp [Call.names])) fun hd => ?_
  -- nothing is done before both names are known to be acceptable
  refine (conforms_makeDirs _ (fun x hx => Call.Takes.saveDirectory hd hx) Call.allowed_isDir
    (Call.rules_failure _)).bind fun _ => ?_
  refine .act (Call.Takes.saveOpen hd hn) fun reply hreply => ?_
  cases reply with
  | error cause => exact .error (Call.rules_failure _ cause)
  | ok number =>
    have hwrites : (Store.writePieces number 0 pieces).Conforms
        ((Call.save pieces directory name).rules s known) :=
      conforms_writePieces (fun offset piece => Call.Takes.saveWrite offset piece hreply) 0 pieces
    refine hwrites.bind fun _ => ?_
    exact .act (Call.Takes.savePlace hd hn) fun reply _ => .orFail (Call.rules_failure _) reply

theorem conforms_delete (s : Store) (known : Answers) (directory name : String) :
    (s.delete directory name).Conforms ((Call.delete directory name).rules s known) := by
  refine .checkName (Call.rules_invalidName (by simp [Call.names])) fun hn =>
    .checkName (Call.rules_invalidName (by simp [Call.names])) fun hd => ?_
  exact .act (Call.Takes.delete hd hn) fun reply _ => .orFail (Call.rules_failure _) reply

theorem conforms_moveEntries (hd : acceptable directory = true) (entries : List (Name × Bool))
    (hlisted : ∀ entry ∈ entries,
      known.listed (s.path [Area.current.name, Text.utf8 directory]) entry.1) :
    (s.moveEntries [Area.current.name, Text.utf8 directory] [Area.archive.name, Text.utf8 directory]
      entries).Conforms ((Call.archive directory).rules s known) := by
  induction entries with
  | nil => exact .ok ()
  | cons entry rest ih =>
    refine .act (Call.Takes.archiveFile hd (hlisted entry List.mem_cons_self)) fun reply _ => ?_
    exact (Conforms.orFail (Call.rules_failure _) reply).bind fun _ =>
      ih fun entry hentry => hlisted entry (List.mem_cons_of_mem _ hentry)

theorem conforms_archive (s : Store) (known : Answers) (directory : String) :
    (s.archive directory).Conforms ((Call.archive directory).rules s known) := by
  refine .checkName (Call.rules_invalidName (by simp [Call.names])) fun hd =>
    .act (Call.Takes.asks (.present _)) fun reply _ => ?_
  refine (Conforms.orFail (Call.rules_failure _) reply).bind fun there => ?_
  split
  · refine (conforms_makeDirs _ (fun x hx => Call.Takes.archiveArea hd hx) Call.allowed_isDir
      (Call.rules_failure _)).bind fun _ => ?_
    refine .act (Call.Takes.asks (.present _)) fun reply _ =>
      (Conforms.orFail (Call.rules_failure _) reply).bind fun retired => ?_
    split
    · -- only names that were listed are moved
      refine .act (Call.Takes.asks (.list _)) fun reply hreply => ?_
      cases reply with
      | error cause => exact .error (Call.rules_failure _ cause)
      | ok entries =>
        refine (conforms_moveEntries hd entries hreply).bind fun _ => ?_
        exact .act (Call.Takes.archiveEnd hd) fun reply _ => .orFail (Call.rules_failure _) reply
    · exact .act (Call.Takes.archiveDirectory hd) fun reply _ =>
        .orFail (Call.rules_failure _) reply
  · exact .ok ()

theorem conforms_copying {clock : Int64} (number : Nat) (hopened : known.opened number) :
    (Store.writePieces number 0 pieces).Conforms
      ((Call.snapshot clock pieces directory name).rules s known) :=
  conforms_writePieces (fun offset piece => Call.Takes.snapshotWrite offset piece hopened) 0 pieces

theorem conforms_snapshotFrom {clock : Int64} (hd : acceptable directory = true)
    (hn : acceptable name = true) (left : Nat) (suffix : Int) :
    (s.snapshotFrom pieces [Area.snapshot.name, Text.utf8 directory] name left suffix).Conforms
      ((Call.snapshot clock pieces directory name).rules s known) := by
  induction left generalizing suffix with
  | zero =>
    rw [Store.snapshotFrom]
    refine .act (Call.Takes.snapshotOpen suffix hd hn) fun reply hreply => ?_
    cases reply with
    | ok number =>
      exact (conforms_copying number hreply).bind fun _ => .ok _
    | error cause =>
      dsimp only
      split
      · exact .fault _
      · exact .error (Call.rules_failure _ cause)
  | succ left ih =>
    rw [Store.snapshotFrom]
    refine .act (Call.Takes.snapshotOpen suffix hd hn) fun reply hreply => ?_
    cases reply with
    | ok number =>
      exact (conforms_copying number hreply).bind fun _ => .ok _
    | error cause =>
      dsimp only
      split
      · -- the suffix is taken, so the next one is tried
        exact ih (suffix + 1)
      · exact .error (Call.rules_failure _ cause)

theorem conforms_snapshot (s : Store) (known : Answers) (clock : Int64) (pieces : List Bytes)
    (directory name : String) :
    (s.snapshot clock.toInt pieces directory name).Conforms
      ((Call.snapshot clock pieces directory name).rules s known) := by
  refine .checkName (Call.rules_invalidName (by simp [Call.names])) fun hn =>
    .checkName (Call.rules_invalidName (by simp [Call.names])) fun hd => ?_
  refine (conforms_makeDirs _ (fun x hx => Call.Takes.snapshotDirectory hd hx) Call.allowed_isDir
    (Call.rules_failure _)).bind fun _ => ?_
  exact conforms_snapshotFrom hd hn _ _

theorem conforms_readFiles (s : Store) (known : Answers) (directory : String)
    (entries : List (Name × Bool)) :
    (s.readFiles directory entries).Conforms (Call.readAll.rules s known) := by
  induction entries with
  | nil => exact .ok _
  | cons entry rest ih =>
    rw [Store.readFiles]
    split
    · exact ih
    · split
      · exact ih
      · refine .act (Call.Takes.asks (.read _)) fun reply _ =>
          (Conforms.orFail (Call.rules_failure _) reply).bind fun content => ?_
        exact ih.bind fun records => .ok _

theorem conforms_readDirs (s : Store) (known : Answers) (entries : List (Name × Bool)) :
    (s.readDirs entries).Conforms (Call.readAll.rules s known) := by
  induction entries with
  | nil => exact .ok _
  | cons entry rest ih =>
    rw [Store.readDirs]
    split
    · exact ih
    · split
      · refine .act (Call.Takes.asks (.list _)) fun reply _ =>
          (Conforms.orFail (Call.rules_failure _) reply).bind fun files => ?_
        exact (conforms_readFiles s known _ files).bind fun records => ih.bind fun others => .ok _
      · exact ih

theorem conforms_readAll (s : Store) (known : Answers) :
    s.readAll.Conforms (Call.readAll.rules s known) := by
  refine .act (Call.Takes.asks (.list _)) fun reply _ => ?_
  cases reply with
  | ok entries => exact conforms_readDirs s known entries
  | error cause =>
    dsimp only
    split
    · exact .ok _
    · exact .error (Call.rules_failure _ cause)

/-- A call takes the steps that are listed for it, and no others. -/
theorem Call.conforms (c : Call) (s : Store) (known : Answers) :
    (c.program s).Conforms (c.rules s known) := by
  cases c with
  | save pieces directory name =>
    exact (conforms_save s known pieces directory name).bind fun _ => .ok _
  | delete directory name => exact (conforms_delete s known directory name).bind fun _ => .ok _
  | archive directory => exact (conforms_archive s known directory).bind fun _ => .ok _
  | snapshot clock pieces directory name =>
    exact (conforms_snapshot s known clock pieces directory name).bind fun _ => .ok _
  | readAll => exact (conforms_readAll s known).bind fun _ => .ok _

end

end ChainWatch.Storage
