import ChainWatch.Proofs.Storage.Placing

/-!
# A save taking turns

A save that takes turns with others is at one of four stages: it makes directories, it is about to
open its temporary file, it has written a part of its data there, or it has ended. `Stage` says
which, by what is left of its program, and `Stage.turn` what one turn makes of it: only the turn in
which a save ends well changes anything but its temporary file, and it puts the whole record in
place.
-/

namespace ChainWatch.Storage

open FileTree Program

/-- A save that is to be made; its content is written in the given pieces. -/
structure Save where
  pieces : List Bytes
  directory : String
  name : String

namespace Save

def program (c : Save) (s : Store) : Program Unit := s.save c.pieces c.directory c.name

/-- The content of the record. -/
def data (c : Save) : Bytes := c.pieces.flatten

/-- The directory of the record below the data directory. -/
def dir (c : Save) : List Name := [Area.current.name, Text.utf8 c.directory]

/-- The temporary file that is written before the record. -/
def temporary (c : Save) : List Name := c.dir ++ [Text.utf8 (temporaryName c.name)]

/-- The file of the record. -/
def record (c : Save) : List Name := c.dir ++ [Text.utf8 c.name]

/-- The names can be those of a directory and a record. -/
def Named (c : Save) : Prop := acceptable c.name = true ∧ acceptable c.directory = true

/-- The end of a save: the temporary file becomes the record. -/
def placing (c : Save) (s : Store) : Program Unit := do
  orFail (s.failure c.record) (← act (.rename (s.path c.temporary) (s.path c.record)))

/-- What is left to do when pieces up to `offset` are written. -/
def filling (c : Save) (s : Store) (number offset : Nat) (pieces : List Bytes) : Program Unit := do
  Store.writePieces number offset pieces
  c.placing s

/-- What is left to do when the directories are there. -/
def storing (c : Save) (s : Store) : Program Unit := do
  let number ← orFail (s.failure c.temporary) (← act (.openEmptied (s.path c.temporary)))
  c.filling s number 0 c.pieces

end Save

/-! ## The names of a save -/

namespace Save

variable {c c' : Save} {s : Store}

theorem Named.dotless (h : c.Named) : Dotless c.dir := by
  have hdirectory := dotless_of_head (acceptable_head h.2)
  intro name hname
  rw [dir, List.mem_cons, List.mem_singleton] at hname
  rcases hname with rfl | rfl
  · exact ⟨Area.current.plain.not_here, Area.current.plain.not_up⟩
  · exact hdirectory

theorem Named.dotless_record (h : c.Named) : Dotless c.record := by
  have hrecord := dotless_of_head (acceptable_head h.1)
  intro name hname
  rcases List.mem_append.mp hname with hdir | hfile
  · exact h.dotless name hdir
  · rwa [List.mem_singleton.mp hfile]

theorem Named.dotless_temporary (h : c.Named) : Dotless c.temporary := by
  have hlength := length_temporaryName c.name
  intro name hname
  rcases List.mem_append.mp hname with hdir | hfile
  · exact h.dotless name hdir
  · rw [List.mem_singleton.mp hfile]
    constructor <;> intro heq <;> rw [heq] at hlength <;> simp at hlength

/-- A record is never the temporary file of another one. -/
theorem Named.record_ne_temporary (h : c.Named) (c' : Save) : c.record ≠ c'.temporary := by
  intro heq
  have hname := (List.append_inj' heq rfl).2
  rw [List.cons.injEq] at hname
  exact temporaryName_ne h.1 (Text.utf8_injective hname.1).symm

/-- A save whose names are refused has ended before its first step. -/
theorem program_of_not_named (h : ¬ c.Named) : ∃ cause, c.program s = .done (.error cause) := by
  rw [program, Store.save, Store.checkName, Store.checkName]
  by_cases hname : acceptable c.name = true
  · have hdirectory : ¬ acceptable c.directory = true := fun hdirectory => h ⟨hname, hdirectory⟩
    rw [if_pos hname, if_neg hdirectory]
    exact ⟨_, rfl⟩
  · rw [if_neg hname]
    exact ⟨_, rfl⟩

theorem Named.program_eq (h : c.Named) (s : Store) :
    c.program s = s.makeDirs c.dir >>= fun _ => c.storing s := by
  rw [program, Store.save, Store.checkName, Store.checkName, if_pos h.1, if_pos h.2]
  rfl

end Save

/-! ## Making directories -/

/-- All that the program may do is to make directories on the way to `p` and to ask for them. -/
inductive Prepares (p : Path) : Program Unit → Prop
  | done (outcome : Outcome Unit) : Prepares p (.done outcome)
  | makeDir {x : Path} {next : Except OsError Unit → Program Unit} :
    x <+: p → (∀ reply, Prepares p (next reply)) → Prepares p (.step (.makeDir x) next)
  | isDir {x : Path} {next : Bool → Program Unit} :
    (∀ reply, Prepares p (next reply)) → Prepares p (.step (.isDir x) next)

theorem Prepares.bind {p : Path} {program : Program Unit} (h : Prepares p program)
    {f : Unit → Program Unit} (hf : Prepares p (f ())) : Prepares p (program >>= f) := by
  induction h with
  | done outcome =>
    cases outcome with
    | ok value => exact hf
    | error cause => exact .done _
    | fault cause => exact .done _
  | makeDir hx _ ih => exact .makeDir hx ih
  | isDir _ ih => exact .isDir ih

theorem prepares_isDir (x p : Path) (toError : OsError → ChainError) (cause : OsError) :
    Prepares p (act (.isDir x) >>= fun there =>
      if there = true then pure () else fail (toError cause)) := by
  refine .isDir fun there => ?_
  cases there <;> exact .done _

theorem prepares_makeDirsUp (toError : OsError → ChainError) {names : List Name} {p : Path}
    (hway : names.reverse <+: p) : Prepares p (Store.makeDirsUp toError names) := by
  induction names with
  | nil =>
    rw [Store.makeDirsUp]
    refine .makeDir List.nil_prefix fun reply => ?_
    cases reply with
    | ok _ => exact .done _
    | error cause => exact prepares_isDir _ _ _ _
  | cons name above ih =>
    have habove : above.reverse <+: p := by
      rw [List.reverse_cons] at hway
      exact (List.prefix_append _ _).trans hway
    rw [Store.makeDirsUp]
    refine .makeDir hway fun reply => ?_
    cases reply with
    | ok _ => exact .done _
    | error cause =>
      show Prepares p (if cause = .noEntry then _ else _)
      split
      · -- those above are made first, then the directory is tried again
        refine (ih habove).bind (.makeDir hway fun again => ?_)
        cases again with
        | ok _ => exact .done _
        | error again => exact prepares_isDir _ _ _ _
      · exact prepares_isDir _ _ _ _

theorem prepares_makeDirs (s : Store) (names : List Name) :
    Prepares (s.path names) (s.makeDirs names) := by
  have hway : (s.path names).reverse.reverse <+: s.path names := by simp
  exact prepares_makeDirsUp _ hway

/-! ## Stages of a save -/

/-- Does the next step open a file for writing? -/
def Program.opens {α : Type} : Program α → Bool
  | .step (.openEmptied _) _ => true
  | _ => false

/-- Does the next step go on with a file that was opened for writing? -/
def Program.holds {α : Type} : Program α → Bool
  | .step (.writeAt _ _ _) _ => true
  | .step (.rename _ _) _ => true
  | _ => false

/-- A file stands in a place and has this content. -/
structure Written (t : FileTree) (place : Path) (number : Nat) (data : Bytes) : Prop where
  file : t.item? place = some (.file number)
  content : t.content number = data

/-- The stages of a save, by what is left of its program; `home` is the data directory. -/
inductive Stage (s : Store) (home : Path) (c : Save) (t : FileTree) : Program Unit → Prop
  | ended (outcome : Outcome Unit) : Stage s home c t (.done outcome)
  | preparing {program : Program Unit} :
    c.Named → Prepares (s.path c.dir) program →
      Stage s home c t (program >>= fun _ => c.storing s)
  | writing {number : Nat} {written : Bytes} {rest : List Bytes} :
    c.Named → Written t (home ++ c.temporary) number written → written ++ rest.flatten = c.data →
      Stage s home c t (c.filling s number written.length rest)

/-- A save that begins: it makes its directories, is about to open its temporary file or has
failed. -/
inductive Early (s : Store) (c : Save) : Program Unit → Prop
  | failed {outcome : Outcome Unit} : outcome ≠ .ok () → Early s c (.done outcome)
  | preparing {program : Program Unit} :
    c.Named → Prepares (s.path c.dir) program → Early s c (program >>= fun _ => c.storing s)

/-- A turn has ended a save well and put its record in place, where every reader can get to. -/
structure Placed (rest : List Name) (home : Path) (c : Save) (t t' : FileTree)
    (program program' : Program Unit) : Prop where
  before : program ≠ .done (.ok ())
  after : program' = .done (.ok ())
  short : ∀ name ∈ rest ++ c.record, name.length ≤ longestName
  data : ∀ p, p ≠ c.temporary →
    t'.dataAt (home ++ p) = if p = c.record then some c.data else t.dataAt (home ++ p)

/-- What a turn of a save may do: other files change only if the turn puts the record in place, and
what is written for other saves stays. -/
structure Turned (s : Store) (q : Path) (rest : List Name) (c : Save) (t t' : FileTree)
    (program program' : Program Unit) : Prop where
  ground : Ground s q rest t'
  stage : Stage s (reached q rest) c t' program'
  keeps : ∀ p number data,
    program.opens = false ∧ program.holds = false ∨ p ≠ c.temporary ∧ p ≠ c.record →
    Written t (reached q rest ++ p) number data → Written t' (reached q rest ++ p) number data
  holds : program'.holds = true → program.opens = true ∨ program.holds = true
  shown : Placed rest (reached q rest) c t t' program program' ∨
    (program' = .done (.ok ()) → program = .done (.ok ())) ∧
      ∀ p, p ≠ c.temporary → t'.dataAt (reached q rest ++ p) = t.dataAt (reached q rest ++ p)

/-! ## What a change of one place leaves alone -/

section Changes

variable {s : Store} {q p : Path} {rest names : List Name} {name : Name} {c : Save}
  {t t' : FileTree} {program program' : Program Unit} {number other : Nat} {data data' : Bytes}

theorem append_ne (home : Path) (hp : p ≠ names) : home ++ p ≠ home ++ names :=
  fun heq => hp (List.append_cancel_left heq)

theorem Ground.Fills.item (h : Ground.Fills s q rest t (reached q rest ++ names) number data t')
    (hp : p ≠ names) : t'.item? (reached q rest ++ p) = t.item? (reached q rest ++ p) := by
  rw [h.items, if_neg (append_ne _ hp)]

theorem Ground.Fills.same (h : Ground.Fills s q rest t (reached q rest ++ names) number data t')
    (hp : p ≠ names) (hfile : t.item? (reached q rest ++ p) = some (.file other)) :
    t'.content other = t.content other := by
  refine h.others other fun heq => ?_
  have honly := h.only _ (Ground.reached_eq q rest p ▸ append_ne _ hp)
  rw [← Ground.reached_eq, hfile, heq] at honly
  exact honly rfl

theorem Ground.Fills.written (h : Ground.Fills s q rest t (reached q rest ++ names) number data t')
    (hp : p ≠ names) (hwritten : Written t (reached q rest ++ p) other data') :
    Written t' (reached q rest ++ p) other data' :=
  ⟨(h.item hp).trans hwritten.file, (h.same hp hwritten.file).trans hwritten.content⟩

theorem Ground.Fills.dataAt (h : Ground.Fills s q rest t (reached q rest ++ names) number data t')
    (hp : p ≠ names) : t'.dataAt (reached q rest ++ p) = t.dataAt (reached q rest ++ p) :=
  dataAt_congr (h.item hp) fun _ hfile => h.same hp hfile

/-- A turn that changes nothing. -/
theorem turned_same (h : Ground s q rest t) (hstage : Stage s (reached q rest) c t program')
    (hholds : program'.holds = false)
    (hended : program' = .done (.ok ()) → program = .done (.ok ())) :
    Turned s q rest c t t program program' where
  ground := h
  stage := hstage
  keeps _ _ _ _ hwritten := hwritten
  holds hholds' := absurd (hholds.symm.trans hholds') Bool.false_ne_true
  shown := .inr ⟨hended, fun _ _ => rfl⟩

/-- A turn that makes a directory. -/
theorem turned_plant (h : Ground s q rest t) (hparent : t.item? (q ++ p) = some .dir)
    (hnone : t.item? (q ++ (p ++ [name])) = none)
    (hstage : Stage s (reached q rest) c (t.put (q ++ (p ++ [name])) .dir) program')
    (hholds : program'.holds = false)
    (hended : program' = .done (.ok ()) → program = .done (.ok ())) :
    Turned s q rest c t (t.put (q ++ (p ++ [name])) .dir) program program' where
  ground := h.plant hparent hnone
  stage := hstage
  keeps p' number data _ hwritten := by
    refine ⟨?_, hwritten.content⟩
    rw [item?_put (by simp), if_neg, hwritten.file]
    intro heq
    rw [heq] at hwritten
    exact absurd (hnone.symm.trans hwritten.file) (by simp)
  holds hholds' := absurd (hholds.symm.trans hholds') Bool.false_ne_true
  shown := by
    refine .inr ⟨hended, fun p' _ => ?_⟩
    have hdata := dataAt_ensured (t := t) (p := q ++ (p ++ [name])) (by simp)
    rw [ensured, if_pos hnone] at hdata
    exact hdata _

end Changes

/-! ## Turns -/

section Turns

variable {s : Store} {q : Path} {rest : List Name} {c : Save} {t : FileTree}
  {program : Program Unit}

theorem Prepares.holds {p : Path} (h : Prepares p program) :
    (program >>= fun _ => c.storing s).holds = false := by
  cases h with
  | done outcome => cases outcome <;> rfl
  | makeDir _ _ => rfl
  | isDir _ => rfl

/-- A save is not done before it has opened its temporary file. -/
theorem bind_storing_ne (program : Program Unit) :
    (program >>= fun _ => c.storing s) ≠ .done (.ok ()) := by
  cases program with
  | step action next => exact nofun
  | done outcome => cases outcome <;> exact nofun

theorem Early.stage (h : Early s c program) (home : Path) (t : FileTree) :
    Stage s home c t program := by
  cases h with
  | failed _ => exact .ended _
  | preparing hnamed hprepares => exact .preparing hnamed hprepares

theorem Early.ne (h : Early s c program) : program ≠ .done (.ok ()) := by
  cases h with
  | failed hfailed => exact fun hdone => hfailed (Program.done.inj hdone)
  | preparing _ _ => exact bind_storing_ne _

theorem Early.holds (h : Early s c program) : program.holds = false := by
  cases h with
  | failed _ => rfl
  | preparing _ hprepares => exact hprepares.holds

theorem Save.early (c : Save) (s : Store) : Early s c (c.program s) := by
  by_cases hnamed : c.Named
  · rw [hnamed.program_eq]
    exact .preparing hnamed (prepares_makeDirs s c.dir)
  · obtain ⟨cause, hrefused⟩ := c.program_of_not_named hnamed
    rw [hrefused]
    exact .failed nofun

theorem Save.program_ne (c : Save) (s : Store) : c.program s ≠ .done (.ok ()) := (c.early s).ne

theorem filling_ne (number offset : Nat) (pieces : List Bytes) :
    c.filling s number offset pieces ≠ .done (.ok ()) := by
  cases pieces <;> exact nofun

/-- The temporary file is opened, or the save fails. -/
theorem turn_storing (h : Ground s q rest t) (hnamed : c.Named) :
    Turned s q rest c t ((c.storing s).runSteps 1 t).1 (c.storing s)
      ((c.storing s).runSteps 1 t).2 := by
  show Turned s q rest c t (t.openEmptied (s.path c.temporary)).1 _
    (orFail (s.failure c.temporary) (t.openEmptied (s.path c.temporary)).2 >>= fun number =>
      c.filling s number 0 c.pieces)
  rcases h.openEmptied hnamed.dotless_temporary (by simp [Save.temporary]) with
    ⟨cause, hfails⟩ | ⟨t', number, hopens, hfills⟩
  · rw [hfails]
    exact turned_same h (.ended _) rfl (by rintro ⟨⟩)
  · rw [hopens]
    exact {
      ground := hfills.ground
      stage := by
        refine .writing hnamed ⟨?_, hfills.content⟩ (List.nil_append _)
        rw [hfills.items, if_pos rfl]
      keeps := fun p other data happart hwritten => by
        rcases happart with ⟨hquiet, -⟩ | ⟨hne, -⟩
        · exact absurd hquiet.symm Bool.false_ne_true
        · exact hfills.written hne hwritten
      holds := fun _ => .inl rfl
      shown := .inr ⟨fun hended => absurd hended (filling_ne _ _ _),
        fun p hne => hfills.dataAt hne⟩ }

/-- A piece is written to the temporary file. -/
theorem turn_filling {number : Nat} {written piece : Bytes} {more : List Bytes}
    (h : Ground s q rest t) (hnamed : c.Named)
    (hwritten : Written t (reached q rest ++ c.temporary) number written)
    (hdata : written ++ (piece :: more).flatten = c.data) :
    Turned s q rest c t ((c.filling s number written.length (piece :: more)).runSteps 1 t).1
      (c.filling s number written.length (piece :: more))
      ((c.filling s number written.length (piece :: more)).runSteps 1 t).2 := by
  show Turned s q rest c t (t.writeAt number written.length piece) _
    (c.filling s number (written.length + piece.length) more)
  -- the offset is the length of what was written, so the piece goes to the end
  obtain ⟨hfile, rfl⟩ := hwritten
  rw [FileTree.writeAt_end, ← List.length_append]
  have hfills := h.fills_filled (Ground.reached_eq q rest c.temporary ▸ hfile)
    (t.content number ++ piece)
  rw [← Ground.reached_eq] at hfills
  rw [List.flatten_cons, ← List.append_assoc] at hdata
  exact {
    ground := hfills.ground
    stage := .writing hnamed ⟨hfile, hfills.content⟩ hdata
    keeps := fun p other data happart hwritten => by
      rcases happart with ⟨-, hquiet⟩ | ⟨hne, -⟩
      · exact absurd hquiet.symm Bool.false_ne_true
      · exact hfills.written hne hwritten
    holds := fun _ => .inr rfl
    shown := .inr ⟨fun hended => absurd hended (filling_ne _ _ _), fun p hne => hfills.dataAt hne⟩ }

/-- The temporary file becomes the record, or the save fails. -/
theorem turn_placing {number : Nat} (h : Ground s q rest t) (hnamed : c.Named)
    (hwritten : Written t (reached q rest ++ c.temporary) number c.data) :
    Turned s q rest c t ((c.placing s).runSteps 1 t).1 (c.placing s)
      ((c.placing s).runSteps 1 t).2 := by
  show Turned s q rest c t (t.rename (s.path c.temporary) (s.path c.record)).1 _
    (orFail (s.failure c.record) (t.rename (s.path c.temporary) (s.path c.record)).2)
  -- the file moves, so it has to have two names
  have hdiff : Text.utf8 (temporaryName c.name) ≠ Text.utf8 c.name := fun heq =>
    temporaryName_ne hnamed.1 (Text.utf8_injective heq)
  have hrename := h.rename hnamed.dotless_temporary hnamed.dotless_record hdiff hwritten.file
  rw [← Save.temporary, ← Save.record] at hrename
  rcases hrename with ⟨cause, hfails⟩ | ⟨t', hrenames, hmoves, hshort⟩
  · rw [hfails]
    exact turned_same h (.ended _) rfl nofun
  · have hitems {p : List Name} (hne : p ≠ c.temporary) (hne' : p ≠ c.record) :
        t'.item? (reached q rest ++ p) = t.item? (reached q rest ++ p) := by
      rw [hmoves.items, if_neg (append_ne _ hne'), if_neg (append_ne _ hne)]
    have hcontent (other : Nat) : t'.content other = t.content other := by
      rw [content, content, hmoves.contents]
    have hplaced : Placed rest (reached q rest) c t t' (c.placing s) (.done (.ok ())) := by
      refine ⟨by rintro ⟨⟩, rfl, hshort, fun p hne => ?_⟩
      split
      · rename_i hrecord
        have hnew : t'.item? (reached q rest ++ p) = some (.file number) := by
          rw [hmoves.items, hrecord, if_pos rfl]
        rw [dataAt_file hnew, hcontent, hwritten.content]
      · rename_i hother
        exact dataAt_congr (hitems hne hother) fun _ _ => hcontent _
    rw [hrenames]
    exact {
      ground := hmoves.ground
      stage := .ended _
      keeps := fun p other data happart hwritten => by
        rcases happart with ⟨-, hquiet⟩ | ⟨hne, hne'⟩
        · exact absurd hquiet.symm Bool.false_ne_true
        · exact ⟨(hitems hne hne').trans hwritten.file, (hcontent _).trans hwritten.content⟩
      holds := fun hholds => absurd hholds Bool.false_ne_true
      shown := .inl hplaced }

/-- Every turn of a save goes on to its next stage. -/
theorem Stage.turn (h : Ground s q rest t) (hstage : Stage s (reached q rest) c t program) :
    Turned s q rest c t (program.runSteps 1 t).1 program (program.runSteps 1 t).2 := by
  -- each stage has its own next step; only the last one of a save shows
  cases hstage with
  | ended outcome => exact turned_same h (.ended outcome) rfl id
  | @preparing program hnamed hprepares =>
    cases hprepares with
    | done outcome =>
      cases outcome with
      | ok value => exact turn_storing h hnamed
      | error cause => exact turned_same h (.ended _) rfl nofun
      | fault cause => exact turned_same h (.ended _) rfl nofun
    | @makeDir x next hx hnext =>
      show Turned s q rest c t (t.makeDir x).1 _
        (next (t.makeDir x).2 >>= fun _ => c.storing s)
      have hended : (next (t.makeDir x).2 >>= fun _ => c.storing s) = .done (.ok ()) →
          (Program.step (.makeDir x) next >>= fun _ => c.storing s) = .done (.ok ()) :=
        fun heq => absurd heq (bind_storing_ne _)
      rcases h.makeDir hnamed.dotless hx with hsame | ⟨p, name, hparent, hnone, hmade⟩
      · rw [hsame]
        exact turned_same h (.preparing hnamed (hnext _)) (hnext _).holds hended
      · rw [hmade]
        exact turned_plant h hparent hnone (.preparing hnamed (hnext _)) (hnext _).holds hended
    | @isDir x next hnext =>
      exact turned_same h (.preparing hnamed (hnext _)) (hnext _).holds
        fun heq => absurd heq (bind_storing_ne _)
  | @writing number written pieces hnamed hwritten hdata =>
    cases pieces with
    | nil =>
      rw [List.flatten_nil, List.append_nil] at hdata
      exact turn_placing h hnamed (hdata ▸ hwritten)
    | cons piece more => exact turn_filling h hnamed hwritten hdata

theorem stage_start (s : Store) (home : Path) (c : Save) (t : FileTree) :
    Stage s home c t (c.program s) := (c.early s).stage home t

end Turns

end ChainWatch.Storage
