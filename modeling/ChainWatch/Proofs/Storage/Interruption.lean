import ChainWatch.Proofs.Storage.Completion
import ChainWatch.Proofs.Storage.Undisturbed

/-!
# Saves that are interrupted

A save may stop anywhere, and the system may refuse any of its steps. Whatever the store has been
through before, all records can be read afterwards: the record of the save has its new content if the
save ended well and what it had before if not, every other record is as it was, and a later save of
the record does what it would have done without the one that was interrupted. That is
`Store.Reached.interrupted`.
-/

namespace ChainWatch.Storage

open FileTree Program

/-- What an interrupted save leaves of a store: `records` were there before, and `left` is what the
save has not done. -/
structure Save.Leaves (c : Save) (s : Store) (records : String → String → Option Bytes)
    (t : FileTree) (left : Program Unit) (t' : FileTree) : Prop where
  placed : left = .done (.ok ()) →
    s.Reads t' (Reference.update records c.directory c.name (some c.data))
  hidden : left ≠ .done (.ok ()) → s.Reads t' records
  /-- A later save ends well if it would have done so instead. -/
  repeated : ∀ later : Save,
    ((later.program s).run t').2 = .ok () ↔ ((later.program s).run t).2 = .ok ()
  /-- A later save of the record leaves what it would have left instead. -/
  replaced : ∀ later : Save, later.directory = c.directory → later.name = c.name →
    ((later.program s).run t').2 = .ok () →
      s.Reads ((later.program s).run t').1
          (Reference.update records c.directory c.name (some later.data)) ∧
        s.Reads ((later.program s).run t).1
          (Reference.update records c.directory c.name (some later.data))

section

variable {s : Store} {base t t' : FileTree} {q : Path} {c later : Save}
  {program next left : Program Unit}

/-! ## While the data directory is missing -/

/-- No step of a save gets further than the data directory while that is missing. -/
theorem Early.advance (h : Early s c program) (hproper : t.Proper) (hmissing : s.Missing t)
    (hadvances : program.Advances t next t') :
    Early s c next ∧ t'.Proper ∧ (s.Missing t' ∨ ∃ q, Home s t' q) := by
  cases hadvances with
  | refused hrefuse => exact ⟨h.refuse hrefuse, hproper, .inl hmissing⟩
  | performed =>
    cases h with
    | failed hfailed => exact ⟨.failed hfailed, hproper, .inl hmissing⟩
    | preparing hnamed hprepares =>
      cases hprepares with
      | done outcome =>
        cases outcome with
        | ok value =>
          have hfails : (c.storing s).runSteps 1 t
              = (t, .done (.error (s.failure c.temporary .noEntry))) := by
            show ((t.openEmptied (s.path c.temporary)).1,
              orFail (s.failure c.temporary) (t.openEmptied (s.path c.temporary)).2 >>= _) = _
            rw [FileTree.openEmptied, follow, hmissing.locate true (by simp [Save.temporary])]
            rfl
          rw [show (Program.done (.ok value) >>= fun _ => c.storing s) = c.storing s from rfl, hfails]
          exact ⟨.failed (by simp), hproper, .inl hmissing⟩
        | error cause => exact ⟨.failed (by simp), hproper, .inl hmissing⟩
        | fault cause => exact ⟨.failed (by simp), hproper, .inl hmissing⟩
      | @makeDir x next hx hnext =>
        refine ⟨.preparing hnamed (hnext _), ?_⟩
        show (t.makeDir x).1.Proper ∧ (s.Missing (t.makeDir x).1 ∨ ∃ q, Home s (t.makeDir x).1 q)
        rcases hmissing.makeDir hproper hx with hstays | hmade
        · rw [hstays]
          exact ⟨hproper, .inl hmissing⟩
        · exact hmade
      | isDir hnext => exact ⟨.preparing hnamed (hnext _), hproper, .inl hmissing⟩

theorem Home.contentAt (hhome : Home s base q) (hkeyed : base.Keyed) {names : List Name}
    (hnames : Dotless names) (hne : names ≠ []) : s.contentAt base names = none := by
  refine (hhome.housed hkeyed).ground.contentAt_of_not_file hnames hne fun number => ?_
  rw [reached_nil]
  exact hhome.ne_file names number

theorem Early.course (h : Early s c program) (hproper : t.Proper) (hmissing : s.Missing t)
    (hcourse : program.Course t left t') : c.Shown s t t' left := by
  induction hcourse with
  | stop => exact ⟨fun hdone => absurd hdone h.ne, fun _ _ _ => rfl⟩
  | @step program next left t t' t'' hadvances hrest ih =>
    obtain ⟨hnext, hproper', hmissing' | ⟨q, hhome⟩⟩ := h.advance hproper hmissing hadvances
    · refine (ih hnext hproper' hmissing').congr fun names hvisible => ?_
      rw [hmissing.contentAt hvisible.nonempty, hmissing'.contentAt hvisible.nonempty]
    · -- the data directory is there now, and nothing is in it
      have hground := (hhome.housed hproper'.keyed).ground
      refine ((hnext.stage _ t').course hground hnext.ne hrest).2.congr fun names hvisible => ?_
      rw [hmissing.contentAt hvisible.nonempty,
        hhome.contentAt hproper'.keyed hvisible.dotless hvisible.nonempty]

/-! ## Wherever a save stops -/

theorem Standing.shown (h : Standing s t) (hcourse : (c.program s).Course t left t') :
    c.Shown s t t' left := by
  cases h with
  | missing hproper hmissing => exact (c.early s).course hproper hmissing hcourse
  | housed hhoused => exact (c.course hhoused.ground hcourse).2

theorem Standing.course (h : Standing s t) (hcourse : (c.program s).Course t left t') :
    Standing s t' :=
  ((within_save s c.pieces c.directory c.name).course (Standing.keeps s) h hcourse).2

/-- Readers may ask for every record. -/
theorem visible_record (c : Save) {directory name : String} (hd : acceptable directory = true)
    (hn : acceptable name = true) : Visible [c] (spot .current directory (Text.utf8 name)) := by
  have hnamed : Save.Named ⟨[], directory, name⟩ := ⟨hn, hd⟩
  refine ⟨hnamed.dotless_record, by simp, fun c' hc' => ?_⟩
  rw [List.mem_singleton.mp hc']
  exact hnamed.record_ne_temporary c

theorem Save.Shown.recordAt_of_done (h : c.Shown s t t' left) (hnamed : c.Named)
    (hdone : left = .done (.ok ())) :
    s.recordAt t' = Reference.update (s.recordAt t) c.directory c.name (some c.data) := by
  funext directory name
  by_cases hnames : acceptable directory = true ∧ acceptable name = true
  · have hcontent := h.placed hdone _ (visible_record c hnames.1 hnames.2)
    have hsame : spot .current directory (Text.utf8 name) = c.record
        ↔ directory = c.directory ∧ name = c.name := by
      constructor
      · intro heq
        obtain ⟨-, hd, hn⟩ := spot_inj.mp heq
        exact ⟨hd, Text.utf8_injective hn⟩
      · rintro ⟨rfl, rfl⟩
        rfl
    rw [Store.recordAt, if_pos hnames, hcontent, Reference.update, Store.recordAt, if_pos hnames]
    simp only [hsame]
  · have hother : ¬ (directory = c.directory ∧ name = c.name) := by
      rintro ⟨rfl, rfl⟩
      exact hnames ⟨hnamed.2, hnamed.1⟩
    rw [Store.recordAt, if_neg hnames, Reference.update, if_neg hother, Store.recordAt,
      if_neg hnames]

theorem Save.Shown.recordAt_of_not_done (h : c.Shown s t t' left)
    (hnot : left ≠ .done (.ok ())) : s.recordAt t' = s.recordAt t := by
  funext directory name
  rw [Store.recordAt, Store.recordAt]
  split
  · rename_i hnames
    exact h.hidden hnot _ (visible_record c hnames.1 hnames.2)
  · rfl

theorem update_update (records : String → String → Option Bytes) (directory name : String)
    (old new : Option Bytes) :
    Reference.update (Reference.update records directory name old) directory name new
      = Reference.update records directory name new := by
  funext d n
  simp only [Reference.update]
  split <;> rfl

/-- A save that ends well changes one record. -/
theorem Standing.reads_saved (h : Standing s t) (hok : ((c.program s).run t).2 = .ok ()) :
    s.Reads ((c.program s).run t).1
      (Reference.update (s.recordAt t) c.directory c.name (some c.data)) := by
  have hcourse := course_run (c.program s) t
  have hshown := h.shown hcourse
  rw [← hshown.recordAt_of_done ((h.run_save_ok_iff).mp hok).named (by rw [hok])]
  exact (h.course hcourse).reads

theorem Standing.leaves (h : Standing s t) (hcourse : (c.program s).Course t left t') :
    c.Leaves s (s.recordAt t) t left t' := by
  have hstanding := h.course hcourse
  have hshown := h.shown hcourse
  have hrecords (hdone : left = .done (.ok ())) :
      s.recordAt t' = Reference.update (s.recordAt t) c.directory c.name (some c.data) :=
    hshown.recordAt_of_done (Save.named_of_course (hdone ▸ hcourse)) hdone
  -- a later save of the record does the same, whether or not this one is in place
  have hforgotten (new : Bytes) :
      Reference.update (s.recordAt t') c.directory c.name (some new)
        = Reference.update (s.recordAt t) c.directory c.name (some new) := by
    by_cases hdone : left = .done (.ok ())
    · rw [hrecords hdone, update_update]
    · rw [hshown.recordAt_of_not_done hdone]
  refine ⟨fun hdone => ?_, fun hnot => ?_, fun later => ?_, fun later hd hn hok => ?_⟩
  · rw [← hrecords hdone]
    exact hstanding.reads
  · rw [← hshown.recordAt_of_not_done hnot]
    exact hstanding.reads
  · rw [hstanding.run_save_ok_iff, h.run_save_ok_iff]
  · have hok' : ((later.program s).run t).2 = .ok () :=
      h.run_save_ok_iff.mpr (hstanding.run_save_ok_iff.mp hok)
    have hafter := hstanding.reads_saved hok
    have hinstead := h.reads_saved hok'
    rw [hd, hn] at hafter hinstead
    rw [hforgotten] at hafter
    exact ⟨hafter, hinstead⟩

/-- Wherever a save of a reachable store is interrupted, its record has the old content or the new
one, the others are as they were, and a later save of the record does what it would have done
instead. -/
theorem Store.Reached.interrupted {calls : List (Program Answer)} (h : s.Reached t calls) :
    ∃ records, s.Reads t records ∧ ∀ (c : Save) (left : Program Unit) (t' : FileTree),
      (c.program s).Course t left t' → c.Leaves s records t left t' := by
  obtain ⟨hstanding, -⟩ := h.standing
  exact ⟨s.recordAt t, hstanding.reads, fun c left t' hcourse => hstanding.leaves hcourse⟩

end

/-- A store with one record. -/
def firstSaved : FileTree :=
  (((Call.save firstPage.pieces "books" "a").program dataStore).run .empty).1

/-- The record is saved again, and the save stops when all its data is written but not in place. -/
def secondUnderway : FileTree × Program Unit :=
  (secondPage.program dataStore).runSteps 4 firstSaved

/-- The first content stays until the save is made again. -/
theorem interrupted_before_placing :
    (∃ calls, dataStore.Reached firstSaved calls) ∧ ∃ records,
      dataStore.Reads firstSaved records ∧ dataStore.Reads secondUnderway.1 records ∧
        dataStore.Reads ((secondPage.program dataStore).run secondUnderway.1).1
          (Reference.update records "books" "a" (some [66])) := by
  have hempty : dataStore.Reached .empty [] := .start proper_empty (.inr missing_dataStore)
  have hreached := (hempty.call (.save firstPage.pieces "books" "a")).course (i := 0) rfl
    (course_run _ _)
  obtain ⟨records, hreads, hsaves⟩ := Store.Reached.interrupted hreached
  have hleaves := hsaves secondPage _ _ (course_runSteps _ firstSaved 4)
  have hnot : secondUnderway.2 ≠ .done (.ok ()) := by
    intro hdone
    have hholds : secondUnderway.2.holds = true := by cbv
    rw [hdone] at hholds
    exact Bool.false_ne_true hholds
  have hagain : ((secondPage.program dataStore).run secondUnderway.1).2 = .ok () := by cbv
  exact ⟨⟨_, hreached⟩, records, hreads, hleaves.hidden hnot,
    (hleaves.replaced secondPage rfl rfl hagain).1⟩

end ChainWatch.Storage
