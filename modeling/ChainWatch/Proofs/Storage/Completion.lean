import ChainWatch.Proofs.Storage.Reachable

/-!
# When a save ends well

A save that nothing disturbs ends well exactly when its names are acceptable and the system takes the
longest name that the store makes of them, which is that of the temporary file
(`Standing.run_save_ok_iff`). It does not matter what was done in the store before, nor what
interrupted calls have left there.
-/

namespace ChainWatch.Storage

open FileTree Program

/-- The names of a save are acceptable, and the system takes all that the store makes of them. -/
structure Save.Storable (c : Save) : Prop where
  named : c.Named
  short : ∀ name ∈ c.temporary, name.length ≤ longestName

section

variable {s : Store} {base t : FileTree} {q : Path} {c : Save} {directory : String}

theorem Save.Storable.plain (h : c.Storable) : ∀ name ∈ c.temporary, Plain name := by
  intro name hname
  obtain ⟨hhere, hup⟩ := h.named.dotless_temporary name hname
  exact ⟨hhere, hup, h.short name hname⟩

/-- The name of a record is shorter than that of its temporary file. -/
theorem Save.Storable.plain_record (h : c.Storable) : ∀ name ∈ c.record, Plain name := by
  intro name hname
  rcases List.mem_append.mp hname with hdir | hfile
  · exact h.plain name (List.mem_append_left _ hdir)
  · rw [List.mem_singleton.mp hfile]
    have hlength := length_temporaryName c.name
    have hshort := h.short _ (List.mem_append_right _ List.mem_cons_self)
    exact plain_of_head (acceptable_head h.named.1) (by omega)

/-! ## Names that fit -/

/-- A directory is made in an area of the store, if it is not there yet. -/
theorem Housed.run_makeDirs_directory (h : Housed s base q t) (area : Area)
    (hd : acceptable directory = true) (hplain : Plain (Text.utf8 directory)) :
    ∃ made, (s.makeDirs [area.name, Text.utf8 directory]).run t = (made, .ok ()) ∧
      Housed s base q made ∧ made.item? (q ++ [area.name, Text.utf8 directory]) = some .dir := by
  have hrun := h.run_makeDirs _ (area.plain_directory hplain) (by simp)
  have hwithin := (prepares_makeDirs s [area.name, Text.utf8 directory]).within hd (List.prefix_refl _)
  have hmade := hwithin.run (Housed.keeps s base q) h
  have hclear : t.Clear q [area.name, Text.utf8 directory] := h.clear (by simp)
  have hdir := isDir_planted hclear h.dir
  have hreached : reached q ([] ++ [area.name, Text.utf8 directory])
      = reached q [] ++ [area.name, Text.utf8 directory] :=
    Ground.reached_dotless (dotless_directory area hd) q
  rw [List.nil_append, reached_nil] at hreached
  rw [hreached] at hdir
  rw [hrun] at hmade
  exact ⟨_, hrun, hmade, hdir⟩

theorem Standing.run_makeDirs_directory (h : Standing s t) (area : Area)
    (hd : acceptable directory = true) (hplain : Plain (Text.utf8 directory)) :
    ∃ base q made, (s.makeDirs [area.name, Text.utf8 directory]).run t = (made, .ok ()) ∧
      Housed s base q made ∧ made.item? (q ++ [area.name, Text.utf8 directory]) = some .dir := by
  cases h with
  | @housed base q hhoused => exact ⟨base, q, hhoused.run_makeDirs_directory area hd hplain⟩
  | missing hproper hmissing =>
    -- the directory is made as in the tree in which the data directory is there
    obtain ⟨base, q, hhome, hkeyed, hmake⟩ := hmissing.home hproper
    have hhoused := hhome.housed hkeyed
    have hplains := area.plain_directory hplain
    obtain ⟨made, hrun, hmade⟩ := hhoused.run_makeDirs_directory area hd hplain
    refine ⟨base, q, made, ?_, hmade⟩
    rw [← hrun, hmake _ hplains, hhoused.run_makeDirs _ hplains (by simp)]

/-- With its directory there, the temporary file of a save can be opened, and it is empty then. -/
theorem Housed.open_temporary (h : Housed s base q t) (hstorable : c.Storable)
    (hdir : t.item? (q ++ c.dir) = some .dir) :
    ∃ opened number, t.openEmptied (s.path c.temporary) = (opened, .ok number) ∧
      Housed s base q opened ∧ opened.item? (q ++ c.temporary) = some (.file number) ∧
      opened.content number = [] ∧ opened.item? (q ++ c.dir) = some .dir := by
  have hfile : Given .current (Text.utf8 (temporaryName c.name)) :=
    .temporary (by decide) hstorable.named.1
  have hhoused := h.openEmptied hstorable.named.2 hfile
  rcases h.openEmptied_cases hstorable.plain hdir with ⟨hnone, hopen⟩ | ⟨number, hfile, hopen⟩
  · rw [hopen] at hhoused
    refine ⟨_, _, hopen, hhoused, ?_, ?_, ?_⟩
    · exact (item?_addFile (by simp) _).trans (if_pos rfl)
    · simp [FileTree.addFile, content]
    · rw [item?_addFile (by simp), if_neg (by simp [Save.dir]), hdir]
  · rw [hopen] at hhoused
    refine ⟨_, _, hopen, hhoused, hfile, ?_, hdir⟩
    rw [content_filled (h.rooted.held _ _ hfile), if_pos rfl]

/-- With its directory there, a save writes its temporary file and gives it its place. -/
theorem Housed.run_storing (h : Housed s base q t) (hstorable : c.Storable)
    (hdir : t.item? (q ++ c.dir) = some .dir) : ((c.storing s).run t).2 = .ok () := by
  obtain ⟨opened, number, hopen, hhoused, hfile, hempty, hdir⟩ := h.open_temporary hstorable hdir
  have hwrite := Store.run_writePieces c.pieces (hhoused.rooted.held _ _ hfile)
  rw [hempty, List.length_nil, List.nil_append] at hwrite
  have hne : c.temporary ≠ c.record := fun heq => hstorable.named.record_ne_temporary c heq.symm
  have hrename : ((opened.filled number c.pieces.flatten).rename (s.path c.temporary)
      (s.path c.record)).2 = .ok () :=
    congrArg Prod.snd ((hhoused.filled number c.pieces.flatten).rename_file hstorable.plain
      hstorable.plain_record hfile hdir hne)
  rw [Save.storing, run_act_bind, Action.perform, hopen, run_bind_of_ok (run_orFail_ok _ _ _),
    Save.filling, run_bind_of_ok hwrite, Save.placing, run_act_bind, Action.perform, hrename,
    run_orFail_ok]

/-! ## Names that do not fit -/

/-- A save whose names are refused never ends well. -/
theorem Save.named_of_course {t' : FileTree} (h : (c.program s).Course t (.done (.ok ())) t') :
    c.Named := by
  by_cases hnamed : c.Named
  · exact hnamed
  · obtain ⟨cause, hrefused⟩ := c.program_of_not_named hnamed
    rw [hrefused] at h
    exact absurd h.of_done.1 (by simp)

/-- The temporary file can be opened only if the system takes its name. -/
theorem Standing.short_of_open (h : Standing s t) (hnamed : c.Named) {number : Nat}
    (hopen : (t.openEmptied (s.path c.temporary)).2 = .ok number) :
    ∀ name ∈ c.temporary, name.length ≤ longestName := by
  rw [FileTree.openEmptied, follow] at hopen
  cases h with
  | missing hproper hmissing =>
    rw [hmissing.locate true (by simp [Save.temporary])] at hopen
    exact absurd hopen (by simp)
  | housed hhoused =>
    have hplain := hhoused.plain_of_arrives hnamed.dotless_temporary true
    cases hlocated : t.locate true mostLinks [] (s.path c.temporary) with
    | failed cause =>
      rw [hlocated] at hopen
      exact absurd hopen (by simp)
    | found _ _ =>
      rw [hlocated] at hplain
      exact fun name hname => (hplain rfl name hname).short
    | missing _ _ =>
      rw [hlocated] at hplain
      exact fun name hname => (hplain rfl name hname).short

/-- A save ends well exactly when the system takes all of its names. -/
theorem Standing.run_save_ok_iff (h : Standing s t) :
    ((c.program s).run t).2 = .ok () ↔ c.Storable := by
  constructor
  · -- a save that has ended well has opened its temporary file
    intro hok
    have hcourse := course_run (c.program s) t
    rw [hok] at hcourse
    have hnamed := Save.named_of_course hcourse
    rw [hnamed.program_eq] at hok
    obtain ⟨-, -, hstored⟩ := exists_of_run_bind_ok hok
    have hwithin := (prepares_makeDirs s c.dir).within hnamed.2 (List.prefix_refl _)
    have hmade := hwithin.run (Standing.keeps s) h
    rw [Save.storing, run_act_bind, Action.perform] at hstored
    obtain ⟨number, hopen, -⟩ := exists_of_run_bind_ok hstored
    exact ⟨hnamed, hmade.short_of_open hnamed (eq_ok_of_run_orFail_ok hopen)⟩
  · intro hstorable
    obtain ⟨base, q, made, hrun, hmade, hdir⟩ :=
      h.run_makeDirs_directory .current hstorable.named.2
        (hstorable.plain _ (by simp [Save.temporary, Save.dir]))
    have hmake : (s.makeDirs c.dir).run t = (made, .ok ()) := hrun
    rw [hstorable.named.program_eq, run_bind_of_ok hmake]
    exact hmade.run_storing hstorable hdir

end

end ChainWatch.Storage
