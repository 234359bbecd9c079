import ChainWatch.Proofs.Storage.Steps

/-!
# Reading all records

A store reads every live record once and nothing else: a file that a save has left half written is
no record.
-/

namespace ChainWatch.Storage

open FileTree Program

variable {s : Store} {base t : FileTree} {q : Path} {directory : String}

/-- The content of a file of the store can be read. -/
theorem Housed.read (h : Housed s base q t) {area : Area} {file : Name} {number : Nat}
    (hitem : t.item? (q ++ spot area directory file) = some (.file number)) :
    t.read (s.path (spot area directory file)) = .ok (t.content number) := by
  have hplain := (h.belongs _ _ (by simp) hitem).plain
  rw [FileTree.read, follow, h.spot_found hplain hitem]

/-- The records of one directory. -/
theorem Housed.run_readFiles (h : Housed s base q t) (entries : List (Name × Bool))
    (hnodup : (entries.map Prod.fst).Nodup)
    (hfiles : ∀ entry ∈ entries, ∃ number,
      t.item? (q ++ spot .current directory entry.1) = some (.file number)) :
    ∃ records, (s.readFiles directory entries).run t = (t, .ok records) ∧ records.Nodup ∧
      ∀ record : Record, record ∈ records ↔
        record.directory = directory ∧ Text.utf8 record.name ∈ entries.map Prod.fst ∧
          isTemporary record.name = false ∧
          t.dataAt (q ++ spot .current directory (Text.utf8 record.name))
            = some record.content := by
  induction entries with
  | nil => exact ⟨[], rfl, List.nodup_nil, by simp⟩
  | cons entry rest ih =>
    obtain ⟨file, isDir⟩ := entry
    obtain ⟨hfresh, hrest⟩ := List.nodup_cons.mp hnodup
    obtain ⟨records, hrun, hrecords, hmem⟩ :=
      ih hrest fun entry hentry => hfiles entry (List.mem_cons_of_mem _ hentry)
    obtain ⟨number, hitem⟩ : ∃ number,
        t.item? (q ++ spot .current directory file) = some (.file number) :=
      hfiles _ List.mem_cons_self
    have hread := h.read hitem
    have hdata := dataAt_file hitem
    obtain ⟨-, -, hgiven⟩ := (h.belongs _ _ (by simp) hitem).at_spot
    cases hgiven with
    | @record _ name _ hname =>
      refine ⟨⟨directory, name, t.content number⟩ :: records, ?_, ?_, ?_⟩
      · rw [Store.readFiles, Text.utf8?_utf8]
        dsimp only
        rw [isTemporary_of_acceptable hname, if_neg (by simp), run_act_bind, Action.perform, hread,
          run_bind_of_ok (run_orFail_ok _ _ _), run_bind_of_ok hrun, run_pure]
      · refine List.nodup_cons.mpr ⟨fun hrecord => ?_, hrecords⟩
        exact hfresh ((hmem _).mp hrecord).2.1
      · intro record
        rw [List.mem_cons, hmem, List.map_cons, List.mem_cons]
        constructor
        · rintro (rfl | ⟨hdir, hlisted, hkeep, hcontent⟩)
          · exact ⟨rfl, .inl rfl, isTemporary_of_acceptable hname, hdata⟩
          · exact ⟨hdir, .inr hlisted, hkeep, hcontent⟩
        · rintro ⟨hdir, hfile | hlisted, hkeep, hcontent⟩
          · have hsame := Text.utf8_injective hfile
            rw [hsame, hdata] at hcontent
            refine .inl ?_
            rw [← hdir, ← hsame, Option.some.inj hcontent]
          · exact .inr ⟨hdir, hlisted, hkeep, hcontent⟩
    | @temporary _ name _ _ =>
      -- what a save has left half written is passed over
      refine ⟨records, ?_, hrecords, ?_⟩
      · rw [Store.readFiles, Text.utf8?_utf8]
        dsimp only
        rw [isTemporary_temporaryName, if_pos rfl, hrun]
      · intro record
        rw [hmem, List.map_cons, List.mem_cons]
        constructor
        · rintro ⟨hdir, hlisted, hkeep, hcontent⟩
          exact ⟨hdir, .inr hlisted, hkeep, hcontent⟩
        · rintro ⟨hdir, hfile | hlisted, hkeep, hcontent⟩
          · rw [Text.utf8_injective hfile, isTemporary_temporaryName] at hkeep
            exact absurd hkeep (by simp)
          · exact ⟨hdir, hlisted, hkeep, hcontent⟩

/-- The records of several directories. -/
theorem Housed.run_readDirs (h : Housed s base q t) (entries : List (Name × Bool))
    (hnodup : (entries.map Prod.fst).Nodup)
    (hdirs : ∀ entry ∈ entries, ∃ directory, entry = (Text.utf8 directory, true) ∧
      t.item? (q ++ [Area.current.name, Text.utf8 directory]) = some .dir) :
    ∃ records, (s.readDirs entries).run t = (t, .ok records) ∧ records.Nodup ∧
      ∀ record : Record, record ∈ records ↔
        Text.utf8 record.directory ∈ entries.map Prod.fst ∧ isTemporary record.name = false ∧
          t.dataAt (q ++ spot .current record.directory (Text.utf8 record.name))
            = some record.content := by
  induction entries with
  | nil => exact ⟨[], rfl, List.nodup_nil, by simp⟩
  | cons entry rest ih =>
    obtain ⟨hfresh, hrest⟩ := List.nodup_cons.mp hnodup
    obtain ⟨others, hothers, hnodupOthers, hmemOthers⟩ :=
      ih hrest fun entry hentry => hdirs entry (List.mem_cons_of_mem _ hentry)
    obtain ⟨directory, rfl, hdir⟩ := hdirs entry List.mem_cons_self
    have hplain := (h.belongs _ _ (by simp) hdir).plain
    obtain ⟨files, hlist, hnodupFiles, hfiles⟩ := h.list (p := [Area.current.name]) hplain hdir
    have hstands : ∀ entry ∈ files, ∃ number,
        t.item? (q ++ spot .current directory entry.1) = some (.file number) := by
      intro entry hentry
      obtain ⟨item, hitem, -⟩ := (hfiles entry.1 entry.2).mp hentry
      obtain ⟨⟨number, rfl⟩, -⟩ := (h.belongs _ _ (by simp) hitem).at_spot
      exact ⟨number, hitem⟩
    obtain ⟨records, hrun, hrecords, hmem⟩ := h.run_readFiles files hnodupFiles hstands
    refine ⟨records ++ others, ?_, ?_, ?_⟩
    · rw [Store.readDirs, Text.utf8?_utf8]
      dsimp only
      rw [if_pos rfl, run_act_bind, Action.perform]
      simp only [List.cons_append, List.nil_append] at hlist
      rw [hlist, run_bind_of_ok (run_orFail_ok _ _ _), run_bind_of_ok hrun, run_bind_of_ok hothers,
        run_pure]
    · -- a record that came twice would be of two directories
      refine List.nodup_append.mpr ⟨hrecords, hnodupOthers, ?_⟩
      rintro record hrecord _ hother rfl
      have hlisted := ((hmemOthers record).mp hother).1
      rw [((hmem record).mp hrecord).1] at hlisted
      exact hfresh hlisted
    · intro record
      rw [List.mem_append, hmem, hmemOthers, List.map_cons, List.mem_cons]
      constructor
      · rintro (⟨rfl, -, hkeep, hcontent⟩ | ⟨hlisted, hkeep, hcontent⟩)
        · exact ⟨.inl rfl, hkeep, hcontent⟩
        · exact ⟨.inr hlisted, hkeep, hcontent⟩
      · rintro ⟨hsame | hlisted, hkeep, hcontent⟩
        · have hdirectory := Text.utf8_injective hsame
          rw [hdirectory] at hcontent
          have hlisted : Text.utf8 record.name ∈ files.map Prod.fst := by
            rcases h.spot_cases .current directory (Text.utf8 record.name) with
              hnone | ⟨number, hitem, -⟩
            · rw [dataAt_none hnone] at hcontent
              exact absurd hcontent (by simp)
            · exact List.mem_map_of_mem ((hfiles _ false).mpr ⟨_, hitem, rfl⟩)
          exact .inl ⟨hdirectory, hlisted, hkeep, hcontent⟩
        · exact .inr ⟨hlisted, hkeep, hcontent⟩

theorem run_readAll_of_absent (hlist : t.list (s.path [Area.current.name]) = .error .noEntry) :
    s.readAll.run t = (t, .ok []) := by
  rw [Store.readAll, run_act_bind, Action.perform, hlist]
  rfl

/-- Reading changes nothing, and every live record is read once. -/
theorem Housed.run_readAll (h : Housed s base q t) :
    ∃ records, s.readAll.run t = (t, .ok records) ∧ records.Nodup ∧
      ∀ record : Record, record ∈ records ↔ isTemporary record.name = false ∧
        t.dataAt (q ++ spot .current record.directory (Text.utf8 record.name))
          = some record.content := by
  have hplain : ∀ name ∈ [] ++ [Area.current.name], Plain name := by simpa using Area.plain .current
  by_cases harea : t.item? (q ++ [Area.current.name]) = none
  · have hmissing : t.follow (s.path ([] ++ [Area.current.name])) = .missing (q ++ []) _ :=
      h.missing hplain (by simpa using h.dir) harea
    have hlist : t.list (s.path [Area.current.name]) = .error .noEntry := by
      rw [List.nil_append] at hmissing
      rw [FileTree.list, hmissing]
    refine ⟨[], run_readAll_of_absent hlist, List.nodup_nil, fun record => ?_⟩
    have hnone : t.dataAt (q ++ spot .current record.directory (Text.utf8 record.name)) = none :=
      dataAt_none (h.rooted.closed.none_below (p := [Area.current.name]) (by simp [harea])
        (List.cons_ne_nil _ _))
    simp [hnone]
  · have hdir := h.isDir_of_shallow (p := [Area.current.name]) (by simp) (by simp) harea
    obtain ⟨entries, hlist, hnodup, hentries⟩ := h.list (p := []) hplain hdir
    have hdirs : ∀ entry ∈ entries, ∃ directory, entry = (Text.utf8 directory, true) ∧
        t.item? (q ++ [Area.current.name, Text.utf8 directory]) = some .dir := by
      rintro ⟨name, isDir⟩ hentry
      obtain ⟨item, hitem, rfl⟩ := (hentries name isDir).mp hentry
      obtain ⟨rfl, directory, -, rfl⟩ := (h.belongs _ _ (by simp) hitem).at_directory
      exact ⟨directory, rfl, hitem⟩
    obtain ⟨records, hrun, hrecords, hmem⟩ := h.run_readDirs entries hnodup hdirs
    refine ⟨records, ?_, hrecords, fun record => ?_⟩
    · rw [List.nil_append] at hlist
      rw [Store.readAll, run_act_bind, Action.perform, hlist]
      exact hrun
    · rw [hmem, and_iff_right_of_imp]
      rintro ⟨-, hcontent⟩
      rcases h.spot_cases .current record.directory (Text.utf8 record.name) with
        hnone | ⟨number, hitem, -⟩
      · rw [dataAt_none hnone] at hcontent
        exact absurd hcontent (by simp)
      · refine List.mem_map_of_mem ((hentries _ true).mpr ⟨.dir, ?_, rfl⟩)
        exact h.rooted.closed [Area.current.name, Text.utf8 record.directory] _
          (hitem ▸ Option.some_ne_none _)

end ChainWatch.Storage
