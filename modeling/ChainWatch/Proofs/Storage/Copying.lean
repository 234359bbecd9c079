import ChainWatch.Proofs.Storage.Interruption

/-!
# When a copy is made

A snapshot tries the suffixes from its clock on until one is free. A try tells a copy that is there
already from a name that is too long, so the first free suffix is the one that counts: a snapshot
that nothing disturbs ends well exactly when the system takes the name with that suffix
(`Standing.run_snapshot_ok_iff`).
-/

namespace ChainWatch.Storage

open FileTree Program

/-- The file of a copy below the data directory. -/
abbrev copySpot (directory name : String) (suffix : Int) : Path :=
  spot .snapshot directory (Text.utf8 (snapshotName name suffix))

/-- What a reader finds of the copies of a record, by suffix. -/
def Store.copyAt (s : Store) (t : FileTree) (directory name : String) (suffix : Int) :
    Option Bytes := s.contentAt t (copySpot directory name suffix)

namespace FileTree

variable {t : FileTree} {followLast : Bool} {links : Nat} {here : Path} {name : Name}
  {names rest : List Name}

theorem locate_long (hlong : longestName < name.length) :
    t.locate followLast links here (name :: rest) = .failed .nameTooLong := by
  have hdot : name ≠ [46] := by
    rintro rfl
    exact absurd hlong (by decide)
  have hdots : name ≠ [46, 46] := by
    rintro rfl
    exact absurd hlong (by decide)
  rw [locate, if_neg hdot, if_neg hdots, if_pos hlong]

/-- No way is stopped because something is there. -/
theorem locate_ne_alreadyExists (followLast : Bool) (links : Nat) (here : Path)
    (names : List Name) :
    t.locate followLast links here names ≠ .failed .alreadyExists := by
  fun_induction t.locate followLast links here names with
  | case2 _ _ _ ih => exact ih
  | case4 _ _ _ _ _ ih => exact ih
  | case8 _ _ _ _ _ _ _ _ ih => exact ih
  | case14 _ _ _ _ _ _ _ _ _ _ _ _ ih => exact ih
  | _ => simp [OsError.noEntry, OsError.nameTooLong, OsError.notDirectory, OsError.tooManyLinks,
      OsError.alreadyExists]

end FileTree

section

variable {s : Store} {base t : FileTree} {q : Path} {area : Area} {directory name : String}
  {names : List Name} {pieces : List Bytes} {copies : Int → Option Bytes} {clock free suffix : Int}

/-! ## The first free suffix -/

theorem FirstFree.eq_clock (h : FirstFree copies clock free) (hunused : copies clock = none) :
    free = clock := by
  have hclock := h.from_clock
  by_contra hne
  exact h.used clock (Int.le_refl _) (by omega) hunused

theorem FirstFree.next (h : FirstFree copies clock free) (hused : copies clock ≠ none) :
    FirstFree copies (clock + 1) free := by
  have hclock := h.from_clock
  refine ⟨?_, h.unused, fun k hk hk' => h.used k (by omega) hk'⟩
  by_contra hlate
  have hsame : free = clock := by omega
  exact hused (hsame ▸ h.unused)

/-! ## Contents and directories -/

/-- Below the data directory of a store a reader finds what stands in a place. -/
theorem Housed.contentAt_eq (h : Housed s base q t) (hnames : Dotless names) (hne : names ≠ []) :
    s.contentAt t names = t.dataAt (q ++ names) := by
  rw [h.ground.contentAt_eq hnames hne, reached_nil, List.nil_append]
  split
  · rfl
  · -- what stands there has names that the system takes
    rename_i hlong
    cases hitem : t.item? (q ++ names) with
    | none => rw [dataAt_none hitem]
    | some item =>
      have hplain := (h.belongs _ _ hne hitem).plain
      exact absurd (fun name hname => (hplain name hname).short) hlong

/-- A directory that is made on the way to one of the store's is no file. -/
theorem Housed.dataAt_makeDir (h : Housed s base q t) (hd : acceptable directory = true) {x : Path}
    (hx : x <+: s.path [area.name, Text.utf8 directory]) (p : Path) :
    (t.makeDir x).1.dataAt p = t.dataAt p := by
  rcases h.ground.makeDir (dotless_directory area hd) hx with hsame | ⟨init, name, -, hnone, hmade⟩
  · rw [hsame]
  · have hdata := dataAt_ensured (t := t) (p := q ++ (init ++ [name])) (by simp)
    rw [ensured, if_pos hnone] at hdata
    rw [hmade, hdata]

theorem Standing.contentAt_makeDir (h : Standing s t) (hd : acceptable directory = true)
    {x : Path} (hx : x <+: s.path [area.name, Text.utf8 directory]) (hnames : Dotless names)
    (hne : names ≠ []) : s.contentAt (t.makeDir x).1 names = s.contentAt t names := by
  cases h with
  | missing hproper hmissing =>
    rw [hmissing.contentAt hne]
    rcases hmissing.makeDir hproper hx with hsame | ⟨hproper', hmissing' | ⟨q, hhome⟩⟩
    · rw [hsame, hmissing.contentAt hne]
    · rw [hmissing'.contentAt hne]
    · rw [hhome.contentAt hproper'.keyed hnames hne]
  | housed hhoused =>
    rw [(hhoused.makeDir hd hx).contentAt_eq hnames hne, hhoused.contentAt_eq hnames hne,
      hhoused.dataAt_makeDir hd hx]

theorem Prepares.contentAt_run {program : Program Unit}
    (h : Prepares (s.path [area.name, Text.utf8 directory]) program) (ht : Standing s t)
    (hd : acceptable directory = true) (hnames : Dotless names) (hne : names ≠ []) :
    s.contentAt (program.run t).1 names = s.contentAt t names := by
  induction h generalizing t with
  | done _ => rfl
  | @makeDir x next hx _ ih =>
    rw [← ht.contentAt_makeDir hd hx hnames hne]
    exact ih _ ((Standing.keeps s).perform ht (.makeDir hd hx))
  | isDir _ ih => exact ih _ ht

/-- If a path of the store leads to a place or beside it, the system takes its names. -/
theorem Standing.short_of_arrives (h : Standing s t) (hnames : Dotless names) (hne : names ≠ [])
    (followLast : Bool)
    (harrives : (t.locate followLast mostLinks [] (s.path names)).arrives = true) :
    ∀ name ∈ names, name.length ≤ longestName := by
  cases h with
  | missing hproper hmissing =>
    rw [hmissing.locate followLast hne] at harrives
    exact absurd harrives Bool.false_ne_true
  | housed hhoused =>
    exact fun name hname => (hhoused.plain_of_arrives hnames followLast harrives name hname).short

/-! ## One try -/

theorem dotless_copySpot (hd : acceptable directory = true) (hn : acceptable name = true)
    (suffix : Int) : Dotless (copySpot directory name suffix) := dotless_spot hd (.copy suffix hn)

/-- A try finds a copy, or its name is too long, or there is a new empty file. -/
theorem Housed.openNew_cases (h : Housed s base q t) (hd : acceptable directory = true)
    (hn : acceptable name = true) (suffix : Int)
    (hdir : t.item? (q ++ [Area.snapshot.name, Text.utf8 directory]) = some .dir) :
    (s.copyAt t directory name suffix ≠ none ∧
        t.openNew (s.path (copySpot directory name suffix)) = (t, .error .alreadyExists)) ∨
      (s.copyAt t directory name suffix = none ∧
        longestName < (Text.utf8 (snapshotName name suffix)).length ∧
        t.openNew (s.path (copySpot directory name suffix)) = (t, .error .nameTooLong)) ∨
      (t.item? (q ++ copySpot directory name suffix) = none ∧
        s.copyAt t directory name suffix = none ∧
        (Text.utf8 (snapshotName name suffix)).length ≤ longestName ∧
        t.openNew (s.path (copySpot directory name suffix))
          = ((t.addFile (q ++ copySpot directory name suffix)).1, .ok t.contents.length)) := by
  have hplain := (h.belongs _ _ (by simp) hdir).plain
  rw [Store.copyAt, h.contentAt_eq (dotless_copySpot hd hn suffix) (by simp), FileTree.openNew,
    itself]
  rcases h.spot_cases .snapshot directory (Text.utf8 (snapshotName name suffix)) with
    hnone | ⟨number, hfile, -⟩
  · by_cases hlong : longestName < (Text.utf8 (snapshotName name suffix)).length
    · refine .inr (.inl ⟨dataAt_none hnone, hlong, ?_⟩)
      obtain ⟨left, hleft⟩ := h.locate (copySpot directory name suffix) (by simp)
      have hway := h.rooted.leads (p := []) hplain hdir left
      rw [List.append_nil] at hway
      have hlocate : t.locate false left q (copySpot directory name suffix)
          = .failed .nameTooLong :=
        (hway.locate_append (by simp)).trans (locate_long hlong)
      rw [hleft, hlocate]
    · have hshort := Nat.not_lt.mp hlong
      have hfile : Plain (Text.utf8 (snapshotName name suffix)) :=
        plain_of_head (snapshotName_head hn suffix) hshort
      have hspot : ∀ name' ∈ copySpot directory name suffix, Plain name' := by
        simp [hplain Area.snapshot.name, hplain (Text.utf8 directory), hfile]
      refine .inr (.inr ⟨hnone, dataAt_none hnone, hshort, ?_⟩)
      rw [h.spot_missing hspot hdir hnone]
      simp [FileTree.addFile]
  · have hspot := (h.belongs _ _ (by simp) hfile).plain
    refine .inl ⟨by simp [dataAt_file hfile], ?_⟩
    rw [h.spot_found hspot hfile]

/-- All pieces can be written to an open file. -/
theorem run_writePieces_ok (number offset : Nat) (pieces : List Bytes) (t : FileTree) :
    ((Store.writePieces number offset pieces).run t).2 = .ok () := by
  induction pieces generalizing offset t with
  | nil => rfl
  | cons piece rest ih => exact ih _ _

/-! ## All tries -/

section Tries

variable {left : Nat}

theorem run_snapshotFrom_taken
    (hopen : t.openNew (s.path (copySpot directory name suffix)) = (t, .error .alreadyExists)) :
    (s.snapshotFrom pieces [Area.snapshot.name, Text.utf8 directory] name left suffix).run t
      = match left with
        | 0 => (t, .fault .sumOverflow)
        | left + 1 =>
          (s.snapshotFrom pieces [Area.snapshot.name, Text.utf8 directory] name left
            (suffix + 1)).run t := by
  rw [Store.snapshotFrom.eq_def]
  simp only [List.cons_append, List.nil_append]
  rw [run_act_bind, Action.perform, hopen]
  dsimp only
  rw [if_pos rfl]
  cases left <;> rfl

theorem run_snapshotFrom_failed {cause : OsError} (hcause : cause ≠ .alreadyExists)
    (hopen : t.openNew (s.path (copySpot directory name suffix)) = (t, .error cause)) :
    (s.snapshotFrom pieces [Area.snapshot.name, Text.utf8 directory] name left suffix).run t
      = (t, .error (s.failure (copySpot directory name suffix) cause)) := by
  rw [Store.snapshotFrom.eq_def]
  simp only [List.cons_append, List.nil_append]
  rw [run_act_bind, Action.perform, hopen]
  dsimp only
  rw [if_neg hcause]
  rfl

theorem run_snapshotFrom_new {opened : FileTree} {number : Nat}
    (hopen : t.openNew (s.path (copySpot directory name suffix)) = (opened, .ok number)) :
    ((s.snapshotFrom pieces [Area.snapshot.name, Text.utf8 directory] name left suffix).run t).2
      = .ok (s.pathText (copySpot directory name suffix)) := by
  have hwrite : (Store.writePieces number 0 pieces).run opened
      = (((Store.writePieces number 0 pieces).run opened).1, .ok ()) :=
    Prod.ext rfl (run_writePieces_ok number 0 pieces opened)
  rw [Store.snapshotFrom.eq_def]
  simp only [List.cons_append, List.nil_append]
  rw [run_act_bind, Action.perform, hopen]
  dsimp only
  rw [run_bind_of_ok hwrite, run_pure]

end Tries

section Directory

variable (h : Housed s base q t) (hd : acceptable directory = true) (hn : acceptable name = true)
  (hdir : t.item? (q ++ [Area.snapshot.name, Text.utf8 directory]) = some .dir)
include h hd hn hdir

/-- A free suffix is taken if the name with it is short enough. -/
theorem Housed.run_snapshotFrom_ok_iff_of_unused (left : Nat)
    (hunused : s.copyAt t directory name suffix = none) :
    (∃ path, ((s.snapshotFrom pieces [Area.snapshot.name, Text.utf8 directory] name left
        suffix).run t).2 = .ok path) ↔
      (Text.utf8 (snapshotName name suffix)).length ≤ longestName := by
  rcases h.openNew_cases hd hn suffix hdir with
    ⟨hused, -⟩ | ⟨-, hlong, hopen⟩ | ⟨-, -, hshort, hopen⟩
  · exact absurd hunused hused
  · rw [run_snapshotFrom_failed (by decide) hopen]
    exact iff_of_false (by simp) (Nat.not_le.mpr hlong)
  · rw [run_snapshotFrom_new hopen]
    exact iff_of_true ⟨_, rfl⟩ hshort

theorem Housed.run_snapshotFrom_used (left : Nat)
    (hused : s.copyAt t directory name suffix ≠ none) :
    (s.snapshotFrom pieces [Area.snapshot.name, Text.utf8 directory] name left suffix).run t
      = match left with
        | 0 => (t, .fault .sumOverflow)
        | left + 1 =>
          (s.snapshotFrom pieces [Area.snapshot.name, Text.utf8 directory] name left
            (suffix + 1)).run t := by
  rcases h.openNew_cases hd hn suffix hdir with
    ⟨-, hopen⟩ | ⟨hunused, -⟩ | ⟨-, hunused, -⟩
  · exact run_snapshotFrom_taken hopen
  · exact absurd hunused hused
  · exact absurd hunused hused

/-- With its directory there, a copy is made if the name with the first free suffix is short
enough. -/
theorem Housed.run_snapshotFrom_ok_iff (left : Nat) (suffix : Int) :
    (∃ path, ((s.snapshotFrom pieces [Area.snapshot.name, Text.utf8 directory] name left
        suffix).run t).2 = .ok path) ↔
      ∃ free, FirstFree (s.copyAt t directory name) suffix free ∧ free ≤ suffix + left ∧
        (Text.utf8 (snapshotName name free)).length ≤ longestName := by
  have hfree (left : Nat) (suffix : Int) (hunused : s.copyAt t directory name suffix = none) :
      (Text.utf8 (snapshotName name suffix)).length ≤ longestName ↔
        ∃ free, FirstFree (s.copyAt t directory name) suffix free ∧ free ≤ suffix + left ∧
          (Text.utf8 (snapshotName name free)).length ≤ longestName := by
    constructor
    · exact fun hshort => ⟨suffix, .here hunused, by omega, hshort⟩
    · rintro ⟨free, hfirst, -, hshort⟩
      rwa [hfirst.eq_clock hunused] at hshort
  induction left generalizing suffix with
  | zero =>
    by_cases hunused : s.copyAt t directory name suffix = none
    · rw [h.run_snapshotFrom_ok_iff_of_unused hd hn hdir 0 hunused, hfree 0 suffix hunused]
    · -- no other suffix is left
      rw [h.run_snapshotFrom_used hd hn hdir 0 hunused]
      refine iff_of_false (by simp) ?_
      rintro ⟨free, hfirst, hle, -⟩
      have hclock := hfirst.from_clock
      have hsame : free = suffix := by omega
      exact hunused (hsame ▸ hfirst.unused)
  | succ left ih =>
    by_cases hunused : s.copyAt t directory name suffix = none
    · rw [h.run_snapshotFrom_ok_iff_of_unused hd hn hdir (left + 1) hunused,
        hfree (left + 1) suffix hunused]
    · -- the next suffix is tried in the same tree
      rw [h.run_snapshotFrom_used hd hn hdir (left + 1) hunused]
      refine (ih (suffix + 1)).trans ⟨?_, ?_⟩
      · rintro ⟨free, hfirst, hle, hshort⟩
        exact ⟨free, hfirst.later hunused, by omega, hshort⟩
      · rintro ⟨free, hfirst, hle, hshort⟩
        exact ⟨free, hfirst.next hunused, by omega, hshort⟩

end Directory

/-- A copy can be made only if the system takes the name of its directory. -/
theorem Standing.short_of_copied (h : Standing s t) (hd : acceptable directory = true)
    (hn : acceptable name = true) {left : Nat} {suffix : Int} {path : Bytes}
    (hok : ((s.snapshotFrom pieces [Area.snapshot.name, Text.utf8 directory] name left suffix).run
      t).2 = .ok path) : (Text.utf8 directory).length ≤ longestName := by
  have hnames := dotless_copySpot hd hn suffix
  refine h.short_of_arrives hnames (by simp) false ?_ _ (by simp)
  cases hlocated : t.locate false mostLinks [] (s.path (copySpot directory name suffix)) with
  | found _ _ => rfl
  | missing _ _ => rfl
  | failed cause =>
    -- a try that cannot get to the directory ends the snapshot
    have hcause : cause ≠ .alreadyExists := by
      rintro rfl
      exact locate_ne_alreadyExists _ _ _ _ hlocated
    have hopen : t.openNew (s.path (copySpot directory name suffix)) = (t, .error cause) := by
      rw [FileTree.openNew, itself, hlocated]
    rw [run_snapshotFrom_failed hcause hopen] at hok
    exact absurd hok (by simp)

/-- A snapshot ends well exactly when the system takes the name with the first free suffix. -/
theorem Standing.run_snapshot_ok_iff (h : Standing s t) (hd : acceptable directory = true)
    (hn : acceptable name = true) (clock : Int64) (pieces : List Bytes) :
    (∃ path, ((s.snapshot clock.toInt pieces directory name).run t).2 = .ok path) ↔
      (Text.utf8 directory).length ≤ longestName ∧
        ∃ free, FirstFree (s.copyAt t directory name) clock.toInt free ∧ free < 2 ^ 63 ∧
          (Text.utf8 (snapshotName name free)).length ≤ longestName := by
  have hlast : lastSuffix = 2 ^ 63 - 1 := by decide
  have hclock := clock.toInt_lt
  have hprepares := prepares_makeDirs s [Area.snapshot.name, Text.utf8 directory]
  have hsame : s.copyAt ((s.makeDirs [Area.snapshot.name, Text.utf8 directory]).run t).1 directory
      name = s.copyAt t directory name :=
    funext fun suffix =>
      hprepares.contentAt_run h hd (dotless_copySpot hd hn suffix) (by simp)
  rw [Store.snapshot, run_checkNames hn hd]
  dsimp only
  constructor
  · rintro ⟨path, hok⟩
    obtain ⟨-, -, hcopied⟩ := exists_of_run_bind_ok hok
    have hmade := (hprepares.within hd (List.prefix_refl _)).run (Standing.keeps s) h
    have hshort := hmade.short_of_copied hd hn hcopied
    obtain ⟨base, q, made, hrun, hhoused, hdir⟩ := h.run_makeDirs_directory .snapshot hd
      (plain_of_head (acceptable_head hd) hshort)
    rw [run_bind_of_ok hrun] at hok
    obtain ⟨free, hfirst, hle, hfits⟩ :=
      (hhoused.run_snapshotFrom_ok_iff hd hn hdir _ _).mp ⟨path, hok⟩
    rw [hrun] at hsame
    rw [hsame] at hfirst
    exact ⟨hshort, free, hfirst, by omega, hfits⟩
  · rintro ⟨hshort, free, hfirst, hfree, hfits⟩
    obtain ⟨base, q, made, hrun, hhoused, hdir⟩ := h.run_makeDirs_directory .snapshot hd
      (plain_of_head (acceptable_head hd) hshort)
    rw [hrun] at hsame
    rw [← hsame] at hfirst
    rw [run_bind_of_ok hrun]
    exact (hhoused.run_snapshotFrom_ok_iff hd hn hdir _ _).mpr ⟨free, hfirst, by omega, hfits⟩

end

end ChainWatch.Storage
