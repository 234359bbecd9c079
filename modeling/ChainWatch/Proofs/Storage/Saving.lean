import ChainWatch.Proofs.Storage.Places

/-!
# Saving records and copies

What a save and a snapshot leave below the data directory, whatever stood there before. A save ends
well and changes one record; the temporary file is gone. A snapshot takes the first free suffix from
its clock on, and changes nothing else.
-/

namespace ChainWatch.Storage

open FileTree Program

/-- The first suffix from the clock on that has no copy. -/
structure FirstFree (copies : Int → Option Bytes) (clock free : Int) : Prop where
  from_clock : clock ≤ free
  unused : copies free = none
  used : ∀ k, clock ≤ k → k < free → copies k ≠ none

theorem FirstFree.here {copies : Int → Option Bytes} {clock : Int} (hunused : copies clock = none) :
    FirstFree copies clock clock :=
  ⟨Int.le_refl _, hunused, fun k hk hk' => absurd hk' (by omega)⟩

theorem FirstFree.later {copies : Int → Option Bytes} {clock free : Int}
    (h : FirstFree copies (clock + 1) free) (hused : copies clock ≠ none) :
    FirstFree copies clock free := by
  have hclock := h.from_clock
  refine ⟨by omega, h.unused, fun k hk hk' => ?_⟩
  by_cases hsame : k = clock
  · rwa [hsame]
  · exact h.used k (by omega) hk'

/-- A snapshot has written its copy, under one suffix, and nothing else. -/
structure Copied (s : Store) (base : FileTree) (q : Path) (t : FileTree) (pieces : List Bytes)
    (directory name : String) (suffix : Int) (result : FileTree × Outcome Bytes) : Prop where
  answer : result.2
    = .ok (s.pathText (spot .snapshot directory (Text.utf8 (snapshotName name suffix))))
  stocked : Stocked base q result.1
  data : ∀ p, result.1.dataAt (q ++ p) =
    if p = spot .snapshot directory (Text.utf8 (snapshotName name suffix))
    then some pieces.flatten else t.dataAt (q ++ p)

/-- What the copies of a record are, by suffix. -/
def copies (t : FileTree) (q : Path) (directory name : String) (suffix : Int) : Option Bytes :=
  t.dataAt (q ++ spot .snapshot directory (Text.utf8 (snapshotName name suffix)))

variable {s : Store} {base t : FileTree} {q : Path} {directory name : String}

variable (hhome : Home s base q) (h : Stocked base q t) (hd : Fitting directory) (hn : Fitting name)
include hhome h hd hn

/-- A save ends well: the record has the new content and its temporary file is gone. -/
theorem Home.run_save (pieces : List Bytes) :
    ∃ saved, (s.save pieces directory name).run t = (saved, .ok ()) ∧ Stocked base q saved ∧
      ∀ p, saved.dataAt (q ++ p) =
        if p = spot .current directory (Text.utf8 name) then some pieces.flatten
        else if p = spot .current directory (Text.utf8 (temporaryName name)) then none
        else t.dataAt (q ++ p) := by
  have hcurrent : Area.current ≠ .snapshot := by decide
  have htemporary : FileName .current (Text.utf8 (temporaryName name)) := .temporary hcurrent hn
  have hmake := hhome.run_makeDirs h [Area.current.name, _] (plain_directory hd) (by simp)
  obtain ⟨hstocked, hdir, hdata⟩ := hhome.stocked_planted_directory h .current hd
  generalize t.planted q _ = made at hmake hstocked hdir hdata
  obtain ⟨opened, number, hopen, hopened⟩ :=
    hhome.openEmptied hstocked hd hn.plain_temporaryName htemporary hdir
  obtain ⟨written, hwrite, hwritten, hfile, hcontent⟩ := hopened.run_writePieces pieces
  have hne : spot .current directory (Text.utf8 (temporaryName name))
      ≠ spot .current directory (Text.utf8 name) := fun heq =>
    temporaryName_ne hn.acceptable (Text.utf8_injective (spot_inj.mp heq).2.2)
  obtain ⟨renamed, hrename, hrenamed, -, hplaces⟩ :=
    hhome.rename_file hwritten hd hd hn.plain_temporaryName hn.plain (.record hcurrent hn) hfile
      (hwritten.directory_of_spot hfile) hne
  refine ⟨renamed, ?_, hrenamed, ?_⟩
  · rw [Store.save, run_checkNames hn.acceptable hd.acceptable]
    simp only [List.cons_append, List.nil_append]
    rw [run_bind_of_ok hmake, run_act_bind, Action.perform, hopen,
      run_bind_of_ok (run_orFail_ok _ _ _), run_bind_of_ok hwrite, run_act_bind, Action.perform,
      hrename, run_orFail_ok]
  · intro p
    rw [hplaces, hcontent, hcontent, hdata, if_pos rfl]
    split
    · rfl
    · split
      · rfl
      · exact hdata _

/-! ## Snapshots -/

section Snapshot

variable {suffix : Int} (hlow : -2 ^ 63 ≤ suffix) (hhigh : suffix < 2 ^ 63)
include hlow hhigh

/-- A free suffix is taken. -/
theorem Home.run_snapshotFrom_free (pieces : List Bytes) (left : Nat)
    (hdir : t.item? (q ++ [Area.snapshot.name, Text.utf8 directory]) = some .dir)
    (hunused : copies t q directory name suffix = none) :
    Copied s base q t pieces directory name suffix
      ((s.snapshotFrom pieces [Area.snapshot.name, Text.utf8 directory] name left suffix).run
        t) := by
  rcases h.spot_cases .snapshot directory (Text.utf8 (snapshotName name suffix)) with
    ⟨hnone, -⟩ | ⟨number, -, hsome, -⟩
  · obtain ⟨opened, number, hopen, hopened⟩ :=
      hhome.openNew h hd (hn.plain_snapshotName hlow hhigh) (.copy hn hlow hhigh) hdir hnone
    obtain ⟨written, hwrite, hwritten, -, hcontent⟩ := hopened.run_writePieces pieces
    have hrun : (s.snapshotFrom pieces [Area.snapshot.name, Text.utf8 directory] name left
          suffix).run t
        = (written, .ok (s.pathText
            (spot .snapshot directory (Text.utf8 (snapshotName name suffix))))) := by
      rw [Store.snapshotFrom.eq_def]
      simp only [List.cons_append, List.nil_append]
      rw [run_act_bind, Action.perform, hopen]
      dsimp only
      rw [run_bind_of_ok hwrite, run_pure]
    rw [hrun]
    exact ⟨rfl, hwritten, hcontent⟩
  · rw [copies, hsome] at hunused
    exact absurd hunused (by simp)

/-- Where a suffix is taken, the next one is tried. -/
theorem Home.run_snapshotFrom_taken (pieces : List Bytes) (left : Nat)
    (hused : copies t q directory name suffix ≠ none) :
    (s.snapshotFrom pieces [Area.snapshot.name, Text.utf8 directory] name left suffix).run t
      = match left with
        | 0 => (t, .fault .sumOverflow)
        | left + 1 =>
          (s.snapshotFrom pieces [Area.snapshot.name, Text.utf8 directory] name left
            (suffix + 1)).run t := by
  rcases h.spot_cases .snapshot directory (Text.utf8 (snapshotName name suffix)) with
    ⟨-, hnone⟩ | ⟨number, hfile, -, -⟩
  · exact absurd hnone hused
  · have hopen : t.openNew
          (s.path (spot .snapshot directory (Text.utf8 (snapshotName name suffix))))
        = (t, .error .alreadyExists) := by
      rw [FileTree.openNew, itself,
        hhome.spot_found h hd (hn.plain_snapshotName hlow hhigh) hfile]
    rw [Store.snapshotFrom.eq_def]
    simp only [List.cons_append, List.nil_append]
    rw [run_act_bind, Action.perform, hopen]
    dsimp only
    rw [if_pos rfl]
    cases left <;> rfl

end Snapshot

/-- A snapshot takes the first free suffix of those it may take, if there is one. -/
theorem Home.run_snapshotFrom (pieces : List Bytes) (left : Nat) {suffix : Int}
    (hdir : t.item? (q ++ [Area.snapshot.name, Text.utf8 directory]) = some .dir)
    (hlow : -2 ^ 63 ≤ suffix) (hhigh : suffix + left < 2 ^ 63) :
    (∃ free, FirstFree (copies t q directory name) suffix free ∧ free ≤ suffix + left ∧
        Copied s base q t pieces directory name free
          ((s.snapshotFrom pieces [Area.snapshot.name, Text.utf8 directory] name left suffix).run
            t)) ∨
      (∀ k, suffix ≤ k → k ≤ suffix + left → copies t q directory name k ≠ none) ∧
        (s.snapshotFrom pieces [Area.snapshot.name, Text.utf8 directory] name left suffix).run t
          = (t, .fault .sumOverflow) := by
  induction left generalizing suffix with
  | zero =>
    by_cases hunused : copies t q directory name suffix = none
    · exact .inl ⟨suffix, .here hunused, by omega,
        hhome.run_snapshotFrom_free h hd hn hlow (by omega) pieces 0 hdir hunused⟩
    · refine .inr ⟨fun k hk hk' => ?_, hhome.run_snapshotFrom_taken h hd hn hlow (by omega)
        pieces 0 hunused⟩
      have hsame : k = suffix := by omega
      rwa [hsame]
  | succ left ih =>
    by_cases hunused : copies t q directory name suffix = none
    · exact .inl ⟨suffix, .here hunused, by omega,
        hhome.run_snapshotFrom_free h hd hn hlow (by omega) pieces (left + 1) hdir hunused⟩
    · have hnext := hhome.run_snapshotFrom_taken h hd hn hlow (by omega) pieces (left + 1) hunused
      rw [hnext]
      rcases @ih (suffix + 1) (by omega) (by omega) with ⟨free, hfirst, hle, hrun⟩ | ⟨hused, hrun⟩
      · exact .inl ⟨free, hfirst.later hunused, by omega, hrun⟩
      · refine .inr ⟨fun k hk hk' => ?_, hrun⟩
        by_cases hsame : k = suffix
        · rwa [hsame]
        · exact hused k (by omega) (by omega)

/-- A snapshot changes nothing but the copy that it writes; it stops at the end of the suffixes. -/
theorem Home.run_snapshot (pieces : List Bytes) {clock : Int} (hlow : -2 ^ 63 ≤ clock)
    (hhigh : clock < 2 ^ 63) :
    (∃ free, FirstFree (copies t q directory name) clock free ∧ free < 2 ^ 63 ∧
        Copied s base q t pieces directory name free
          ((s.snapshot clock pieces directory name).run t)) ∨
      (∀ k, clock ≤ k → k < 2 ^ 63 → copies t q directory name k ≠ none) ∧
        ∃ made, (s.snapshot clock pieces directory name).run t = (made, .fault .sumOverflow) ∧
          Stocked base q made ∧ ∀ x, made.dataAt x = t.dataAt x := by
  have hlast : lastSuffix = 2 ^ 63 - 1 := by decide
  have hmake := hhome.run_makeDirs h [Area.snapshot.name, _] (plain_directory hd) (by simp)
  obtain ⟨hstocked, hdir, hdata⟩ := hhome.stocked_planted_directory h .snapshot hd
  generalize t.planted q _ = made at hmake hstocked hdir hdata
  -- making the directory does not change which suffixes are taken
  have hcopies : copies made q directory name = copies t q directory name :=
    funext fun k => hdata _
  have hstart : (s.snapshot clock pieces directory name).run t
      = (s.snapshotFrom pieces [Area.snapshot.name, Text.utf8 directory] name
          (lastSuffix - clock).toNat clock).run made := by
    rw [Store.snapshot, run_checkNames hn.acceptable hd.acceptable]
    dsimp only
    rw [run_bind_of_ok hmake]
  have hruns := hhome.run_snapshotFrom hstocked hd hn pieces (lastSuffix - clock).toNat hdir hlow
    (by omega)
  rw [hcopies] at hruns
  rw [hstart]
  rcases hruns with ⟨free, hfirst, hle, hcopied⟩ | ⟨hused, hrun⟩
  · refine .inl ⟨free, hfirst, by omega, hcopied.answer, hcopied.stocked, fun p => ?_⟩
    rw [hcopied.data, hdata]
  · exact .inr ⟨fun k hk hk' => hused k hk (by omega), made, hrun, hstocked, hdata⟩

end ChainWatch.Storage
