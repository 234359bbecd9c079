import ChainWatch.Proofs.Storage.Steps

/-!
# The places of a store

The ways from the data directory to the places of files, and what the operations of the system do
there: making the directories above, opening a file, giving it another place.
-/

namespace ChainWatch.Storage

open FileTree Program

section

variable {s : Store} {base t : FileTree} {q : Path} {area area' : Area}
  {directory directory' name : String} {file file' : Name} {item : Item} {followLast : Bool}

/-! ## Ways to the places of a store -/

theorem plain_directory (hd : Fitting directory) :
    ∀ name ∈ [area.name, Text.utf8 directory], Plain name := area.plain_directory hd.plain

theorem plain_spot (hd : Fitting directory) (hf : Plain file) :
    ∀ name ∈ spot area directory file, Plain name := by
  simp [area.plain, hd.plain, hf]

theorem Kept.at_spot (h : Kept (spot area directory file) item) :
    (∃ number, item = .file number) ∧ FileName area file := by
  generalize hspot : spot area directory file = place at h
  cases h with
  | area => simp at hspot
  | directory => simp at hspot
  | file number hd hf =>
    obtain ⟨rfl, -, rfl⟩ := spot_inj.mp hspot
    exact ⟨⟨number, rfl⟩, hf⟩

/-- Only a file can stand in the place of one. -/
theorem Stocked.spot_cases (h : Stocked base q t) (area : Area) (directory : String) (file : Name) :
    t.item? (q ++ spot area directory file) = none ∧
        t.dataAt (q ++ spot area directory file) = none ∨
      ∃ number, t.item? (q ++ spot area directory file) = some (.file number) ∧
        t.dataAt (q ++ spot area directory file) = some (t.content number) ∧
        FileName area file := by
  cases hitem : t.item? (q ++ spot area directory file) with
  | none => exact .inl ⟨rfl, dataAt_none hitem⟩
  | some item =>
    obtain ⟨⟨number, rfl⟩, hf⟩ := (h.kept _ _ (by simp) hitem).at_spot
    exact .inr ⟨number, rfl, dataAt_file hitem, hf⟩

theorem Stocked.directory_of_spot (h : Stocked base q t)
    (hitem : t.item? (q ++ spot area directory file) = some item) :
    t.item? (q ++ [area.name, Text.utf8 directory]) = some .dir :=
  h.closed [area.name, Text.utf8 directory] file (hitem ▸ Option.some_ne_none _)

/-- A directory stands in its place or nothing does. -/
theorem Stocked.directory_cases (h : Stocked base q t) (area : Area) (directory : String) :
    t.item? (q ++ [area.name, Text.utf8 directory]) = none ∨
      t.item? (q ++ [area.name, Text.utf8 directory]) = some .dir := by
  cases hitem : t.item? (q ++ [area.name, Text.utf8 directory]) with
  | none => exact .inl rfl
  | some item => exact .inr (by rw [(h.kept _ _ (by simp) hitem).eq_dir (by simp)])

section Ways

variable (hhome : Home s base q) (h : Stocked base q t) (hd : Fitting directory) (hf : Plain file)
include hhome h hd hf

theorem Home.spot_found (hitem : t.item? (q ++ spot area directory file) = some item) :
    t.locate followLast mostLinks [] (s.path (spot area directory file))
      = .found (q ++ spot area directory file) item :=
  (h.housed hhome).spot_found (plain_spot hd hf) hitem

theorem Home.spot_missing (hdir : t.item? (q ++ [area.name, Text.utf8 directory]) = some .dir)
    (hnone : t.item? (q ++ spot area directory file) = none) :
    t.locate followLast mostLinks [] (s.path (spot area directory file))
      = .missing (q ++ [area.name, Text.utf8 directory]) file :=
  (h.housed hhome).spot_missing (plain_spot hd hf) hdir hnone

omit hf in
theorem Home.spot_failed (hnone : t.item? (q ++ [area.name, Text.utf8 directory]) = none) :
    t.locate followLast mostLinks [] (s.path (spot area directory file)) = .failed .noEntry :=
  hhome.failed h (p := [area.name, Text.utf8 directory]) (plain_directory hd) (by simp) hnone

end Ways

/-! ## Directories -/

theorem Home.directory_found (hhome : Home s base q) (h : Stocked base q t) (hd : Fitting directory)
    (hdir : t.item? (q ++ [area.name, Text.utf8 directory]) = some .dir) :
    t.locate followLast mostLinks [] (s.path [area.name, Text.utf8 directory])
      = .found (q ++ [area.name, Text.utf8 directory]) .dir :=
  hhome.found h (p := [area.name]) (plain_directory hd) hdir

/-- The entries of a directory are the files in it. -/
theorem Home.list_directory (hhome : Home s base q) (h : Stocked base q t) (hd : Fitting directory)
    (hdir : t.item? (q ++ [area.name, Text.utf8 directory]) = some .dir) :
    ∃ entries, t.list (s.path [area.name, Text.utf8 directory]) = .ok entries ∧
      (entries.map Prod.fst).Nodup ∧
      ∀ file, file ∈ entries.map Prod.fst ↔ t.dataAt (q ++ spot area directory file) ≠ none := by
  obtain ⟨entries, hlist, hnodup, hentries⟩ :=
    list_of_follow h.keyed (hhome.directory_found h hd hdir)
  refine ⟨entries, hlist, hnodup, fun file => ?_⟩
  rcases h.spot_cases area directory file with ⟨hitem, hdata⟩ | ⟨number, hitem, hdata, -⟩
  · simp only [hdata, ne_eq, not_true_eq_false, iff_false]
    intro hfile
    obtain ⟨entry, hentry, rfl⟩ := List.mem_map.mp hfile
    obtain ⟨item, hsome, -⟩ := (hentries entry.1 entry.2).mp hentry
    rw [List.append_assoc] at hsome
    exact absurd (hitem.symm.trans hsome) (by simp)
  · simp only [hdata, ne_eq, reduceCtorEq, not_false_eq_true, iff_true]
    refine List.mem_map_of_mem ((hentries file false).mpr ⟨.file number, ?_, rfl⟩)
    rw [List.append_assoc]
    exact hitem

section Directories

variable (hhome : Home s base q) (h : Stocked base q t)
include hhome h

theorem Home.run_makeDirs (names : List Name) (hplain : ∀ name ∈ names, Plain name)
    (hshallow : names.length ≤ 2) :
    (s.makeDirs names).run t = (t.planted q names, .ok ()) :=
  (h.housed hhome).run_makeDirs names hplain hshallow

theorem Home.stocked_planted_area (area : Area) :
    Stocked base q (t.planted q [area.name]) ∧
      (∀ p, (t.planted q [area.name]).item? (q ++ p)
        = if p = [area.name] then some .dir else t.item? (q ++ p)) ∧
      ∀ x, (t.planted q [area.name]).dataAt x = t.dataAt x := by
  have hplanted : t.planted q [area.name] = t.ensured (q ++ ([] ++ [area.name])) := by
    rw [planted_down area.plain.not_here]
    rfl
  rw [hplanted]
  refine ⟨h.ensured (by simpa using h.dir hhome) (.area area), ?_, fun x => ?_⟩
  · intro p
    by_cases hp : p = [area.name]
    · rw [if_pos hp, hp]
      exact h.isDir_ensured (p := [area.name]) (by simp) (by simp)
    · rw [if_neg hp, item?_ensured (by simp), if_neg]
      rintro ⟨heq, -⟩
      exact hp (List.append_cancel_left heq)
  · exact dataAt_ensured (by simp) x

theorem Home.stocked_planted_directory (area : Area) (hd : Fitting directory) :
    Stocked base q (t.planted q [area.name, Text.utf8 directory]) ∧
      (t.planted q [area.name, Text.utf8 directory]).item? (q ++ [area.name, Text.utf8 directory])
        = some .dir ∧
      ∀ x, (t.planted q [area.name, Text.utf8 directory]).dataAt x = t.dataAt x := by
  obtain ⟨harea, hitems, hdata⟩ := hhome.stocked_planted_area h area
  have hplanted : t.planted q [area.name, Text.utf8 directory]
      = (t.planted q [area.name]).ensured (q ++ ([area.name] ++ [Text.utf8 directory])) := by
    have happend := planted_append t q [area.name] [Text.utf8 directory]
    rw [reached_down area.plain.not_here, reached_nil, planted_down hd.plain.not_here,
      List.append_assoc] at happend
    exact happend
  rw [hplanted]
  refine ⟨harea.ensured (by rw [hitems, if_pos rfl]) (.directory area hd), ?_, fun x => ?_⟩
  · exact harea.isDir_ensured (p := [area.name] ++ [Text.utf8 directory]) (by simp) (by simp)
  · rw [dataAt_ensured (by simp), hdata]

end Directories

/-! ## Files -/

/-- A file stands open and empty at a place; the others are as before. -/
structure Opened (base : FileTree) (q : Path) (t : FileTree) (place : Path) (opened : FileTree)
    (number : Nat) : Prop where
  stocked : Stocked base q opened
  file : opened.item? (q ++ place) = some (.file number)
  empty : opened.content number = []
  data : ∀ p, opened.dataAt (q ++ p) = if p = place then some [] else t.dataAt (q ++ p)

theorem Stocked.opened_addFile (h : Stocked base q t) (hd : Fitting directory)
    (hf : FileName area file) (hdir : t.item? (q ++ [area.name, Text.utf8 directory]) = some .dir)
    (hnone : t.item? (q ++ spot area directory file) = none) :
    Opened base q t (spot area directory file) (t.addFile (q ++ spot area directory file)).1
      t.contents.length where
  stocked := h.addFile (p := [area.name, Text.utf8 directory]) hdir hnone (.file _ hd hf)
  file := by rw [item?_addFile (by simp), if_pos rfl]
  empty := by simp [FileTree.addFile, content]
  data := dataAt_addFile (by simp)

/-- The pieces that are written to an open file are its content. -/
theorem Opened.run_writePieces {place : Path} {opened : FileTree} {number : Nat}
    (h : Opened base q t place opened number) (pieces : List Bytes) :
    ∃ written, (Store.writePieces number 0 pieces).run opened = (written, .ok ()) ∧
      Stocked base q written ∧ written.item? (q ++ place) = some (.file number) ∧
      ∀ p, written.dataAt (q ++ p)
        = if p = place then some pieces.flatten else t.dataAt (q ++ p) := by
  have hrun := Store.run_writePieces pieces (h.stocked.held _ _ h.file)
  rw [h.empty, List.length_nil, List.nil_append] at hrun
  refine ⟨_, hrun, h.stocked.filled _ _, h.file, fun p => ?_⟩
  rw [h.stocked.dataAt_filled h.file, h.data]
  split <;> rfl

section Opening

variable (hhome : Home s base q) (h : Stocked base q t) (hd : Fitting directory) (hf : Plain file)
  (hname : FileName area file) (hdir : t.item? (q ++ [area.name, Text.utf8 directory]) = some .dir)
include hhome h hd hf hname hdir

theorem Home.openNew (hnone : t.item? (q ++ spot area directory file) = none) :
    ∃ opened number, t.openNew (s.path (spot area directory file)) = (opened, .ok number) ∧
      Opened base q t (spot area directory file) opened number := by
  refine ⟨_, _, ?_, h.opened_addFile hd hname hdir hnone⟩
  rw [FileTree.openNew, itself, hhome.spot_missing h hd hf hdir hnone]
  simp [FileTree.addFile]

theorem Home.openEmptied :
    ∃ opened number, t.openEmptied (s.path (spot area directory file)) = (opened, .ok number) ∧
      Opened base q t (spot area directory file) opened number := by
  rcases (h.housed hhome).openEmptied_cases (plain_spot hd hf) hdir with
    ⟨hnone, hopen⟩ | ⟨number, hfile, hopen⟩
  · exact ⟨_, _, hopen, h.opened_addFile hd hname hdir hnone⟩
  · refine ⟨_, _, hopen, h.filled _ _, hfile, ?_, h.dataAt_filled hfile []⟩
    rw [content_filled (h.held _ _ hfile), if_pos rfl]

end Opening

/-- A file takes a place, in front of what stood there. -/
theorem Home.rename_file (hhome : Home s base q) (h : Stocked base q t)
    (hd : Fitting directory) (hd' : Fitting directory') (hf : Plain file) (hf' : Plain file')
    (hname : FileName area' file') {number : Nat}
    (hfile : t.item? (q ++ spot area directory file) = some (.file number))
    (hdir : t.item? (q ++ [area'.name, Text.utf8 directory']) = some .dir)
    (hne : spot area directory file ≠ spot area' directory' file') :
    ∃ renamed, t.rename (s.path (spot area directory file)) (s.path (spot area' directory' file'))
        = (renamed, .ok ()) ∧ Stocked base q renamed ∧
      (∀ p, p.length ≤ 2 → renamed.item? (q ++ p) = t.item? (q ++ p)) ∧
      ∀ p, renamed.dataAt (q ++ p) =
        if p = spot area' directory' file' then t.dataAt (q ++ spot area directory file)
        else if p = spot area directory file then none else t.dataAt (q ++ p) := by
  have hapart : ¬ spot area directory file <+: spot area' directory' file' := fun hstarts =>
    hne (hstarts.eq_of_length rfl)
  have hnew : t.item? (q ++ spot area' directory' file') ≠ some .dir := by
    rcases h.spot_cases area' directory' file' with ⟨hnone, -⟩ | ⟨number', hfile', -, -⟩
    · simp [hnone]
    · simp [hfile']
  have hold : t.item? (q ++ spot area directory file) ≠ some .dir := by simp [hfile]
  -- no directory is involved, so the file is all that moves
  have hbare : ∀ y, y ≠ [] → t.item? (q ++ (spot area' directory' file' ++ y)) = none :=
    fun y hy => h.closed.none_below hnew hy
  have hkept : ∀ y item, t.item? (q ++ (spot area directory file ++ y)) = some item →
      Kept (spot area' directory' file' ++ y) item := by
    intro y item hitem
    by_cases hy : y = []
    · rw [hy, List.append_nil, hfile] at hitem
      rw [hy, List.append_nil, ← Option.some.inj hitem]
      exact .file number hd' hname
    · rw [h.closed.none_below hold hy] at hitem
      exact absurd hitem (by simp)
  refine ⟨t.move (q ++ spot area directory file) (q ++ spot area' directory' file'), ?_, ?_, ?_, ?_⟩
  · exact (h.housed hhome).rename_file (plain_spot hd hf) (plain_spot hd' hf') hfile hdir hne
  · exact Stocked.move [area'.name, Text.utf8 directory'] (by simp) hapart hbare h hdir hkept
  · intro p hp
    rw [h.rooted.item?_move (by simp) (by simp) hapart hbare, if_neg, if_neg]
    · intro hstarts
      exact absurd hstarts.length_le (by simp; omega)
    · intro hstarts
      exact absurd hstarts.length_le (by simp; omega)
  · exact h.rooted.dataAt_move_leaf (by simp) (by simp) hapart hold hnew

end

end ChainWatch.Storage
