import ChainWatch.Proofs.Storage.Beginning

/-!
# A store is its three maps

Whatever calls a store serves, from an empty or a missing data directory on, its answers and its
files are those of three maps: the live records, the retired ones and the copies. One call is
carried over to the maps whether the data directory is there or not (`Stands.serve`); the whole
history follows by induction.
-/

namespace ChainWatch.Storage

open FileTree Program

/-- The files that the system finds in the directories of a store are those of the maps. -/
structure Store.Shows (s : Store) (t : FileTree) (r : Reference) : Prop where
  current : ∀ directory, Fitting directory → ∀ file data,
    t.read (s.path (spot .current directory file)) = .ok data ↔
      ∃ name, file = Text.utf8 name ∧ r.current directory name = some data
  archived : ∀ directory, Fitting directory → ∀ file data,
    t.read (s.path (spot .archive directory file)) = .ok data ↔
      ∃ name, file = Text.utf8 name ∧ r.archived directory name = some data
  snapshots : ∀ directory, Fitting directory → ∀ file data,
    t.read (s.path (spot .snapshot directory file)) = .ok data ↔
      ∃ name suffix, file = Text.utf8 (snapshotName name suffix) ∧
        r.snapshots directory name suffix = some data

/-- Calls are served one after the other as by the maps: before and after each of them the files are
those of the maps, each ends as the maps say, and one that ends with an error has changed
nothing. -/
def Store.Follows (s : Store) : FileTree → Reference → List Call → Prop
  | t, r, [] => s.Shows t r
  | t, r, call :: rest =>
    s.Shows t r ∧
    (∀ cause, ((call.program s).run t).2 = .error cause → ((call.program s).run t).1 = t) ∧
    ∃ r', r.Serves s call ((call.program s).run t).2 r' ∧
      s.Follows ((call.program s).run t).1 r' rest

section

variable {s : Store} {base t : FileTree} {q : Path} {r : Reference} {area : Area}
  {directory : String} {file : Name} {data : Bytes}

/-! ## What the system finds -/

theorem follow_of_read_ok {p : Path} (h : t.read p = .ok data) :
    ∃ x number, t.follow p = .found x (.file number) := by
  rw [FileTree.read] at h
  split at h
  · rename_i x number hfound
    exact ⟨x, number, hfound⟩
  all_goals exact absurd h (by simp)

/-- A last name that is not plain leads to no file. -/
theorem Home.read_unplain (hhome : Home s base q) (h : Stocked base q t) (hd : Fitting directory)
    (hdir : t.item? (q ++ [area.name, Text.utf8 directory]) = some .dir) (hfile : ¬ Plain file) :
    t.read (s.path (spot area directory file)) ≠ .ok data := by
  obtain ⟨left, hleft⟩ := (h.housed hhome).locate (spot area directory file) (by simp)
  have hway := h.rooted.leads (p := []) (plain_directory hd) hdir left
  rw [List.append_nil] at hway
  have hlast : t.follow (s.path (spot area directory file))
      = t.locate true left (q ++ [area.name, Text.utf8 directory]) [file] :=
    (hleft true).trans (hway.locate_append (by simp))
  intro hread
  obtain ⟨x, number, hfound⟩ := follow_of_read_ok hread
  exact locate_ne_file hfile x number (hlast.symm.trans hfound)

theorem Home.read_ok_iff (hhome : Home s base q) (h : Stocked base q t) (hd : Fitting directory) :
    t.read (s.path (spot area directory file)) = .ok data
      ↔ t.dataAt (q ++ spot area directory file) = some data := by
  rcases h.spot_cases area directory file with ⟨hnone, hdata⟩ | ⟨number, hfile, hdata, hname⟩
  · have hunread : t.read (s.path (spot area directory file)) ≠ .ok data := by
      rcases h.directory_cases area directory with hdir | hdir
      · rw [FileTree.read, follow, hhome.spot_failed h hd hdir]
        simp
      · by_cases hplain : Plain file
        · rw [FileTree.read, follow, hhome.spot_missing h hd hplain hdir hnone]
          simp
        · exact hhome.read_unplain h hd hdir hplain
    simp [hunread, hdata]
  · rw [FileTree.read, follow, hhome.spot_found h hd hname.plain hfile, hdata]
    simp

theorem Stocked.fileName_of_dataAt (h : Stocked base q t)
    (hdata : t.dataAt (q ++ spot area directory file) = some data) : FileName area file := by
  rcases h.spot_cases area directory file with ⟨-, hnone⟩ | ⟨number, -, -, hname⟩
  · rw [hnone] at hdata
    exact absurd hdata (by simp)
  · exact hname

/-- The files of an area that has records are those of a map, since none of them is temporary. -/
theorem Holds.dataAt_record_iff (h : Holds base q t r) (harea : area ≠ .snapshot)
    {records : String → Option Bytes}
    (hrecords : ∀ name, t.dataAt (q ++ spot area directory (Text.utf8 name)) = records name) :
    t.dataAt (q ++ spot area directory file) = some data
      ↔ ∃ name, file = Text.utf8 name ∧ records name = some data := by
  constructor
  · intro hdata
    cases h.stocked.fileName_of_dataAt hdata with
    | @record _ name _ _ => exact ⟨name, rfl, by rw [← hrecords, hdata]⟩
    | temporary _ _ =>
      rw [h.tidy _ _ _ harea] at hdata
      exact absurd hdata (by simp)
    | copy => exact absurd rfl harea
  · rintro ⟨name, rfl, hdata⟩
    rw [hrecords, hdata]

theorem Holds.dataAt_copy_iff (h : Holds base q t r) :
    t.dataAt (q ++ spot .snapshot directory file) = some data
      ↔ ∃ name suffix, file = Text.utf8 (snapshotName name suffix) ∧
          r.snapshots directory name suffix = some data := by
  constructor
  · intro hdata
    cases h.stocked.fileName_of_dataAt hdata with
    | record harea _ => exact absurd rfl harea
    | temporary harea _ => exact absurd rfl harea
    | @copy name suffix _ _ _ => exact ⟨name, suffix, rfl, by rw [← h.snapshots, hdata]⟩
  · rintro ⟨name, suffix, rfl, hdata⟩
    rw [h.snapshots, hdata]

theorem Holds.shows (hhome : Home s base q) (h : Holds base q t r) : s.Shows t r where
  current directory hd file data := by
    rw [hhome.read_ok_iff h.stocked hd]
    exact h.dataAt_record_iff (by decide) (h.current directory)
  archived directory hd file data := by
    rw [hhome.read_ok_iff h.stocked hd]
    exact h.dataAt_record_iff (by decide) (h.archived directory)
  snapshots directory hd file data := by
    rw [hhome.read_ok_iff h.stocked hd]
    exact h.dataAt_copy_iff

theorem Store.Missing.shows (hmissing : s.Missing t) : s.Shows t .empty := by
  have hunread (area : Area) (directory : String) (file : Name) (data : Bytes) :
      t.read (s.path (spot area directory file)) ≠ .ok data := by
    rw [FileTree.read, follow, hmissing.locate true (by simp)]
    simp
  constructor <;> simp [hunread, Reference.empty]

/-! ## Whole histories -/

/-- A store's files are those of its maps, also while the data directory is missing. -/
inductive Stands (s : Store) : FileTree → Reference → Prop
  | missing {t : FileTree} : t.Proper → s.Missing t → Stands s t .empty
  | there {base t : FileTree} {q : Path} {r : Reference} :
    Home s base q → Holds base q t r → Stands s t r

theorem Stands.shows (h : Stands s t r) : s.Shows t r := by
  cases h with
  | missing _ hmissing => exact hmissing.shows
  | there hhome hholds => exact hholds.shows hhome

/-- One call keeps a store's files those of its maps. -/
theorem Stands.serve (h : Stands s t r) {call : Call} (hfits : call.Fits) :
    (∀ cause, ((call.program s).run t).2 = .error cause → ((call.program s).run t).1 = t) ∧
    ∃ r', r.Serves s call ((call.program s).run t).2 r' ∧
      Stands s ((call.program s).run t).1 r' := by
  cases h with
  | missing hproper hmissing =>
    obtain ⟨after, outcome, r', hrun, herror, hserves, hstay | ⟨base, q, hhome, hholds⟩⟩ :=
      hmissing.serve hproper hfits
    · obtain ⟨rfl, rfl⟩ := hstay
      rw [hrun]
      exact ⟨herror, _, hserves, .missing hproper hmissing⟩
    · rw [hrun]
      exact ⟨herror, r', hserves, .there hhome hholds⟩
  | there hhome hholds =>
    obtain ⟨after, outcome, r', hrun, herror, hserves, hafter⟩ := hholds.serve hhome call hfits
    rw [hrun]
    exact ⟨herror, r', hserves, .there hhome hafter⟩

theorem Stands.follows (h : Stands s t r) {calls : List Call} (hfits : ∀ call ∈ calls, call.Fits) :
    s.Follows t r calls := by
  induction calls generalizing t r with
  | nil => exact h.shows
  | cons call rest ih =>
    obtain ⟨herror, r', hserves, hnext⟩ := h.serve (hfits call List.mem_cons_self)
    exact ⟨h.shows, herror, r', hserves,
      ih hnext fun call' hcall' => hfits call' (List.mem_cons_of_mem _ hcall')⟩

/-- From an empty or a missing data directory on, a store serves every sequence of calls as three
maps would, in its answers and in its files. -/
theorem Store.follows_maps {calls : List Call} (hproper : t.Proper)
    (hstart : s.Empty t ∨ s.Missing t) (hfits : ∀ call ∈ calls, call.Fits) :
    s.Follows t .empty calls := by
  rcases hstart with hempty | hmissing
  · obtain ⟨q, hhome⟩ := hempty.home hproper
    exact (Stands.there hhome (hhome.holds hproper.keyed)).follows hfits
  · exact (Stands.missing hproper hmissing).follows hfits

/-- A store in the directory `data`. -/
def dataStore : Store := ⟨[Text.utf8 "data"], Text.utf8 "data"⟩

theorem proper_empty : FileTree.empty.Proper :=
  ⟨List.nodup_nil, fun p name hitem => absurd hitem (by simp [item?, FileTree.empty])⟩

theorem missing_dataStore : dataStore.Missing .empty := by
  have hdata : Fitting "data" := ⟨by decide, by rw [Text.utf8_eq_flatMap]; decide⟩
  have hfollow : FileTree.empty.follow [] = .found [] .dir := by
    rw [follow, FileTree.locate]
  exact ⟨[], Text.utf8 "data", [], [], rfl, hfollow, by simp [item?, FileTree.empty], hdata.plain,
    List.forall_mem_nil _⟩

/-- A record is saved and retired twice under one name, copied and asked for after that. -/
def retiredTwice : List Call :=
  [.save [[1], [2]] "books" "a", .archive "books", .save [[3]] "books" "a", .archive "books",
    .snapshot 5 [[4]] "books" "a", .delete "books" "a", .readAll]

/-- The first of these calls makes the data directory, the first archive moves a whole directory,
the second one moves file by file, and the delete fails. -/
theorem follows_maps_retired_twice :
    FileTree.empty.Proper ∧ dataStore.Missing .empty ∧ (∀ call ∈ retiredTwice, call.Fits) ∧
      dataStore.Follows .empty .empty retiredTwice := by
  have hbooks : Fitting "books" := ⟨by decide, by rw [Text.utf8_eq_flatMap]; decide⟩
  have ha : Fitting "a" := ⟨by decide, by rw [Text.utf8_eq_flatMap]; decide⟩
  have hfits : ∀ call ∈ retiredTwice, call.Fits := by simp [retiredTwice, Call.Fits, hbooks, ha]
  exact ⟨proper_empty, missing_dataStore, hfits,
    Store.follows_maps proper_empty (.inr missing_dataStore) hfits⟩

end

end ChainWatch.Storage
