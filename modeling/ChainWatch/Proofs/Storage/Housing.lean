import ChainWatch.Proofs.Storage.MakeDirs

/-!
# What stands below a data directory

A store leaves directories and files below its data directory, at most three names deep: areas,
the directories in them and the files in those. `Housed` says so of a tree, in comparison with a
tree in which the data directory is empty. It allows every name that a store accepts and whatever
an interrupted call leaves behind, and it is enough to find the way to every file.
-/

namespace ChainWatch.Storage

open FileTree

/-- The names of files that come from acceptable names. -/
inductive Given : Area → Name → Prop
  | record {area : Area} {name : String} :
    area ≠ .snapshot → acceptable name = true → Given area (Text.utf8 name)
  | temporary {area : Area} {name : String} :
    area ≠ .snapshot → acceptable name = true → Given area (Text.utf8 (temporaryName name))
  | copy {name : String} (suffix : Int) :
    acceptable name = true → Given .snapshot (Text.utf8 (snapshotName name suffix))

/-- The place of a file below the data directory. -/
abbrev spot (area : Area) (directory : String) (file : Name) : Path :=
  [area.name, Text.utf8 directory, file]

/-- What may stand below the data directory of a store. -/
inductive Belongs : Path → Item → Prop
  | area (area : Area) : Belongs [area.name] .dir
  | directory (area : Area) {directory : String} :
    acceptable directory = true → Plain (Text.utf8 directory) →
      Belongs [area.name, Text.utf8 directory] .dir
  | file {area : Area} {directory : String} {file : Name} (number : Nat) :
    acceptable directory = true → Plain (Text.utf8 directory) → Given area file → Plain file →
      Belongs (spot area directory file) (.file number)

/-- A store's data directory, as it is in a tree in which it is empty. -/
structure Home (s : Store) (base : FileTree) (q : Path) : Prop where
  leads : ∃ left, base.Leads mostLinks [] s.root left q
  dir : base.item? q = some .dir
  bare : ∀ p, p ≠ [] → base.item? (q ++ p) = none

/-- A tree that differs from another only below `q`. Everything there stands in a directory, and no
two paths lead to the same file. -/
structure Rooted (base : FileTree) (q : Path) (t : FileTree) : Prop where
  keyed : t.Keyed
  outside : ∀ x, (∀ p, p ≠ [] → x ≠ q ++ p) → t.item? x = base.item? x
  closed : t.Closed q
  held : ∀ p number, t.item? (q ++ p) = some (.file number) → number < t.contents.length
  apart : ∀ p p' number, t.item? (q ++ p) = some (.file number) →
    t.item? (q ++ p') = some (.file number) → p = p'

/-- A tree in which nothing but what a store may leave has come into its data directory. -/
structure Housed (s : Store) (base : FileTree) (q : Path) (t : FileTree) : Prop where
  home : Home s base q
  rooted : Rooted base q t
  belongs : ∀ p item, p ≠ [] → t.item? (q ++ p) = some item → Belongs p item

section

variable {s : Store} {base t t' : FileTree} {q p p' : Path} {area area' : Area}
  {directory directory' : String} {name : Name} {names : List Name} {file file' : Name} {item : Item}

/-! ## What belongs to a store -/

theorem Area.plain_directory (area : Area) (hplain : Plain (Text.utf8 directory)) :
    ∀ name ∈ [area.name, Text.utf8 directory], Plain name := by
  simp [area.plain, hplain]

theorem Given.dotless (h : Given area file) : file ≠ [46] ∧ file ≠ [46, 46] := by
  cases h with
  | record _ hname => exact dotless_of_head (acceptable_head hname)
  | @temporary _ name _ _ =>
    -- a temporary name has five bytes more than the name that it is made from
    have hlength := length_temporaryName name
    constructor
    · intro hdot
      rw [hdot, List.length_singleton] at hlength
      omega
    · intro hdots
      rw [hdots, List.length_cons, List.length_singleton] at hlength
      omega
  | copy suffix hname => exact dotless_of_head (snapshotName_head hname suffix)

theorem spot_inj :
    spot area directory file = spot area' directory' file'
      ↔ area = area' ∧ directory = directory' ∧ file = file' := by
  constructor
  · intro heq
    simp only [spot, List.cons.injEq, and_true] at heq
    exact ⟨Area.name_injective heq.1, Text.utf8_injective heq.2.1, heq.2.2⟩
  · rintro ⟨rfl, rfl, rfl⟩
    rfl

theorem Belongs.ne_link (h : Belongs p item) (target : Bytes) : item ≠ .link target := by
  cases h <;> exact nofun

theorem Belongs.eq_dir (h : Belongs p item) (hshallow : p.length ≤ 2) : item = .dir := by
  cases h with
  | area => rfl
  | directory => rfl
  | file => simp at hshallow

theorem Belongs.at_directory (h : Belongs [area.name, name] item) :
    item = .dir ∧ ∃ directory, acceptable directory = true ∧ name = Text.utf8 directory := by
  generalize hplace : [area.name, name] = place at h
  cases h with
  | area => simp at hplace
  | @directory _ directory hd =>
    simp only [List.cons.injEq, and_true] at hplace
    exact ⟨rfl, directory, hd, hplace.2⟩
  | file => simp at hplace

theorem Belongs.at_spot (h : Belongs (spot area directory file) item) :
    (∃ number, item = .file number) ∧ acceptable directory = true ∧ Given area file := by
  generalize hplace : spot area directory file = place at h
  cases h with
  | area => simp at hplace
  | directory => simp at hplace
  | file number hd _ hfile =>
    obtain ⟨rfl, rfl, rfl⟩ := spot_inj.mp hplace
    exact ⟨⟨number, rfl⟩, hd, hfile⟩

theorem Belongs.plain (h : Belongs p item) : ∀ name ∈ p, Plain name := by
  cases h with
  | area area => simpa using area.plain
  | directory area _ hplain => simp [area.plain, hplain]
  | @file area _ _ _ _ hplain _ hfile => simp [area.plain, hplain, hfile]

/-! ## Finding the way -/

theorem strictlyAbove_eq_false {p p' : Path} (h : p'.length ≤ p.length) :
    strictlyAbove p p' = false := by
  rw [strictlyAbove, Bool.and_eq_false_iff, bne_eq_false_iff_eq]
  by_cases hstarts : p <+: p'
  · exact .inr (hstarts.eq_of_length_le h)
  · refine .inl ?_
    rw [← Bool.not_eq_true, List.isPrefixOf_iff_prefix]
    exact hstarts

theorem Home.ne_file (hhome : Home s base q) (p : Path) (number : Nat) :
    base.item? (q ++ p) ≠ some (.file number) := by
  by_cases hp : p = []
  · simp [hp, hhome.dir]
  · simp [hhome.bare p hp]

/-- Nothing has come into an empty data directory. -/
theorem Home.housed (hhome : Home s base q) (hkeyed : base.Keyed) : Housed s base q base where
  home := hhome
  rooted := {
    keyed := hkeyed
    outside := fun _ _ => rfl
    closed := fun p name hitem => absurd (hhome.bare _ (by simp)) hitem
    held := fun p number hitem => absurd hitem (hhome.ne_file p number)
    apart := fun p _ number hitem _ => absurd hitem (hhome.ne_file p number) }
  belongs p item hp hitem := by
    rw [hhome.bare p hp] at hitem
    exact absurd hitem (by simp)

theorem Rooted.dir (h : Rooted base q t) (hhome : Home s base q) : t.item? q = some .dir := by
  rw [h.outside q, hhome.dir]
  intro p hp heq
  simp [hp] at heq

theorem Rooted.extends (h : Rooted base q t) (hhome : Home s base q) : base.Extends t := by
  intro x item hitem
  rw [h.outside x, hitem]
  rintro p hp rfl
  simp [hhome.bare p hp] at hitem

/-- From the data directory plain names lead to every directory below it. -/
theorem Rooted.leads (h : Rooted base q t) {rest : Path} (hplain : ∀ name ∈ rest, Plain name)
    (hdir : t.item? (q ++ (p ++ rest)) = some .dir) (links : Nat) :
    t.Leads links (q ++ p) rest links (q ++ (p ++ rest)) := by
  induction rest generalizing p with
  | nil =>
    rw [List.append_nil]
    exact .arrive
  | cons name rest ih =>
    have hsplit : p ++ name :: rest = (p ++ [name]) ++ rest := by simp
    rw [hsplit] at hdir ⊢
    refine .down (hplain name List.mem_cons_self) ?_ ?_
    · rw [List.append_assoc]
      by_cases hnil : rest = []
      · rwa [hnil, List.append_nil] at hdir
      · exact h.closed.above hnil (by rw [hdir]; exact Option.some_ne_none _)
    · rw [List.append_assoc]
      exact ih (fun name hname => hplain name (List.mem_cons_of_mem _ hname)) hdir

namespace Housed

variable {followLast : Bool} (h : Housed s base q t)
include h

theorem dir : t.item? q = some .dir := h.rooted.dir h.home

/-- Only directories stand at most two names down. -/
theorem isDir_of_shallow (hp : p ≠ []) (hshallow : p.length ≤ 2) (hitem : t.item? (q ++ p) ≠ none) :
    t.item? (q ++ p) = some .dir := by
  cases hsome : t.item? (q ++ p) with
  | none => exact absurd hsome hitem
  | some item => rw [(h.belongs p item hp hsome).eq_dir hshallow]

/-- All ways to somewhere below the data directory can be followed from there. -/
theorem locate (names : List Name) (hnames : names ≠ []) :
    ∃ left, ∀ followLast, t.locate followLast mostLinks [] (s.path names)
      = t.locate followLast left q names := by
  obtain ⟨left, hleads⟩ := h.home.leads
  exact ⟨left, fun followLast =>
    (hleads.extends (h.rooted.extends h.home)).locate_append fun hnil => absurd hnil hnames⟩

theorem found (hplain : ∀ name' ∈ p ++ [name], Plain name')
    (hitem : t.item? (q ++ (p ++ [name])) = some item) :
    t.locate followLast mostLinks [] (s.path (p ++ [name])) = .found (q ++ (p ++ [name])) item := by
  obtain ⟨left, hleft⟩ := h.locate (p ++ [name]) (by simp)
  have hdir : t.item? (q ++ ([] ++ p)) = some .dir := h.rooted.closed p name (by simp [hitem])
  have hway := h.rooted.leads (fun name' hname' => hplain name' (List.mem_append_left _ hname')) hdir
    left
  have hlink := (h.belongs _ _ (by simp) hitem).ne_link
  rw [List.append_nil] at hway
  rw [hleft, hway.locate_append (by simp), List.nil_append, ← List.append_assoc]
  exact locate_found (hplain name (by simp)) (by rw [List.append_assoc]; exact hitem) hlink

theorem missing (hplain : ∀ name' ∈ p ++ [name], Plain name')
    (hdir : t.item? (q ++ p) = some .dir) (hnone : t.item? (q ++ (p ++ [name])) = none) :
    t.locate followLast mostLinks [] (s.path (p ++ [name])) = .missing (q ++ p) name := by
  obtain ⟨left, hleft⟩ := h.locate (p ++ [name]) (by simp)
  have hway := h.rooted.leads (p := [])
    (fun name' hname' => hplain name' (List.mem_append_left _ hname')) hdir left
  rw [List.append_nil] at hway
  rw [hleft, hway.locate_append (by simp), List.nil_append]
  exact locate_missing (hplain name (by simp)) (by rw [List.append_assoc]; exact hnone)

theorem failed (hplain : ∀ name' ∈ p, Plain name') (hshallow : p.length ≤ 2)
    (hnone : t.item? (q ++ p) = none) :
    t.locate followLast mostLinks [] (s.path (p ++ [name])) = .failed .noEntry := by
  obtain ⟨left, hleft⟩ := h.locate (p ++ [name]) (by simp)
  rw [hleft]
  -- the way stops at the first name of `p` that is not there
  suffices hstop : ∀ rest done : Path, p = done ++ rest → t.item? (q ++ done) = some .dir →
      t.locate followLast left (q ++ done) (rest ++ [name]) = .failed .noEntry by
    simpa using hstop p [] rfl (by simpa using h.dir)
  intro rest
  induction rest with
  | nil =>
    intro done hdone hdir
    rw [hdone, List.append_nil, hdir] at hnone
    exact absurd hnone (by simp)
  | cons name' rest ih =>
    intro done hdone hdir
    have hname' : Plain name' := hplain name' (by simp [hdone])
    rw [List.cons_append]
    by_cases hnone' : t.item? (q ++ done ++ [name']) = none
    · exact locate_blocked hname' hnone' (by simp)
    · rw [List.append_assoc] at hnone'
      have hlength : (done ++ [name']).length ≤ 2 := by
        rw [hdone] at hshallow
        simp only [List.length_append, List.length_cons, List.length_nil] at hshallow ⊢
        omega
      have hitem := h.isDir_of_shallow (by simp) hlength hnone'
      have hrest := ih (done ++ [name']) (by simp [hdone]) hitem
      rw [locate_down hname' (by rwa [List.append_assoc]), List.append_assoc]
      exact hrest

/-- The entries of a directory of the store, each of them once. -/
theorem list (hplain : ∀ name' ∈ p ++ [name], Plain name')
    (hdir : t.item? (q ++ (p ++ [name])) = some .dir) :
    ∃ entries, t.list (s.path (p ++ [name])) = .ok entries ∧ (entries.map Prod.fst).Nodup ∧
      ∀ entry isDir, (entry, isDir) ∈ entries ↔
        ∃ item, t.item? (q ++ (p ++ [name, entry])) = some item ∧ (item == .dir) = isDir := by
  obtain ⟨entries, hlist, hnodup, hentries⟩ :=
    list_of_follow h.rooted.keyed (h.found hplain hdir)
  refine ⟨entries, hlist, hnodup, fun entry isDir => ?_⟩
  rw [hentries, List.append_assoc, List.append_assoc]
  rfl

/-- Only a file can stand in the place of one. -/
theorem spot_cases (area : Area) (directory : String) (file : Name) :
    t.item? (q ++ spot area directory file) = none ∨
      ∃ number, t.item? (q ++ spot area directory file) = some (.file number) ∧
        acceptable directory = true ∧ Given area file := by
  cases hitem : t.item? (q ++ spot area directory file) with
  | none => exact .inl rfl
  | some item =>
    obtain ⟨⟨number, rfl⟩, hgiven⟩ := (h.belongs _ _ (by simp) hitem).at_spot
    exact .inr ⟨number, rfl, hgiven⟩

/-! ## Opening and renaming files -/

section Files

variable (hplain : ∀ name ∈ spot area directory file, Plain name)
include hplain

theorem spot_found (hitem : t.item? (q ++ spot area directory file) = some item) :
    t.locate followLast mostLinks [] (s.path (spot area directory file))
      = .found (q ++ spot area directory file) item :=
  h.found (p := [area.name, Text.utf8 directory]) hplain hitem

theorem spot_missing (hdir : t.item? (q ++ [area.name, Text.utf8 directory]) = some .dir)
    (hnone : t.item? (q ++ spot area directory file) = none) :
    t.locate followLast mostLinks [] (s.path (spot area directory file))
      = .missing (q ++ [area.name, Text.utf8 directory]) file :=
  h.missing (p := [area.name, Text.utf8 directory]) hplain hdir hnone

/-- A file of the store can be opened in a directory that is there: a new one, or the one that is
there already. -/
theorem openEmptied_cases (hdir : t.item? (q ++ [area.name, Text.utf8 directory]) = some .dir) :
    t.item? (q ++ spot area directory file) = none ∧
        t.openEmptied (s.path (spot area directory file))
          = ((t.addFile (q ++ spot area directory file)).1, .ok t.contents.length) ∨
      ∃ number, t.item? (q ++ spot area directory file) = some (.file number) ∧
        t.openEmptied (s.path (spot area directory file)) = (t.filled number [], .ok number) := by
  rcases h.spot_cases area directory file with hnone | ⟨number, hfile, -⟩
  · refine .inl ⟨hnone, ?_⟩
    rw [FileTree.openEmptied, follow, h.spot_missing hplain hdir hnone]
    simp [FileTree.addFile]
  · refine .inr ⟨number, hfile, ?_⟩
    rw [FileTree.openEmptied, follow, h.spot_found hplain hfile]
    rfl

/-- A file of the store can be given another place, whether or not a file stands there. -/
theorem rename_file (hplain' : ∀ name ∈ spot area' directory' file', Plain name) {number : Nat}
    (hfile : t.item? (q ++ spot area directory file) = some (.file number))
    (hdir : t.item? (q ++ [area'.name, Text.utf8 directory']) = some .dir)
    (hne : spot area directory file ≠ spot area' directory' file') :
    t.rename (s.path (spot area directory file)) (s.path (spot area' directory' file'))
      = (t.move (q ++ spot area directory file) (q ++ spot area' directory' file'), .ok ()) := by
  rw [rename, itself, itself, h.spot_found hplain hfile]
  rcases h.spot_cases area' directory' file' with hnone | ⟨number', hfile', -⟩
  · rw [h.spot_missing hplain' hdir hnone]
    simp
  · have hpaths : q ++ spot area directory file ≠ q ++ spot area' directory' file' :=
      fun heq => hne (List.append_cancel_left heq)
    rw [h.spot_found hplain' hfile']
    simp only [if_neg hpaths, replaces]
    rw [strictlyAbove_eq_false (by simp), strictlyAbove_eq_false (by simp)]
    rfl

end Files

/-! ## Making directories -/

/-- No file stands in the way of a directory. -/
theorem clear (hshallow : names.length ≤ 2) : t.Clear q names := by
  rintro x ⟨⟨p, rfl⟩, hne, hreached⟩
  have hp : p ≠ [] := by simpa using hne
  rw [reached, List.prefix_append_right_inj] at hreached
  have hlength : p.length ≤ 2 :=
    Nat.le_trans hreached.length_le (Nat.le_trans (List.length_filter_le _ _) hshallow)
  by_cases hnone : t.item? (q ++ p) = none
  · exact .inl hnone
  · exact .inr (h.isDir_of_shallow hp hlength hnone)

/-- Directories are made below the data directory, whether or not some of them are there. -/
theorem run_makeDirs (names : List Name) (hplain : ∀ name ∈ names, Plain name)
    (hshallow : names.length ≤ 2) :
    (s.makeDirs names).run t = (t.planted q names, .ok ()) := by
  obtain ⟨left, hleads⟩ := h.home.leads
  have hdown : ∀ name ∈ names.reverse, Downward name :=
    fun name hname => .inr (hplain name (List.mem_reverse.mp hname))
  have hclear : t.Clear q names.reverse.reverse := by
    rw [List.reverse_reverse]
    exact h.clear hshallow
  have hrun := Store.run_makeDirsUp (s.failure names)
    (hleads.extends (h.rooted.extends h.home)) names.reverse hdown hclear
  rw [List.reverse_reverse] at hrun
  rw [Store.makeDirs, Store.path, List.reverse_append, hrun]

end Housed

end

end ChainWatch.Storage
