import ChainWatch.Proofs.Storage.Placing

/-!
# What a store does to its files

`Store.Takes` lists the single steps that calls to a store consist of: records are written and moved,
copies are only ever made. Each of them leaves below the data directory only what belongs to the
store (`Housed.perform`), whatever was done before it, by which call and how far that call got.
-/

namespace ChainWatch.Storage

open FileTree Program

/-- The single steps that calls to a store consist of. -/
inductive Store.Takes (s : Store) : Action → Prop
  | makeDir {area : Area} {directory : String} {x : Path} :
    acceptable directory = true → x <+: s.path [area.name, Text.utf8 directory] →
      Takes s (.makeDir x)
  | isDir (p : Path) : Takes s (.isDir p)
  | present (p : Path) : Takes s (.present p)
  | list (p : Path) : Takes s (.list p)
  | read (p : Path) : Takes s (.read p)
  | openEmptied {directory : String} {file : Name} :
    acceptable directory = true → Given .current file →
      Takes s (.openEmptied (s.path (spot .current directory file)))
  | openNew {directory : String} {file : Name} :
    acceptable directory = true → Given .snapshot file →
      Takes s (.openNew (s.path (spot .snapshot directory file)))
  | writeAt (number offset : Nat) (piece : Bytes) : Takes s (.writeAt number offset piece)
  | renameFile {area : Area} {directory : String} {file file' : Name} :
    acceptable directory = true → area ≠ .snapshot → Given .current file → Given area file' →
      Takes s (.rename (s.path (spot .current directory file)) (s.path (spot area directory file')))
  | renameDirectory {directory : String} :
    acceptable directory = true →
      Takes s (.rename (s.path [Area.current.name, Text.utf8 directory])
        (s.path [Area.archive.name, Text.utf8 directory]))
  | unlink {directory : String} {file : Name} :
    acceptable directory = true → Given .current file →
      Takes s (.unlink (s.path (spot .current directory file)))
  | removeDir {directory : String} :
    acceptable directory = true →
      Takes s (.removeDir (s.path [Area.current.name, Text.utf8 directory]))

section

variable {s : Store} {base t t' : FileTree} {q p : Path} {area area' : Area} {directory : String}
  {name : Name} {names : List Name} {file file' : Name} {item : Item} {followLast : Bool}

/-! ## The names of a store -/

theorem dotless_directory (area : Area) (hd : acceptable directory = true) :
    Dotless [area.name, Text.utf8 directory] := by
  have hdirectory := dotless_of_head (acceptable_head hd)
  simp [Dotless, area.plain.not_here, area.plain.not_up, hdirectory]

theorem dotless_spot (hd : acceptable directory = true) (hfile : Given area file) :
    Dotless (spot area directory file) := by
  have hdirectory := dotless_of_head (acceptable_head hd)
  simp [Dotless, area.plain.not_here, area.plain.not_up, hdirectory, hfile.dotless]

theorem Belongs.length_le (h : Belongs p item) : p.length ≤ 3 := by
  cases h <;> simp

theorem Belongs.on_way (hd : acceptable directory = true)
    (hway : p <+: [area.name, Text.utf8 directory]) (hp : p ≠ [])
    (hplain : ∀ name ∈ p, Plain name) : Belongs p .dir := by
  obtain ⟨rest, hrest⟩ := hway
  match p, rest, hrest with
  | [_], _, rfl => exact .area area
  | [_, _], [], rfl => exact .directory area hd (hplain _ (by simp))

theorem Given.archived (h : Given .current file) : Given .archive file := by
  cases h with
  | record _ hname => exact .record (by decide) hname
  | temporary _ hname => exact .temporary (by decide) hname

/-- What belongs to a live directory belongs to a retired one. -/
theorem Belongs.archived (hd : acceptable directory = true) (hplain : Plain (Text.utf8 directory))
    (h : Belongs ([Area.current.name, Text.utf8 directory] ++ p) item) :
    Belongs ([Area.archive.name, Text.utf8 directory] ++ p) item := by
  have hlength := h.length_le
  match p with
  | [] =>
    rw [h.eq_dir (by simp)]
    exact .directory .archive hd hplain
  | [last] =>
    obtain ⟨⟨number, rfl⟩, -, hgiven⟩ := Belongs.at_spot h
    exact .file number hd hplain hgiven.archived (h.plain last (by simp))

/-- Nothing is below what gives way: it is no directory, or an empty one. -/
theorem Rooted.bare_of_replaces (h : Rooted base q t) {old : Item}
    (hold : t.item? (q ++ p) = some old) (hreplaces : t.replaces item (q ++ p) old = .ok ()) :
    ∀ y, y ≠ [] → t.item? (q ++ (p ++ y)) = none := by
  intro y hy
  by_cases hdir : old = .dir
  · subst hdir
    have hempty : t.children (q ++ p) = [] := by
      cases item with
      | dir =>
        rw [replaces] at hreplaces
        split at hreplaces
        · assumption
        · exact absurd hreplaces (by simp)
      | file _ => exact absurd hreplaces (by simp [replaces])
      | link _ => exact absurd hreplaces (by simp [replaces])
    obtain ⟨below, more, rfl⟩ := List.exists_cons_of_ne_nil hy
    have hnone := (children_eq_nil_iff h.keyed).mp hempty below
    rw [List.append_assoc] at hnone
    by_cases hmore : more = []
    · rwa [hmore]
    · have hbelow := h.closed.none_below (p := p ++ [below]) (by simp [hnone]) hmore
      rwa [List.append_assoc] at hbelow
  · exact h.closed.none_below (by simp [hold, hdir]) hy

namespace Housed

variable (h : Housed s base q t)
include h

/-! ## Where the paths of a store lead -/

/-- No link stands below the data directory, so it is ground of the kind that saves can work on. -/
theorem ground : Ground s q [] t where
  way := by
    obtain ⟨left, hleads⟩ := h.home.leads
    exact ⟨s.root, left, (List.append_nil _).symm, hleads.extends (h.rooted.extends h.home)⟩
  level name hname := absurd hname List.not_mem_nil
  dir := h.dir
  keyed := h.rooted.keyed
  closed := h.rooted.closed
  linkless p target hitem := by
    by_cases hp : p = []
    · rw [hp, List.append_nil, h.dir] at hitem
      exact absurd hitem (by simp)
    · exact (h.belongs p _ hp hitem).ne_link target rfl
  held := h.rooted.held
  apart := h.rooted.apart

theorem endsAt (hnames : Dotless names) (hne : names ≠ []) (followLast : Bool) :
    t.EndsAt (q ++ names) (t.locate followLast mostLinks [] (s.path names)) := by
  have hends := h.ground.endsAt hnames hne followLast
  rwa [reached_nil] at hends

/-- A path in the store leads to the place with its names. -/
theorem endsAt_found (hnames : Dotless names) (hne : names ≠ []) {followLast : Bool} {x : Path}
    {item : Item} (hfound : t.locate followLast mostLinks [] (s.path names) = .found x item) :
    x = q ++ names ∧ t.item? (q ++ names) = some item := by
  have hends := h.endsAt hnames hne followLast
  rw [hfound] at hends
  obtain ⟨rfl, hitem⟩ := hends
  exact ⟨rfl, hitem⟩

/-- Names that are too long do not lead to a place. -/
theorem plain_of_arrives (hnames : Dotless names) (followLast : Bool)
    (harrives : (t.locate followLast mostLinks [] (s.path names)).arrives = true) :
    ∀ name ∈ names, Plain name := by
  intro name hname
  obtain ⟨left, hleft⟩ := h.locate names (List.ne_nil_of_mem hname)
  rw [hleft] at harrives
  have hlevel : ∀ name ∈ names, name ≠ [46, 46] := fun name hname => (hnames name hname).2
  exact ⟨(hnames name hname).1, (hnames name hname).2,
    short_of_arrives h.ground.linkless (List.prefix_refl q) hlevel harrives name hname⟩

/-! ## Changes of one place -/

theorem filled (number : Nat) (data : Bytes) : Housed s base q (t.filled number data) :=
  ⟨h.home, h.rooted.filled number data, h.belongs⟩

theorem plant (hparent : t.item? (q ++ p) = some .dir) (hbelongs : Belongs (p ++ [name]) .dir) :
    Housed s base q (t.put (q ++ (p ++ [name])) .dir) := by
  refine ⟨h.home, h.rooted.plant hparent, forall_of_change (item?_put (by simp) _) h.belongs ?_⟩
  intro item hitem
  rwa [← Option.some.inj hitem]

theorem addFile (hparent : t.item? (q ++ p) = some .dir)
    (hnone : t.item? (q ++ (p ++ [name])) = none)
    (hbelongs : ∀ number, Belongs (p ++ [name]) (.file number)) :
    Housed s base q (t.addFile (q ++ (p ++ [name]))).1 := by
  refine ⟨h.home, h.rooted.addFile hparent hnone,
    forall_of_change (item?_addFile (by simp)) h.belongs ?_⟩
  intro item hitem
  rw [← Option.some.inj hitem]
  exact hbelongs _

theorem erase (hp : p ≠ []) (hleaf : ∀ below, t.item? (q ++ (p ++ [below])) = none) :
    Housed s base q (t.erase (q ++ p)) :=
  ⟨h.home, h.rooted.erase hp hleaf,
    forall_of_change (item?_erase (by simp [hp])) h.belongs fun _ hitem => absurd hitem (by simp)⟩

theorem writeAt (number offset : Nat) (piece : Bytes) :
    Housed s base q (t.writeAt number offset piece) := h.filled number _

/-! ## Steps on one path -/

/-- On the way to a directory of the store only directories of the store are made. -/
theorem makeDir (hd : acceptable directory = true) {x : Path}
    (hx : x <+: s.path [area.name, Text.utf8 directory]) : Housed s base q (t.makeDir x).1 := by
  obtain ⟨left, hleads⟩ := h.home.leads
  have hway := hleads.extends (h.rooted.extends h.home)
  obtain ⟨z, hz⟩ := hx
  -- the way to the data directory is there; only what goes down from it can be new
  rcases List.append_eq_append_iff.mp hz with ⟨more, hroot, -⟩ | ⟨y, rfl, hy⟩
  · rw [hroot] at hway
    rw [hway.makeDir_above]
    exact h
  · rcases List.eq_nil_or_concat y with rfl | ⟨init, last, rfl⟩
    · rw [List.append_nil, hway.makeDir_isDir.1]
      exact h
    · rw [List.concat_eq_append] at hy ⊢
      have hnames : Dotless (init ++ [last]) := fun name hname =>
        dotless_directory area hd name (hy ▸ List.mem_append_left z hname)
      have hends := h.endsAt hnames (by simp) false
      have hplain := h.plain_of_arrives hnames false
      show Housed s base q (t.makeDir (s.path (init ++ [last]))).1
      rw [FileTree.makeDir, itself]
      cases hlocated : t.locate false mostLinks [] (s.path (init ++ [last])) with
      | found _ _ => exact h
      | failed _ => exact h
      | missing dir name =>
        rw [hlocated] at hends hplain
        obtain ⟨hplace, hdir, -⟩ := hends
        rw [← List.append_assoc] at hplace
        rw [(List.append_inj' hplace rfl).1] at hdir
        show Housed s base q (t.put (dir ++ [name]) .dir)
        rw [hplace, List.append_assoc]
        exact h.plant hdir (.on_way hd ⟨z, hy.symm⟩ (by simp) (hplain rfl))

/-- A file of the store is made where its path leads. -/
theorem addFile_missing (hd : acceptable directory = true) (hfile : Given area file) {dir : Path}
    (hmissing : t.locate followLast mostLinks [] (s.path (spot area directory file))
      = .missing dir name) : Housed s base q (t.addFile (dir ++ [name])).1 := by
  have hnames := dotless_spot hd hfile
  have hends := h.endsAt hnames (by simp) followLast
  have hplain := h.plain_of_arrives hnames followLast
  rw [hmissing] at hends hplain
  obtain ⟨hplace, hdir, hnone⟩ := hends
  have hsplit : spot area directory file = [area.name, Text.utf8 directory] ++ [file] := rfl
  rw [hsplit, ← List.append_assoc] at hplace
  rw [(List.append_inj' hplace rfl).1] at hdir
  rw [hplace, List.append_assoc]
  exact h.addFile hdir hnone fun number =>
    .file number hd (hplain rfl _ (by simp)) hfile (hplain rfl _ (by simp))

theorem openEmptied (hd : acceptable directory = true) (hfile : Given area file) :
    Housed s base q (t.openEmptied (s.path (spot area directory file))).1 := by
  rcases t.openEmptied_cases (s.path (spot area directory file)) with
    ⟨_, number, -, hopen⟩ | ⟨dir, name, hmissing, hopen⟩ | ⟨cause, hopen⟩
  · rw [hopen]
    exact h.filled number []
  · rw [hopen]
    exact h.addFile_missing hd hfile hmissing
  · rwa [hopen]

theorem openNew (hd : acceptable directory = true) (hfile : Given area file) :
    Housed s base q (t.openNew (s.path (spot area directory file))).1 := by
  rcases t.openNew_cases (s.path (spot area directory file)) with
    ⟨dir, name, hmissing, hopen⟩ | ⟨cause, hopen⟩
  · rw [hopen]
    exact h.addFile_missing hd hfile hmissing
  · rwa [hopen]

theorem unlink (hnames : Dotless names) (hne : names ≠ []) :
    Housed s base q (t.unlink (s.path names)).1 := by
  rcases t.unlink_cases (s.path names) with ⟨x, item, hfound, hdir, herased⟩ | hsame
  · obtain ⟨rfl, hitem⟩ := h.endsAt_found hnames hne hfound
    rw [herased]
    exact h.erase hne fun below => h.rooted.closed.none_below (by simp [hitem, hdir]) (by simp)
  · rwa [hsame]

theorem removeDir (hnames : Dotless names) (hne : names ≠ []) :
    Housed s base q (t.removeDir (s.path names)).1 := by
  rcases t.removeDir_cases (s.path names) with ⟨x, hfound, hempty, herased⟩ | hsame
  · obtain ⟨rfl, -⟩ := h.endsAt_found hnames hne hfound
    rw [herased]
    refine h.erase hne fun below => ?_
    rw [← List.append_assoc]
    exact (children_eq_nil_iff h.rooted.keyed).mp hempty below
  · rwa [hsame]

/-! ## Steps on two paths -/

section Rename

variable {src dst : Path} (hdst : dst ≠ []) (hlength : src.length = dst.length) (hdiff : src ≠ dst)
  (hbelongs : ∀ y item, Belongs (src ++ y) item → Belongs (dst ++ y) item)
include hdst hlength hdiff hbelongs

/-- What stands in one place of the store comes to stand in another one that nothing is below. -/
theorem move (hparent : t.item? (q ++ dst.dropLast) = some .dir)
    (hbare : ∀ y, y ≠ [] → t.item? (q ++ (dst ++ y)) = none) :
    Housed s base q (t.move (q ++ src) (q ++ dst)) := by
  have hsrc : src ≠ [] := by
    intro hnil
    rw [hnil, List.length_nil] at hlength
    exact hdst (List.eq_nil_of_length_eq_zero hlength.symm)
  have hapart : ¬ src <+: dst := fun hstarts => hdiff (hstarts.eq_of_length hlength)
  obtain ⟨init, last, rfl⟩ : ∃ init last, dst = init ++ [last] :=
    ⟨_, _, (List.dropLast_concat_getLast hdst).symm⟩
  rw [List.dropLast_concat] at hparent
  refine ⟨h.home, h.rooted.move init hsrc hapart hbare hparent,
    h.rooted.forall_of_move init hsrc hapart hbare h.belongs fun y item hitem => ?_⟩
  exact hbelongs y item (h.belongs _ _ (by simp [hsrc]) hitem)

end Rename

/-- An item of the store gets another place in the store, with a directory above it and nothing
below it, or nothing changes. -/
theorem rename_cases {src dst : Path} (hsrc : Dotless src) (hdst : Dotless dst) (hne : dst ≠ [])
    (hlength : src.length = dst.length) :
    (t.rename (s.path src) (s.path dst)).1 = t ∨
      ((t.rename (s.path src) (s.path dst)).1 = t.move (q ++ src) (q ++ dst) ∧ src ≠ dst ∧
        (∃ item, t.item? (q ++ src) = some item) ∧ t.item? (q ++ dst.dropLast) = some .dir ∧
        (∀ y, y ≠ [] → t.item? (q ++ (dst ++ y)) = none) ∧ ∀ name ∈ dst, Plain name) := by
  have hsrcne : src ≠ [] := by
    intro hnil
    rw [hnil, List.length_nil] at hlength
    exact hne (List.eq_nil_of_length_eq_zero hlength.symm)
  have hends := h.endsAt hsrc hsrcne false
  have hends' := h.endsAt hdst hne false
  have hplain := h.plain_of_arrives hdst false
  obtain ⟨init, last, hinit⟩ : ∃ init last, dst = init ++ [last] :=
    ⟨_, _, (List.dropLast_concat_getLast hne).symm⟩
  rw [FileTree.rename, itself, itself]
  cases hlocated : t.locate false mostLinks [] (s.path src) with
  | failed _ => exact .inl rfl
  | missing _ _ => cases t.locate false mostLinks [] (s.path dst) <;> exact .inl rfl
  | found p item =>
    rw [hlocated] at hends
    obtain ⟨rfl, hitem⟩ := hends
    cases hlocated' : t.locate false mostLinks [] (s.path dst) with
    | failed _ => exact .inl rfl
    | missing dir name =>
      rw [hlocated'] at hends' hplain
      obtain ⟨hplace, hdir, hnone⟩ := hends'
      rw [hinit, ← List.append_assoc] at hplace
      rw [(List.append_inj' hplace rfl).1] at hdir
      dsimp only
      split
      · exact .inl rfl
      · have hdiff : src ≠ dst := by
          intro hsame
          rw [hsame, hnone] at hitem
          exact absurd hitem (by simp)
        refine .inr ⟨?_, hdiff, ⟨item, hitem⟩, ?_, fun y hy => ?_, hplain rfl⟩
        · rw [hplace, List.append_assoc, ← hinit]
        · rwa [hinit, List.dropLast_concat]
        · exact h.rooted.closed.none_below (by simp [hnone]) hy
    | found p' old =>
      rw [hlocated'] at hends' hplain
      obtain ⟨rfl, hold⟩ := hends'
      dsimp only
      by_cases hsame : q ++ src = q ++ dst
      · rw [if_pos hsame]
        exact .inl rfl
      · have hlengths : (q ++ src).length = (q ++ dst).length := by
          rw [List.length_append, List.length_append, hlength]
        rw [if_neg hsame, strictlyAbove_eq_false (Nat.le_of_eq hlengths.symm),
          strictlyAbove_eq_false (Nat.le_of_eq hlengths)]
        have hparent : t.item? (q ++ dst.dropLast) = some .dir := by
          rw [hinit, List.dropLast_concat]
          exact h.rooted.closed init last (by rw [← hinit, hold]; exact Option.some_ne_none _)
        -- what gives way has nothing below it: it is no directory, or an empty one
        cases hreplaces : t.replaces item (q ++ dst) old with
        | error cause => exact .inl rfl
        | ok done =>
          exact .inr ⟨rfl, fun heq => hsame (heq ▸ rfl), ⟨item, hitem⟩, hparent,
            h.rooted.bare_of_replaces hold hreplaces, hplain rfl⟩

/-- A file or a directory of the store gets another place in the store. -/
theorem rename {src dst : Path} (hsrc : Dotless src) (hdst : Dotless dst) (hne : dst ≠ [])
    (hlength : src.length = dst.length)
    (hbelongs : (∀ name ∈ dst, Plain name) →
      ∀ y item, Belongs (src ++ y) item → Belongs (dst ++ y) item) :
    Housed s base q (t.rename (s.path src) (s.path dst)).1 := by
  rcases h.rename_cases hsrc hdst hne hlength with
    hsame | ⟨hmoved, hdiff, -, hparent, hbare, hplain⟩
  · rwa [hsame]
  · rw [hmoved]
    exact h.move hne hlength hdiff (hbelongs hplain) hparent hbare

/-! ## Every step -/

/-- Whatever a store does next, only what belongs to it is left below the data directory. -/
theorem perform {a : Action} (ha : s.Takes a) : Housed s base q (a.perform t).1 := by
  cases ha with
  | makeDir hd hx => exact h.makeDir hd hx
  | isDir p => exact h
  | present p => exact h
  | list p => exact h
  | read p => exact h
  | openEmptied hd hfile => exact h.openEmptied hd hfile
  | openNew hd hfile => exact h.openNew hd hfile
  | writeAt number offset piece => exact h.writeAt number offset piece
  | @renameFile area directory file file' hd _ hfile hfile' =>
    refine h.rename (dotless_spot hd hfile) (dotless_spot hd hfile') (by simp) rfl ?_
    intro hplain y item hbelongs
    -- a file takes nothing along
    have hlength := hbelongs.length_le
    have hthree : (spot .current directory file).length = 3 := rfl
    have hnil : y = [] := by
      rw [List.length_append, hthree] at hlength
      exact List.eq_nil_of_length_eq_zero (by omega)
    rw [hnil, List.append_nil] at hbelongs ⊢
    obtain ⟨⟨number, rfl⟩, -⟩ := hbelongs.at_spot
    exact .file number hd (hplain _ (by simp)) hfile' (hplain _ (by simp))
  | renameDirectory hd =>
    refine h.rename (dotless_directory _ hd) (dotless_directory _ hd) (by simp) rfl ?_
    intro hplain y item hbelongs
    exact hbelongs.archived hd (hplain _ (by simp))
  | unlink hd hfile => exact h.unlink (dotless_spot hd hfile) (by simp)
  | removeDir hd => exact h.removeDir (dotless_directory _ hd) (by simp)

/-- What is listed in a directory of the store has a name that the store gave. -/
theorem given_of_list (hd : acceptable directory = true) {entries : List (Name × Bool)}
    (hlist : t.list (s.path [area.name, Text.utf8 directory]) = .ok entries) :
    ∀ entry ∈ entries, Given area entry.1 := by
  intro entry hentry
  have hends := h.endsAt (dotless_directory area hd) (by simp) true
  cases hlocated : t.locate true mostLinks [] (s.path [area.name, Text.utf8 directory]) with
  | failed cause =>
    rw [FileTree.list, follow, hlocated] at hlist
    exact absurd hlist (by simp)
  | missing dir name =>
    rw [FileTree.list, follow, hlocated] at hlist
    exact absurd hlist (by simp)
  | found p item =>
    rw [hlocated] at hends
    obtain ⟨rfl, hitem⟩ := hends
    rw [(h.belongs _ _ (by simp) hitem).eq_dir (by simp)] at hlocated
    obtain ⟨entries', hlist', -, hentries⟩ := list_of_follow h.rooted.keyed hlocated
    rw [hlist', Except.ok.injEq] at hlist
    subst hlist
    obtain ⟨item, hitem, -⟩ := (hentries entry.1 entry.2).mp hentry
    rw [List.append_assoc] at hitem
    exact (h.belongs _ _ (by simp) hitem).at_spot.2.2

end Housed

end

end ChainWatch.Storage
