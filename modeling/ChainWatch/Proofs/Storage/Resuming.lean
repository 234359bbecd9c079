import ChainWatch.Proofs.Storage.Copying

/-!
# Archives that are interrupted and made again

An archive moves its directory as a whole or file by file, and either way it may stop anywhere. At
every moment a file is on one side or on the other, and where both sides have it the live one
counts: what the two sides hold together stays the same (`Shifted`). An archive that goes through
ends with nothing on the live side, so it does not matter how far an earlier one got
(`Store.Reached.archive_resumes`).
-/

namespace ChainWatch.Storage

open FileTree Program

/-- The two sides of a directory hold the same together, the live one first, and all else is as it
was. -/
structure Shifted (q : Path) (directory : String) (t t' : FileTree) : Prop where
  merged : ∀ file, (t'.dataAt (q ++ spot .current directory file)).or
      (t'.dataAt (q ++ spot .archive directory file))
    = (t.dataAt (q ++ spot .current directory file)).or
      (t.dataAt (q ++ spot .archive directory file))
  others : ∀ p, ¬ [Area.current.name, Text.utf8 directory] <+: p →
    ¬ [Area.archive.name, Text.utf8 directory] <+: p → t'.dataAt (q ++ p) = t.dataAt (q ++ p)

/-- What an archive that got as far as `t'` has done to the files that were there in `t`, and what
the same archive does from there. -/
structure Store.Resumes (s : Store) (directory : String) (t t' : FileTree) : Prop where
  /-- What the whole archive would leave is still there, on one of the two sides. -/
  kept : ∀ file data, Dotless [file] →
    s.contentAt ((s.archive directory).run t).1 (spot .archive directory file) = some data →
      s.contentAt t' (spot .current directory file) = some data ∨
        s.contentAt t' (spot .archive directory file) = some data
  others : ∀ names, Dotless names → names ≠ [] →
    ¬ [Area.current.name, Text.utf8 directory] <+: names →
    ¬ [Area.archive.name, Text.utf8 directory] <+: names →
      s.contentAt t' names = s.contentAt t names
  again : ∀ names, Dotless names → names ≠ [] →
    s.contentAt ((s.archive directory).run t').1 names
      = s.contentAt ((s.archive directory).run t).1 names
  outcome : ((s.archive directory).run t').2 = ((s.archive directory).run t).2

section

variable {s : Store} {base t t' t'' : FileTree} {q : Path} {area : Area} {directory : String}
  {file : Name} {left : Program Unit}

/-! ## What one step moves -/

theorem Shifted.refl (q : Path) (directory : String) (t : FileTree) : Shifted q directory t t :=
  ⟨fun _ => rfl, fun _ _ _ => rfl⟩

theorem Shifted.trans (h : Shifted q directory t t') (h' : Shifted q directory t' t'') :
    Shifted q directory t t'' where
  merged file := (h'.merged file).trans (h.merged file)
  others p hcurrent harchive :=
    (h'.others p hcurrent harchive).trans (h.others p hcurrent harchive)

theorem Shifted.of_same (hsame : ∀ p, t'.dataAt (q ++ p) = t.dataAt (q ++ p)) :
    Shifted q directory t t' :=
  ⟨fun file => by rw [hsame, hsame], fun p _ _ => hsame p⟩

theorem current_ne_archive : Area.current.name ≠ Area.archive.name := fun heq =>
  absurd (Area.name_injective heq) (by decide)

/-- A file that is moved takes the place of the retired one. -/
theorem Housed.shifted_file (h : Housed s base q t) (hd : acceptable directory = true)
    (hfile : Given .current file) :
    Shifted q directory t (t.rename (s.path (spot .current directory file))
      (s.path (spot .archive directory file))).1 := by
  rcases h.rename_cases (dotless_spot hd hfile) (dotless_spot hd hfile.archived) (by simp) rfl with
    hsame | ⟨hmoved, hdiff, ⟨item, hitem⟩, -, hbare, -⟩
  · rw [hsame]
    exact .refl q directory t
  have hapart : ¬ spot .current directory file <+: spot .archive directory file :=
    fun hstarts => hdiff (hstarts.eq_of_length rfl)
  have hdata := h.rooted.dataAt_move (by simp) (by simp) hapart hbare
  rw [hmoved]
  constructor
  · intro other
    by_cases hother : other = file
    · -- only a file stands in the place of one, so the live content counts
      obtain ⟨⟨number, rfl⟩, -⟩ := (h.belongs _ _ (by simp) hitem).at_spot
      have hback : ¬ spot .archive directory file <+: spot .current directory file :=
        fun hstarts => hdiff (hstarts.eq_of_length rfl).symm
      rw [hother, hdata, hdata, if_neg hback, if_pos (List.prefix_refl _),
        if_pos (List.prefix_refl _), dataAt_file hitem]
      simpa using dataAt_file hitem
    · have hstays (area area' : Area) :
          ¬ spot area' directory file <+: spot area directory other := fun hstarts =>
        hother (spot_inj.mp (hstarts.eq_of_length rfl)).2.2.symm
      rw [hdata, hdata, if_neg (hstays _ _), if_neg (hstays _ _), if_neg (hstays _ _),
        if_neg (hstays _ _)]
  · intro p hcurrent harchive
    have hbelow (area : Area) : [area.name, Text.utf8 directory] <+: spot area directory file :=
      ⟨[file], rfl⟩
    rw [hdata, if_neg fun hstarts => harchive ((hbelow _).trans hstarts),
      if_neg fun hstarts => hcurrent ((hbelow _).trans hstarts)]

/-- A directory that is moved finds none in its place, or an empty one. -/
theorem Housed.shifted_directory (h : Housed s base q t) (hd : acceptable directory = true) :
    Shifted q directory t (t.rename (s.path [Area.current.name, Text.utf8 directory])
      (s.path [Area.archive.name, Text.utf8 directory])).1 := by
  rcases h.rename_cases (dotless_directory .current hd) (dotless_directory .archive hd) (by simp)
    rfl with hsame | ⟨hmoved, hdiff, -, -, hbare, -⟩
  · rw [hsame]
    exact .refl q directory t
  have hapart : ¬ [Area.current.name, Text.utf8 directory]
      <+: [Area.archive.name, Text.utf8 directory] :=
    fun hstarts => hdiff (hstarts.eq_of_length rfl)
  have hdata := h.rooted.dataAt_move (by simp) (by simp) hapart hbare
  rw [hmoved]
  constructor
  · intro file
    have hnone : t.dataAt (q ++ spot .archive directory file) = none :=
      dataAt_none (hbare [file] (List.cons_ne_nil _ _))
    have harchived (area : Area) : [Area.archive.name, Text.utf8 directory]
        <+: spot area directory file ↔ area = .archive := by
      rw [prefix_spot_iff]
      simp [eq_comm]
    have hlive : [Area.current.name, Text.utf8 directory] <+: spot .current directory file :=
      ⟨[file], rfl⟩
    rw [hdata, hdata, if_neg (by simp [harchived]), if_pos hlive, if_pos ((harchived _).mpr rfl),
      hnone, Option.none_or, Option.or_none]
    rfl
  · intro p hcurrent harchive
    rw [hdata, if_neg harchive, if_neg hcurrent]

theorem Housed.shifted_removeDir (h : Housed s base q t) (hd : acceptable directory = true) :
    Shifted q directory t
      (t.removeDir (s.path [Area.current.name, Text.utf8 directory])).1 := by
  rcases t.removeDir_cases (s.path [Area.current.name, Text.utf8 directory]) with
    ⟨x, hfound, -, herased⟩ | hsame
  · obtain ⟨rfl, hitem⟩ := h.endsAt_found (dotless_directory .current hd) (by simp) hfound
    refine .of_same fun p => ?_
    rw [herased, dataAt_erase (by simp)]
    split
    · rename_i hp
      rw [hp, dataAt_dir hitem]
    · rfl
  · rw [hsame]
    exact .refl q directory t

/-- Every step of an archive leaves the two sides as they were together. -/
theorem Housed.shifted_perform (h : Housed s base q t) {opened : Nat → Prop} {a : Action}
    (ha : (Call.archive directory).Takes s (s.known opened) a) :
    Shifted q directory t (a.perform t).1 := by
  cases ha with
  | asks hasks => cases hasks <;> exact .refl q directory t
  | archiveArea hd hx =>
    have hway : s.path [Area.archive.name] <+: s.path [Area.archive.name, Text.utf8 directory] :=
      ⟨[Text.utf8 directory], by simp [Store.path]⟩
    exact .of_same fun p => h.dataAt_makeDir hd (hx.trans hway) _
  | archiveFile hd hlisted => exact h.shifted_file hd (hlisted .current directory hd rfl)
  | archiveDirectory hd => exact h.shifted_directory hd
  | archiveEnd hd => exact h.shifted_removeDir hd

/-- Wherever an archive stops, the two sides are together as they were. -/
theorem Housed.shifted_course (h : Housed s base q t)
    (hcourse : (s.archive directory).Course t left t') :
    Housed s base q t' ∧ Shifted q directory t t' := by
  have hkeeps : ((Call.archive directory).rules s (s.known fun _ => True)).Keeps
      fun t' => Housed s base q t' ∧ Shifted q directory t t' := {
    perform := fun ⟨hhoused, hshifted⟩ ha =>
      ⟨hhoused.perform (Call.Takes.takes ha), hshifted.trans (hhoused.shifted_perform ha)⟩
    credible := fun ⟨hhoused, _⟩ ha =>
      ((Housed.keeps s base q).credible hhoused (Call.Takes.takes ha)).known }
  exact ((conforms_archive s _ directory).course hkeeps ⟨h, .refl q directory t⟩ hcourse).2

/-! ## What a whole archive leaves -/

theorem Housed.present_cases (h : Housed s base q t) (area : Area)
    (hplain : Plain (Text.utf8 directory)) :
    t.item? (q ++ [area.name, Text.utf8 directory]) = none ∧
        t.present (s.path [area.name, Text.utf8 directory]) = .ok false ∨
      t.item? (q ++ [area.name, Text.utf8 directory]) = some .dir ∧
        t.follow (s.path [area.name, Text.utf8 directory])
          = .found (q ++ [area.name, Text.utf8 directory]) .dir := by
  have hplains := area.plain_directory hplain
  by_cases hnone : t.item? (q ++ [area.name, Text.utf8 directory]) = none
  · refine .inl ⟨hnone, ?_⟩
    by_cases harea : t.item? (q ++ [area.name]) = none
    · have hway : t.follow (s.path [area.name, Text.utf8 directory]) = .failed .noEntry :=
        h.failed (p := [area.name]) (by simpa using area.plain) (by simp) harea
      rw [present, hway]
      rfl
    · have hdir := h.isDir_of_shallow (p := [area.name]) (by simp) (by simp) harea
      have hway : t.follow (s.path [area.name, Text.utf8 directory])
          = .missing (q ++ [area.name]) (Text.utf8 directory) :=
        h.missing (p := [area.name]) hplains hdir hnone
      rw [present, hway]
  · have hdir := h.isDir_of_shallow (by simp) (by simp) hnone
    exact .inr ⟨hdir, h.found (p := [area.name]) hplains hdir⟩

theorem present_of_follow {p p' : Path} {item : Item} (h : t.follow p = .found p' item) :
    t.present p = .ok true := by
  rw [present, h]

/-- A file that is retired leaves the live side; no other file of it and no directory moves. -/
theorem Housed.retire_file (h : Housed s base q t) (hd : acceptable directory = true) {number : Nat}
    (hfile : t.item? (q ++ spot .current directory file) = some (.file number))
    (harchive : t.item? (q ++ [Area.archive.name, Text.utf8 directory]) = some .dir) :
    ∃ moved, t.rename (s.path (spot .current directory file))
        (s.path (spot .archive directory file)) = (moved, .ok ()) ∧
      Housed s base q moved ∧ (∀ p, p.length ≤ 2 → moved.item? (q ++ p) = t.item? (q ++ p)) ∧
      ∀ other, moved.item? (q ++ spot .current directory other) =
        if other = file then none else t.item? (q ++ spot .current directory other) := by
  have hbelongs := h.belongs _ _ (by simp) hfile
  obtain ⟨-, -, hgiven⟩ := hbelongs.at_spot
  have hplains := (h.belongs _ _ (by simp) harchive).plain
  have hplain : ∀ name ∈ spot .archive directory file, Plain name := by
    simp [hplains Area.archive.name, hplains (Text.utf8 directory), hbelongs.plain file]
  have hdiff : spot .current directory file ≠ spot .archive directory file :=
    fun heq => absurd (spot_inj.mp heq).1 (by decide)
  have hrename := h.rename_file hbelongs.plain hplain hfile harchive hdiff
  have hmoved := h.perform (.renameFile hd (by decide) hgiven hgiven.archived)
  rw [Action.perform, hrename] at hmoved
  have hapart : ¬ spot .current directory file <+: spot .archive directory file :=
    fun hstarts => hdiff (hstarts.eq_of_length rfl)
  have hbare : ∀ y, y ≠ [] → t.item? (q ++ (spot .archive directory file ++ y)) = none := by
    intro y hy
    refine h.rooted.closed.none_below ?_ hy
    rcases h.spot_cases .archive directory file with hnone | ⟨other, hother, -⟩
    · simp [hnone]
    · simp [hother]
  have hitems := h.rooted.item?_move (by simp) (by simp) hapart hbare
  refine ⟨_, hrename, hmoved, fun p hp => ?_, fun other => ?_⟩
  · have hlong (area : Area) : ¬ spot area directory file <+: p := fun hstarts =>
      absurd hstarts.length_le (by simp; omega)
    rw [hitems, if_neg (hlong _), if_neg (hlong _)]
  · have hback : ¬ spot .archive directory file <+: spot .current directory other :=
      fun hstarts => absurd (spot_inj.mp (hstarts.eq_of_length rfl)).1 (by decide)
    rw [hitems, if_neg hback]
    by_cases hother : other = file
    · rw [hother, if_pos (List.prefix_refl _), if_pos rfl]
    · rw [if_neg hother, if_neg fun hstarts =>
        hother (spot_inj.mp (hstarts.eq_of_length rfl)).2.2.symm]

/-- All files that are listed leave the live side. -/
theorem Housed.run_moveEntries (hd : acceptable directory = true) (entries : List (Name × Bool))
    {t : FileTree} (h : Housed s base q t)
    (harchive : t.item? (q ++ [Area.archive.name, Text.utf8 directory]) = some .dir)
    (hnodup : (entries.map Prod.fst).Nodup)
    (hfiles : ∀ entry ∈ entries, ∃ number,
      t.item? (q ++ spot .current directory entry.1) = some (.file number)) :
    ∃ moved, (s.moveEntries [Area.current.name, Text.utf8 directory]
        [Area.archive.name, Text.utf8 directory] entries).run t = (moved, .ok ()) ∧
      Housed s base q moved ∧ (∀ p, p.length ≤ 2 → moved.item? (q ++ p) = t.item? (q ++ p)) ∧
      ∀ file, moved.item? (q ++ spot .current directory file) =
        if file ∈ entries.map Prod.fst then none
        else t.item? (q ++ spot .current directory file) := by
  induction entries generalizing t with
  | nil => exact ⟨t, rfl, h, fun _ _ => rfl, by simp⟩
  | cons entry rest ih =>
    obtain ⟨file, isDir⟩ := entry
    obtain ⟨hfresh, hrest⟩ := List.nodup_cons.mp hnodup
    obtain ⟨number, hfile⟩ : ∃ number,
        t.item? (q ++ spot .current directory file) = some (.file number) :=
      hfiles _ List.mem_cons_self
    obtain ⟨first, hrename, hfirst, hshallow, hlive⟩ := h.retire_file hd hfile harchive
    -- the files that are still to be moved are where they were
    have harchive' := (hshallow [Area.archive.name, Text.utf8 directory] (by simp)).trans harchive
    obtain ⟨moved, hrun, hhoused, hdirs, hgone⟩ := ih hfirst harchive' hrest
      fun other hother => by
        have hlisted : other.1 ∈ rest.map Prod.fst := List.mem_map_of_mem hother
        have hne : other.1 ≠ file := fun heq => hfresh (heq ▸ hlisted)
        rw [hlive, if_neg hne]
        exact hfiles other (List.mem_cons_of_mem _ hother)
    refine ⟨moved, ?_, hhoused, fun p hp => by rw [hdirs p hp, hshallow p hp], fun other => ?_⟩
    · rw [Store.moveEntries]
      simp only [List.cons_append, List.nil_append]
      rw [run_act_bind, Action.perform, hrename, run_bind_of_ok (run_orFail_ok _ _ _), hrun]
    · rw [hgone, hlive, List.map_cons]
      by_cases hother : other = file
      · simp [hother]
      · simp [hother]

/-- Where the directory is there on both sides, its live side is emptied and removed. -/
theorem Housed.run_merging (h : Housed s base q t) (hd : acceptable directory = true)
    (hsrc : t.item? (q ++ [Area.current.name, Text.utf8 directory]) = some .dir)
    (hdst : t.item? (q ++ [Area.archive.name, Text.utf8 directory]) = some .dir) :
    ∃ entries moved archived,
      t.list (s.path [Area.current.name, Text.utf8 directory]) = .ok entries ∧
      (s.moveEntries [Area.current.name, Text.utf8 directory]
        [Area.archive.name, Text.utf8 directory] entries).run t = (moved, .ok ()) ∧
      moved.removeDir (s.path [Area.current.name, Text.utf8 directory]) = (archived, .ok ()) ∧
      ∀ file, archived.dataAt (q ++ spot .current directory file) = none := by
  have hplain := (h.belongs _ _ (by simp) hsrc).plain
  obtain ⟨entries, hlist, hnodup, hentries⟩ := h.list (p := [Area.current.name]) hplain hsrc
  have hfiles : ∀ entry ∈ entries, ∃ number,
      t.item? (q ++ spot .current directory entry.1) = some (.file number) := by
    intro entry hentry
    obtain ⟨item, hitem, -⟩ := (hentries entry.1 entry.2).mp hentry
    obtain ⟨⟨number, rfl⟩, -⟩ := (h.belongs _ _ (by simp) hitem).at_spot
    exact ⟨number, hitem⟩
  obtain ⟨moved, hrun, hhoused, hdirs, hgone⟩ := h.run_moveEntries hd entries hdst hnodup hfiles
  have hstill : moved.item? (q ++ [Area.current.name, Text.utf8 directory]) = some .dir := by
    rw [hdirs _ (by simp), hsrc]
  -- every file was listed, so nothing is left
  have hempty : ∀ file, moved.item? (q ++ spot .current directory file) = none := by
    intro file
    rw [hgone]
    split
    · rfl
    · rename_i hunlisted
      cases hitem : t.item? (q ++ spot .current directory file) with
      | none => rfl
      | some item =>
        exact absurd (List.mem_map_of_mem ((hentries file _).mpr ⟨item, hitem, rfl⟩)) hunlisted
  have hchildren : moved.children (q ++ [Area.current.name, Text.utf8 directory]) = [] := by
    rw [children_eq_nil_iff hhoused.rooted.keyed]
    intro file
    rw [List.append_assoc]
    exact hempty file
  have hfound : moved.itself (s.path [Area.current.name, Text.utf8 directory])
      = .found (q ++ [Area.current.name, Text.utf8 directory]) .dir :=
    hhoused.found (p := [Area.current.name]) hplain hstill
  refine ⟨entries, moved, moved.erase (q ++ [Area.current.name, Text.utf8 directory]), hlist, hrun,
    ?_, fun file => ?_⟩
  · rw [FileTree.removeDir, hfound]
    simp only [hchildren, if_true]
  · rw [dataAt_erase (by simp), dataAt_none (hempty file), ite_self]

/-- Where nothing of the directory was retired before, it moves as a whole. -/
theorem Housed.retire_directory (h : Housed s base q t) (hplain : Plain (Text.utf8 directory))
    (hsrc : t.item? (q ++ [Area.current.name, Text.utf8 directory]) = some .dir)
    (harea : t.item? (q ++ [Area.archive.name]) = some .dir)
    (hnone : t.item? (q ++ [Area.archive.name, Text.utf8 directory]) = none) :
    ∃ archived, t.rename (s.path [Area.current.name, Text.utf8 directory])
        (s.path [Area.archive.name, Text.utf8 directory]) = (archived, .ok ()) ∧
      ∀ file, archived.dataAt (q ++ spot .current directory file) = none := by
  have hfound : t.itself (s.path [Area.current.name, Text.utf8 directory])
      = .found (q ++ [Area.current.name, Text.utf8 directory]) .dir :=
    h.found (p := [Area.current.name]) (Area.current.plain_directory hplain) hsrc
  have hmissing : t.itself (s.path [Area.archive.name, Text.utf8 directory])
      = .missing (q ++ [Area.archive.name]) (Text.utf8 directory) :=
    h.missing (p := [Area.archive.name]) (Area.archive.plain_directory hplain) harea hnone
  have hshort : ¬ (q ++ [Area.current.name, Text.utf8 directory])
      <+: (q ++ [Area.archive.name]) := fun hstarts => absurd hstarts.length_le (by simp)
  rw [← List.isPrefixOf_iff_prefix] at hshort
  have hrename : t.rename (s.path [Area.current.name, Text.utf8 directory])
        (s.path [Area.archive.name, Text.utf8 directory])
      = (t.move (q ++ [Area.current.name, Text.utf8 directory])
          (q ++ [Area.archive.name, Text.utf8 directory]), .ok ()) := by
    rw [FileTree.rename, hfound, hmissing]
    simp only [and_true, if_neg hshort, List.append_assoc, List.singleton_append]
  have hapart : ¬ [Area.current.name, Text.utf8 directory]
      <+: [Area.archive.name, Text.utf8 directory] := fun hstarts =>
    current_ne_archive (List.cons.inj (hstarts.eq_of_length rfl)).1
  refine ⟨_, hrename, fun file => ?_⟩
  rw [h.rooted.dataAt_move (by simp) (by simp) hapart
    fun y hy => h.rooted.closed.none_below (by simp [hnone]) hy,
    if_neg (by rw [prefix_spot_iff]; simp), if_pos (prefix_spot_iff.mpr ⟨rfl, rfl⟩)]

/-- An archive that nothing disturbs goes through, and leaves nothing on the live side. -/
theorem Housed.run_archive (h : Housed s base q t) (hd : acceptable directory = true)
    (hplain : Plain (Text.utf8 directory)) :
    ∃ archived, (s.archive directory).run t = (archived, .ok ()) ∧
      ∀ file, archived.dataAt (q ++ spot .current directory file) = none := by
  rcases h.present_cases .current hplain with ⟨hnone, hpresent⟩ | ⟨hdir, hfollow⟩
  · refine ⟨t, run_archive_of_absent hd hpresent, fun file => dataAt_none ?_⟩
    have hdir : t.item? (q ++ [Area.current.name, Text.utf8 directory]) ≠ some .dir := by
      simp [hnone]
    exact h.rooted.closed.none_below hdir (List.cons_ne_nil file [])
  have hpresent := present_of_follow hfollow
  have hway : s.path [Area.archive.name] <+: s.path [Area.archive.name, Text.utf8 directory] :=
    ⟨[Text.utf8 directory], by simp [Store.path]⟩
  have hmake := h.run_makeDirs [Area.archive.name] (by simpa using Area.plain .archive) (by simp)
  have hmade := ((prepares_makeDirs s [Area.archive.name]).within hd hway).run
    (Housed.keeps s base q) h
  have harchive : (t.planted q [Area.archive.name]).item? (reached q [Area.archive.name])
      = some .dir := isDir_planted (h.clear (by simp)) h.dir
  have hdir' := extends_planted t q [Area.archive.name] _ _ hdir
  rw [reached_down Area.archive.plain.not_here, reached_nil] at harchive
  rw [hmake] at hmade
  generalize t.planted q [Area.archive.name] = made at hmake hmade harchive hdir'
  rcases hmade.present_cases .archive hplain with ⟨hnone, hpresent'⟩ | ⟨hdst, hfollow'⟩
  · obtain ⟨archived, hrename, hgone⟩ := hmade.retire_directory hplain hdir' harchive hnone
    refine ⟨archived, ?_, hgone⟩
    rw [run_archive_of_present hd hpresent hmake hpresent', if_neg (by simp), run_act_bind,
      Action.perform, hrename, run_orFail_ok]
  · have hrun := run_archive_of_present hd hpresent hmake (present_of_follow hfollow')
    obtain ⟨entries, moved, archived, hlist, hmove, hremove, hgone⟩ :=
      hmade.run_merging hd hdir' hdst
    refine ⟨archived, ?_, hgone⟩
    rw [hrun, if_pos rfl]
    dsimp only
    rw [run_act_bind, Action.perform, hlist, run_bind_of_ok (run_orFail_ok _ _ _),
      run_bind_of_ok hmove, run_act_bind, Action.perform, hremove, run_orFail_ok]

/-! ## Making an archive again -/

/-- Only files of the store have contents. -/
theorem Housed.dataAt_cases (h : Housed s base q t) (p : Path) :
    t.dataAt (q ++ p) = none ∨ ∃ area directory file, p = spot area directory file := by
  by_cases hp : p = []
  · rw [hp, List.append_nil, dataAt_dir h.dir]
    exact .inl rfl
  · cases hitem : t.item? (q ++ p) with
    | none => exact .inl (dataAt_none hitem)
    | some item =>
      cases h.belongs p item hp hitem with
      | area _ => exact .inl (dataAt_dir hitem)
      | directory _ _ _ => exact .inl (dataAt_dir hitem)
      | file _ _ _ _ _ => exact .inr ⟨_, _, _, rfl⟩

/-- Once nothing is left on the live side, only what both sides held together counts. -/
theorem Housed.dataAt_of_shifted (h : Housed s base q t') (h' : Housed s base q t'')
    (hshifted : Shifted q directory t t') (hshifted' : Shifted q directory t t'')
    (hgone : ∀ file, t'.dataAt (q ++ spot .current directory file) = none)
    (hgone' : ∀ file, t''.dataAt (q ++ spot .current directory file) = none) (p : Path) :
    t''.dataAt (q ++ p) = t'.dataAt (q ++ p) := by
  have hspot (area : Area) (directory' : String) (file : Name) :
      t''.dataAt (q ++ spot area directory' file) = t'.dataAt (q ++ spot area directory' file) := by
    by_cases hcurrent : [Area.current.name, Text.utf8 directory] <+: spot area directory' file
    · obtain ⟨rfl, rfl⟩ := prefix_spot_iff.mp hcurrent
      rw [hgone, hgone']
    by_cases harchive : [Area.archive.name, Text.utf8 directory] <+: spot area directory' file
    · obtain ⟨rfl, rfl⟩ := prefix_spot_iff.mp harchive
      have hmerged := (hshifted'.merged file).trans (hshifted.merged file).symm
      rwa [hgone, hgone', Option.none_or, Option.none_or] at hmerged
    · rw [hshifted'.others _ hcurrent harchive, hshifted.others _ hcurrent harchive]
  rcases h.dataAt_cases p with hnone | ⟨area, directory', file, rfl⟩
  · rcases h'.dataAt_cases p with hnone' | ⟨area, directory', file, rfl⟩
    · rw [hnone, hnone']
    · exact hspot area directory' file
  · exact hspot area directory' file

theorem Housed.resumes (h : Housed s base q t) (hd : acceptable directory = true)
    (hplain : Plain (Text.utf8 directory))
    (hcourse : (s.archive directory).Course t left t') : s.Resumes directory t t' := by
  obtain ⟨hhoused, hshifted⟩ := h.shifted_course hcourse
  obtain ⟨archived, hrun, hgone⟩ := h.run_archive hd hplain
  obtain ⟨archived', hrun', hgone'⟩ := hhoused.run_archive hd hplain
  -- both whole archives are courses too
  obtain ⟨hdone, hshiftedDone⟩ := h.shifted_course (course_run (s.archive directory) t)
  obtain ⟨hdone', hshiftedDone'⟩ := hhoused.shifted_course (course_run (s.archive directory) t')
  have hdotless {area : Area} {file : Name} (hfile : Dotless [file]) :
      Dotless (spot area directory file) :=
    List.forall_mem_append.mpr ⟨dotless_directory area hd, hfile⟩
  rw [hrun] at hdone hshiftedDone
  rw [hrun'] at hdone' hshiftedDone'
  refine ⟨fun file data hfile hdata => ?_, fun names hnames hne hcurrent harchive => ?_,
    fun names hnames hne => ?_, by rw [hrun, hrun']⟩
  · rw [hhoused.contentAt_eq (hdotless hfile) (by simp),
      hhoused.contentAt_eq (hdotless hfile) (by simp)]
    rw [hrun, hdone.contentAt_eq (hdotless hfile) (by simp)] at hdata
    have hmerged := (hshifted.merged file).trans (hshiftedDone.merged file).symm
    rw [hgone, Option.none_or, hdata] at hmerged
    cases hlive : t'.dataAt (q ++ spot .current directory file) with
    | none =>
      rw [hlive, Option.none_or] at hmerged
      exact .inr hmerged
    | some live =>
      rw [hlive, Option.some_or] at hmerged
      exact .inl hmerged
  · rw [hhoused.contentAt_eq hnames hne, h.contentAt_eq hnames hne,
      hshifted.others names hcurrent harchive]
  · rw [hrun, hrun', hdone'.contentAt_eq hnames hne, hdone.contentAt_eq hnames hne]
    exact hdone.dataAt_of_shifted hdone' hshiftedDone (hshifted.trans hshiftedDone') hgone hgone' _

/-- An archive that finds nothing to move leaves the tree alone, and so does whatever part of it. -/
theorem resumes_of_same (hrun : ((s.archive directory).run t).1 = t) (hsame : t' = t) :
    s.Resumes directory t t' := by
  rw [hsame]
  refine ⟨fun file data _ hdata => .inr ?_, fun _ _ _ _ _ => rfl, fun _ _ _ => rfl, rfl⟩
  rwa [hrun] at hdata

/-- An archive asks first whether its directory is there; with no for an answer, or with none,
nothing follows. -/
theorem archive_asks (s : Store) (hd : acceptable directory = true) :
    ∃ next : Except OsError Bool → Program Unit,
      s.archive directory
          = .step (.present (s.path [Area.current.name, Text.utf8 directory])) next ∧
        ∀ reply, reply ≠ .ok true → ∃ outcome, next reply = .done outcome := by
  rw [Store.archive, Store.checkName, if_pos hd]
  refine ⟨_, rfl, fun reply hreply => ?_⟩
  cases reply with
  | error cause => exact ⟨_, rfl⟩
  | ok there =>
    cases there with
    | false => exact ⟨_, rfl⟩
    | true => exact absurd rfl hreply

theorem resumes_of_absent (hd : acceptable directory = true)
    (habsent : t.present (s.path [Area.current.name, Text.utf8 directory]) ≠ .ok true)
    (hcourse : (s.archive directory).Course t left t') : s.Resumes directory t t' := by
  obtain ⟨next, hasks, hends⟩ := archive_asks s hd
  refine resumes_of_same ?_ ?_
  · obtain ⟨outcome, houtcome⟩ := hends _ habsent
    rw [hasks, Program.run, Action.perform]
    dsimp only
    rw [houtcome, Program.run]
  · rw [hasks] at hcourse
    cases hcourse with
    | stop => rfl
    | step hadvances hrest =>
      cases hadvances with
      | performed =>
        obtain ⟨outcome, houtcome⟩ := hends _ habsent
        have hdone : (Program.done outcome).Course t left t' := houtcome ▸ hrest
        exact hdone.of_done.2
      | refused hrefuse =>
        obtain rfl := Option.some.inj hrefuse
        obtain ⟨outcome, houtcome⟩ := hends (.error _) (by simp)
        rw [houtcome] at hrest
        exact hrest.of_done.2

theorem resumes_of_refused (hd : acceptable directory = false)
    (hcourse : (s.archive directory).Course t left t') : s.Resumes directory t t' := by
  have hdone : s.archive directory = .done (.error (.invalidName directory longestRecordName)) := by
    rw [Store.archive, Store.checkName, if_neg (by simp [hd])]
    rfl
  refine resumes_of_same (by rw [hdone, Program.run]) ?_
  rw [hdone] at hcourse
  exact hcourse.of_done.2

/-- An archive of a reachable store loses nothing wherever it stops, and can be made again. -/
theorem Store.Reached.archive_resumes {calls : List (Program Answer)} (h : s.Reached t calls)
    (hcourse : (s.archive directory).Course t left t') : s.Resumes directory t t' := by
  by_cases hd : acceptable directory = true
  · rcases h.standing.1 with ⟨-, hmissing⟩ | hhoused
    · refine resumes_of_absent hd ?_ hcourse
      rw [present, follow, hmissing.locate true (by simp)]
      simp
    · by_cases hshort : (Text.utf8 directory).length ≤ longestName
      · exact hhoused.resumes hd (plain_of_head (acceptable_head hd) hshort) hcourse
      · -- the system does not even take the name
        have hunarrived := hhoused.plain_of_arrives (dotless_directory .current hd) true
        refine resumes_of_absent hd (fun hpresent => ?_) hcourse
        rw [present, follow] at hpresent
        cases hlocated : t.locate true mostLinks []
            (s.path [Area.current.name, Text.utf8 directory]) with
        | found _ _ =>
          rw [hlocated] at hunarrived
          exact hshort (hunarrived rfl _ (by simp)).short
        | missing _ _ => simp [hlocated] at hpresent
        | failed cause =>
          simp only [hlocated] at hpresent
          split at hpresent <;> exact absurd hpresent (by simp)
  · exact resumes_of_refused (Bool.not_eq_true _ ▸ hd) hcourse

end

/-- A store that made these calls one after the other. -/
def Store.after (s : Store) (calls : List Call) (t : FileTree) : FileTree :=
  calls.foldl (fun t call => ((call.program s).run t).1) t

theorem Store.Reached.after {s : Store} (calls : List Call) {t : FileTree}
    {others : List (Program Answer)} (h : s.Reached t others) :
    ∃ others, s.Reached (s.after calls t) others := by
  induction calls generalizing t others with
  | nil => exact ⟨others, h⟩
  | cons call rest ih => exact ih ((h.call call).course (i := 0) rfl (course_run _ _))

/-- One record was retired before; it is there again, and so is another one. -/
def halfRetired : FileTree :=
  dataStore.after [.save [[65]] "books" "a", .archive "books", .save [[66]] "books" "a",
    .save [[67]] "books" "b"] .empty

/-- An archive that stops between the two records. -/
def betweenRecords : FileTree := ((dataStore.archive "books").runSteps 6 halfRetired).1

/-- One record is retired, the other is still live, and the next archive does the rest. -/
theorem archive_between_records :
    (∃ calls, dataStore.Reached halfRetired calls) ∧
      dataStore.contentAt betweenRecords (spot .archive "books" (Text.utf8 "a")) = some [66] ∧
      dataStore.contentAt betweenRecords (spot .current "books" (Text.utf8 "b")) = some [67] ∧
      dataStore.Resumes "books" halfRetired betweenRecords := by
  have hempty : dataStore.Reached .empty [] := .start proper_empty (.inr missing_dataStore)
  obtain ⟨calls, hreached⟩ : ∃ calls, dataStore.Reached halfRetired calls := hempty.after _
  have hretired : dataStore.contentAt betweenRecords (spot .archive "books" (Text.utf8 "a"))
      = some [66] := by cbv
  have hlive : dataStore.contentAt betweenRecords (spot .current "books" (Text.utf8 "b"))
      = some [67] := by cbv
  exact ⟨⟨calls, hreached⟩, hretired, hlive,
    Store.Reached.archive_resumes hreached (course_runSteps _ _ 6)⟩

end ChainWatch.Storage
