import ChainWatch.Proofs.Storage.Places

/-!
# Taking records away

A delete takes one record away or, where there is none, leaves the tree alone. An archive takes
away all records of a directory; afterwards they are among the retired ones, in place of those with
their names. It moves the whole directory if none was retired under its name, else file by file.
-/

namespace ChainWatch.Storage

open FileTree Program

section

variable {s : Store} {base t : FileTree} {q : Path} {area : Area} {directory name : String}
  {file file' : Name} {item : Item}

/-! ## Deleting -/

theorem run_delete_of_unlink {after : FileTree} {reply : Except OsError Unit}
    (hd : Fitting directory) (hn : Fitting name)
    (hunlink : t.unlink (s.path (spot .current directory (Text.utf8 name))) = (after, reply)) :
    (s.delete directory name).run t
      = (orFail (s.failure (spot .current directory (Text.utf8 name))) reply).run after := by
  rw [Store.delete, run_checkNames hn.acceptable hd.acceptable]
  dsimp only
  rw [run_act_bind, Action.perform, hunlink]

theorem Home.run_delete (hhome : Home s base q) (h : Stocked base q t) (hd : Fitting directory)
    (hn : Fitting name) :
    t.dataAt (q ++ spot .current directory (Text.utf8 name)) = none ∧
        (s.delete directory name).run t
          = (t, .error (s.failure (spot .current directory (Text.utf8 name)) .noEntry)) ∨
      t.dataAt (q ++ spot .current directory (Text.utf8 name)) ≠ none ∧
        ∃ deleted, (s.delete directory name).run t = (deleted, .ok ()) ∧ Stocked base q deleted ∧
          ∀ p, deleted.dataAt (q ++ p) =
            if p = spot .current directory (Text.utf8 name) then none else t.dataAt (q ++ p) := by
  rcases h.spot_cases .current directory (Text.utf8 name) with
    ⟨hnone, hdata⟩ | ⟨number, hfile, hdata, -⟩
  · refine .inl ⟨hdata, ?_⟩
    have hunlink : t.unlink (s.path (spot .current directory (Text.utf8 name)))
        = (t, .error .noEntry) := by
      rcases h.directory_cases .current directory with hdir | hdir
      · rw [unlink, itself, hhome.spot_failed h hd hdir]
      · rw [unlink, itself, hhome.spot_missing h hd hn.plain hdir hnone]
    rw [run_delete_of_unlink hd hn hunlink, run_orFail_error]
  · refine .inr ⟨by simp [hdata], t.erase (q ++ spot .current directory (Text.utf8 name)), ?_, ?_,
      ?_⟩
    · have hunlink : t.unlink (s.path (spot .current directory (Text.utf8 name)))
          = (t.erase (q ++ spot .current directory (Text.utf8 name)), .ok ()) := by
        rw [unlink, itself, hhome.spot_found h hd hn.plain hfile]
      rw [run_delete_of_unlink hd hn hunlink, run_orFail_ok]
    · exact h.erase (by simp) fun below => h.closed.none_below (by simp [hfile]) (by simp)
    · intro p
      rw [dataAt_erase (by simp)]
      simp only [List.append_cancel_left_eq]

/-! ## Directories -/

theorem Kept.length_le {p : Path} (h : Kept p item) : p.length ≤ 3 := by
  cases h <;> simp

/-- What was kept of live records may be kept of retired ones. -/
theorem FileName.archived (h : FileName .current file) : FileName .archive file := by
  cases h with
  | record _ hname => exact .record (by decide) hname
  | temporary _ hname => exact .temporary (by decide) hname

theorem Kept.archived (hd : Fitting directory) {rest : Path}
    (h : Kept ([Area.current.name, Text.utf8 directory] ++ rest) item) :
    Kept ([Area.archive.name, Text.utf8 directory] ++ rest) item := by
  have hlength := h.length_le
  match rest with
  | [] =>
    rw [h.eq_dir (by simp)]
    exact .directory .archive hd
  | [last] =>
    obtain ⟨⟨number, rfl⟩, hname⟩ := h.at_spot
    exact .file number hd hname.archived
  | _ :: _ :: _ =>
    simp only [List.length_append, List.length_cons] at hlength
    omega

section Directory

variable (hhome : Home s base q) (h : Stocked base q t) (hd : Fitting directory)
include hhome h hd

theorem Home.present_directory
    (hdir : t.item? (q ++ [area.name, Text.utf8 directory]) = some .dir) :
    t.present (s.path [area.name, Text.utf8 directory]) = .ok true := by
  rw [present, follow, hhome.directory_found h hd hdir]

theorem Home.present_directory_none
    (hnone : t.item? (q ++ [area.name, Text.utf8 directory]) = none) :
    t.present (s.path [area.name, Text.utf8 directory]) = .ok false := by
  cases harea : t.item? (q ++ [area.name]) with
  | none =>
    have hway : t.follow (s.path [area.name, Text.utf8 directory]) = .failed .noEntry :=
      hhome.failed h (p := [area.name]) (by simpa using area.plain) (by simp) harea
    rw [present, hway]
    rfl
  | some item =>
    have hdir : t.item? (q ++ [area.name]) = some .dir := by
      rw [harea, (h.kept _ _ (by simp) harea).eq_dir (by simp)]
    have hway : t.follow (s.path [area.name, Text.utf8 directory])
        = .missing (q ++ [area.name]) (Text.utf8 directory) :=
      hhome.missing h (p := [area.name]) (plain_directory hd) hdir hnone
    rw [present, hway]

/-- A directory and all its files take a place where nothing is, in another area. -/
theorem Home.rename_directory
    (hdir : t.item? (q ++ [Area.current.name, Text.utf8 directory]) = some .dir)
    (harchive : t.item? (q ++ [Area.archive.name]) = some .dir)
    (hnone : t.item? (q ++ [Area.archive.name, Text.utf8 directory]) = none) :
    ∃ renamed, t.rename (s.path [Area.current.name, Text.utf8 directory])
        (s.path [Area.archive.name, Text.utf8 directory]) = (renamed, .ok ()) ∧
      Stocked base q renamed ∧
      ∀ p, renamed.dataAt (q ++ p) =
        if [Area.archive.name, Text.utf8 directory] <+: p
        then t.dataAt (q ++ ([Area.current.name, Text.utf8 directory] ++ p.drop 2))
        else if [Area.current.name, Text.utf8 directory] <+: p then none
        else t.dataAt (q ++ p) := by
  have hareas : Area.current.name ≠ Area.archive.name := fun heq =>
    absurd (Area.name_injective heq) (by decide)
  have hapart : ¬ [Area.current.name, Text.utf8 directory]
      <+: [Area.archive.name, Text.utf8 directory] := by
    intro hstarts
    have heq := hstarts.eq_of_length rfl
    exact hareas (List.cons.inj heq).1
  have hbare : ∀ y, y ≠ [] →
      t.item? (q ++ ([Area.archive.name, Text.utf8 directory] ++ y)) = none :=
    fun y hy => h.closed.none_below (by simp [hnone]) hy
  have hkept : ∀ y item,
      t.item? (q ++ ([Area.current.name, Text.utf8 directory] ++ y)) = some item →
      Kept ([Area.archive.name, Text.utf8 directory] ++ y) item :=
    fun y item hitem => (h.kept _ _ (by simp) hitem).archived hd
  refine ⟨t.move (q ++ [Area.current.name, Text.utf8 directory])
    (q ++ [Area.archive.name, Text.utf8 directory]), ?_, ?_, ?_⟩
  · have hmissing : t.itself (s.path [Area.archive.name, Text.utf8 directory])
        = .missing (q ++ [Area.archive.name]) (Text.utf8 directory) :=
      hhome.missing h (p := [Area.archive.name]) (plain_directory hd) harchive hnone
    have hshort : ¬ (q ++ [Area.current.name, Text.utf8 directory])
        <+: (q ++ [Area.archive.name]) :=
      fun hstarts => absurd hstarts.length_le (by simp)
    rw [← List.isPrefixOf_iff_prefix] at hshort
    rw [rename, hmissing, itself, hhome.directory_found h hd hdir]
    simp only [and_true, if_neg hshort, List.append_assoc, List.singleton_append]
  · exact Stocked.move [Area.archive.name] (by simp) hapart hbare h harchive hkept
  · exact h.rooted.dataAt_move (by simp) (by simp) hapart hbare

end Directory

/-! ## Archiving -/

theorem prefix_spot_iff {area area' : Area} {directory directory' : String} {file : Name} :
    [area.name, Text.utf8 directory] <+: spot area' directory' file
      ↔ area = area' ∧ directory = directory' := by
  constructor
  · rintro ⟨rest, hrest⟩
    simp only [List.cons_append, List.nil_append, List.cons.injEq] at hrest
    exact ⟨Area.name_injective hrest.1, Text.utf8_injective hrest.2.1⟩
  · rintro ⟨rfl, rfl⟩
    exact ⟨[file], rfl⟩

theorem spot_ne (hne : file ≠ file') (area area' : Area) (directory directory' : String) :
    spot area directory file ≠ spot area' directory' file' := fun heq =>
  hne (spot_inj.mp heq).2.2

/-- All entries of a directory move to another one, in front of those with their names. -/
theorem Home.run_moveEntries (hhome : Home s base q) (hd : Fitting directory)
    (entries : List (Name × Bool)) {t : FileTree} (h : Stocked base q t)
    (harchive : t.item? (q ++ [Area.archive.name, Text.utf8 directory]) = some .dir)
    (hnodup : (entries.map Prod.fst).Nodup)
    (hfiles : ∀ entry ∈ entries, t.dataAt (q ++ spot .current directory entry.1) ≠ none) :
    ∃ moved, (s.moveEntries [Area.current.name, Text.utf8 directory]
        [Area.archive.name, Text.utf8 directory] entries).run t = (moved, .ok ()) ∧
      Stocked base q moved ∧ (∀ p, p.length ≤ 2 → moved.item? (q ++ p) = t.item? (q ++ p)) ∧
      (∀ file ∈ entries.map Prod.fst,
        moved.dataAt (q ++ spot .current directory file) = none ∧
        moved.dataAt (q ++ spot .archive directory file)
          = t.dataAt (q ++ spot .current directory file)) ∧
      ∀ p, (∀ file ∈ entries.map Prod.fst,
          p ≠ spot .current directory file ∧ p ≠ spot .archive directory file) →
        moved.dataAt (q ++ p) = t.dataAt (q ++ p) := by
  induction entries generalizing t with
  | nil => exact ⟨t, rfl, h, fun _ _ => rfl, by simp, fun _ _ => rfl⟩
  | cons entry rest ih =>
    obtain ⟨file, isDir⟩ := entry
    obtain ⟨hfresh, hrest⟩ := List.nodup_cons.mp hnodup
    rcases h.spot_cases .current directory file with ⟨-, hnone⟩ | ⟨number, hfile, -, hname⟩
    · exact absurd hnone (hfiles _ List.mem_cons_self)
    have hplain := hname.plain
    have hne : spot .current directory file ≠ spot .archive directory file :=
      fun heq => absurd (spot_inj.mp heq).1 (by decide)
    obtain ⟨renamed, hrename, hrenamed, hdirs, hdata⟩ :=
      hhome.rename_file h hd hd hplain hplain hname.archived hfile harchive hne
    -- the files that are still to be moved are where they were
    have hstay : ∀ other ∈ rest.map Prod.fst, ∀ area,
        renamed.dataAt (q ++ spot area directory other)
          = t.dataAt (q ++ spot area directory other) := by
      intro other hother area
      have hother' : other ≠ file := fun heq => hfresh (heq ▸ hother)
      rw [hdata, if_neg (spot_ne hother' _ _ _ _), if_neg (spot_ne hother' _ _ _ _)]
    obtain ⟨moved, hrun, hmoved, hdirs', hlisted, hothers⟩ := ih hrenamed
      (by rw [hdirs _ (by simp)]; exact harchive) hrest (by
        intro other hother
        rw [hstay other.1 (List.mem_map_of_mem hother)]
        exact hfiles other (List.mem_cons_of_mem _ hother))
    refine ⟨moved, ?_, hmoved, fun p hp => by rw [hdirs' p hp, hdirs p hp], ?_, ?_⟩
    · rw [Store.moveEntries]
      simp only [List.cons_append, List.nil_append]
      rw [run_act_bind, Action.perform, hrename, run_bind_of_ok (run_orFail_ok _ _ _), hrun]
    · intro other hother
      rcases List.mem_cons.mp hother with rfl | hother
      · have hdone (area : Area) : moved.dataAt (q ++ spot area directory other)
            = renamed.dataAt (q ++ spot area directory other) := by
          refine hothers _ fun another hanother => ?_
          have hother' : other ≠ another := fun heq => hfresh (heq ▸ hanother)
          exact ⟨spot_ne hother' _ _ _ _, spot_ne hother' _ _ _ _⟩
        rw [hdone, hdone, hdata, hdata, if_neg hne, if_pos rfl, if_pos rfl]
        exact ⟨rfl, rfl⟩
      · rw [(hlisted other hother).1, (hlisted other hother).2, hstay other hother]
        exact ⟨rfl, rfl⟩
    · intro p hp
      obtain ⟨hcurrent, harchived⟩ := hp file List.mem_cons_self
      rw [hothers p fun other hother => hp other (List.mem_cons_of_mem _ hother), hdata,
        if_neg harchived, if_neg hcurrent]

/-- The records of a directory are retired, in front of those retired before; all else is as it
was. -/
structure Retired (t : FileTree) (q : Path) (directory : String) (archived : FileTree) : Prop where
  live : ∀ file, archived.dataAt (q ++ spot .current directory file) = none
  retired : ∀ file, archived.dataAt (q ++ spot .archive directory file)
    = (t.dataAt (q ++ spot .current directory file)).or
        (t.dataAt (q ++ spot .archive directory file))
  others : ∀ area directory' file, area = .snapshot ∨ directory' ≠ directory →
    archived.dataAt (q ++ spot area directory' file) = t.dataAt (q ++ spot area directory' file)

theorem other_place {directory' : String} (h : area = .snapshot ∨ directory' ≠ directory)
    {area' : Area} (harea : area' ≠ .snapshot) : ¬ (area' = area ∧ directory = directory') := by
  rintro ⟨rfl, rfl⟩
  exact h.elim harea fun hne => hne rfl

/-- What is retired depends only on the files. -/
theorem Retired.congr {t' archived archived' : FileTree} (h : Retired t q directory archived)
    (hbefore : ∀ area directory' file,
      t.dataAt (q ++ spot area directory' file) = t'.dataAt (q ++ spot area directory' file))
    (hafter : ∀ area directory' file, archived'.dataAt (q ++ spot area directory' file)
      = archived.dataAt (q ++ spot area directory' file)) : Retired t' q directory archived' where
  live file := by rw [hafter, h.live]
  retired file := by rw [hafter, h.retired, hbefore, hbefore]
  others area directory' file hother := by rw [hafter, h.others _ _ _ hother, hbefore]

theorem Stocked.dataAt_spot_none (h : Stocked base q t)
    (hnone : t.item? (q ++ [area.name, Text.utf8 directory]) = none) (file : Name) :
    t.dataAt (q ++ spot area directory file) = none :=
  dataAt_none (h.closed.none_below (p := [area.name, Text.utf8 directory]) (by simp [hnone])
    (List.cons_ne_nil file []))

theorem run_archive_of_absent (hd : acceptable directory = true)
    (hsrc : t.present (s.path [Area.current.name, Text.utf8 directory]) = .ok false) :
    (s.archive directory).run t = (t, .ok ()) := by
  rw [Store.archive, run_bind_of_ok (run_checkName hd t)]
  dsimp only
  rw [run_act_bind, Action.perform, hsrc, run_bind_of_ok (run_orFail_ok _ _ _)]
  rfl

theorem run_archive_of_present {made : FileTree} {there : Bool}
    (hd : acceptable directory = true)
    (hsrc : t.present (s.path [Area.current.name, Text.utf8 directory]) = .ok true)
    (hmake : (s.makeDirs [Area.archive.name]).run t = (made, .ok ()))
    (hdst : made.present (s.path [Area.archive.name, Text.utf8 directory]) = .ok there) :
    (s.archive directory).run t =
      (if there then do
        let src := [Area.current.name, Text.utf8 directory]
        let entries ← orFail (s.failure src) (← act (.list (s.path src)))
        s.moveEntries src [Area.archive.name, Text.utf8 directory] entries
        orFail (s.failure src) (← act (.removeDir (s.path src)))
      else do
        let dst := [Area.archive.name, Text.utf8 directory]
        orFail (s.failure dst)
          (← act (.rename (s.path [Area.current.name, Text.utf8 directory]) (s.path dst)))).run
        made := by
  rw [Store.archive, run_bind_of_ok (run_checkName hd t)]
  dsimp only
  rw [run_act_bind, Action.perform, hsrc, run_bind_of_ok (run_orFail_ok _ _ _), if_pos rfl,
    run_bind_of_ok hmake, run_act_bind, Action.perform, hdst, run_bind_of_ok (run_orFail_ok _ _ _)]

section Merging

variable (hhome : Home s base q) (h : Stocked base q t) (hd : Fitting directory)
  (hsrc : t.item? (q ++ [Area.current.name, Text.utf8 directory]) = some .dir)
  (hdst : t.item? (q ++ [Area.archive.name, Text.utf8 directory]) = some .dir)
include hhome h hd hsrc hdst

/-- Where the directory is there on both sides, moving all of its files retires its records. -/
theorem Home.run_moveListed :
    ∃ entries moved, t.list (s.path [Area.current.name, Text.utf8 directory]) = .ok entries ∧
      (s.moveEntries [Area.current.name, Text.utf8 directory]
        [Area.archive.name, Text.utf8 directory] entries).run t = (moved, .ok ()) ∧
      Stocked base q moved ∧
      moved.item? (q ++ [Area.current.name, Text.utf8 directory]) = some .dir ∧
      Retired t q directory moved := by
  obtain ⟨entries, hlist, hnodup, hentries⟩ := hhome.list_directory h hd hsrc
  have hfiles : ∀ entry ∈ entries, t.dataAt (q ++ spot .current directory entry.1) ≠ none :=
    fun entry hentry => (hentries entry.1).mp (List.mem_map_of_mem hentry)
  obtain ⟨moved, hmove, hmoved, hdirs, hdone, hothers⟩ :=
    hhome.run_moveEntries hd entries h hdst hnodup hfiles
  have hunlisted : ∀ file, file ∉ entries.map Prod.fst →
      t.dataAt (q ++ spot .current directory file) = none ∧ ∀ area,
        moved.dataAt (q ++ spot area directory file)
          = t.dataAt (q ++ spot area directory file) := by
    intro file hfile
    refine ⟨Classical.not_not.mp fun hsome => hfile ((hentries file).mpr hsome), fun area => ?_⟩
    refine hothers _ fun other hother => ?_
    have hne : file ≠ other := fun heq => hfile (heq ▸ hother)
    exact ⟨spot_ne hne _ _ _ _, spot_ne hne _ _ _ _⟩
  refine ⟨entries, moved, hlist, hmove, hmoved, by rw [hdirs _ (by simp), hsrc], ?_, ?_, ?_⟩
  · intro file
    by_cases hfile : file ∈ entries.map Prod.fst
    · exact (hdone file hfile).1
    · rw [(hunlisted file hfile).2, (hunlisted file hfile).1]
  · intro file
    by_cases hfile : file ∈ entries.map Prod.fst
    · obtain ⟨data, hdata⟩ := Option.ne_none_iff_exists'.mp ((hentries file).mp hfile)
      rw [(hdone _ hfile).2, hdata, Option.some_or]
    · rw [(hunlisted file hfile).2, (hunlisted file hfile).1, Option.none_or]
  · intro area directory' file hother
    refine hothers _ fun other _ => ⟨fun heq => ?_, fun heq => ?_⟩
    · obtain ⟨rfl, rfl, -⟩ := spot_inj.mp heq
      exact other_place hother (by decide) ⟨rfl, rfl⟩
    · obtain ⟨rfl, rfl, -⟩ := spot_inj.mp heq
      exact other_place hother (by decide) ⟨rfl, rfl⟩

/-- The files of the directory move one by one, and the empty rest goes. -/
theorem Home.retire_merging :
    ∃ entries moved archived,
      t.list (s.path [Area.current.name, Text.utf8 directory]) = .ok entries ∧
      (s.moveEntries [Area.current.name, Text.utf8 directory]
        [Area.archive.name, Text.utf8 directory] entries).run t = (moved, .ok ()) ∧
      moved.removeDir (s.path [Area.current.name, Text.utf8 directory]) = (archived, .ok ()) ∧
      Stocked base q archived ∧ Retired t q directory archived := by
  obtain ⟨entries, moved, hlist, hmove, hmoved, hstill, hretired⟩ :=
    hhome.run_moveListed h hd hsrc hdst
  have hempty : ∀ file, moved.item? (q ++ spot .current directory file) = none := by
    intro file
    rcases hmoved.spot_cases .current directory file with ⟨hitem, -⟩ | ⟨number, -, hdata, -⟩
    · exact hitem
    · rw [hretired.live file] at hdata
      exact absurd hdata (by simp)
  have hchildren : moved.children (q ++ [Area.current.name, Text.utf8 directory]) = [] := by
    rw [children_eq_nil_iff hmoved.keyed]
    intro file
    rw [List.append_assoc]
    exact hempty file
  refine ⟨entries, moved, moved.erase (q ++ [Area.current.name, Text.utf8 directory]), hlist, hmove,
    ?_, hmoved.erase (by simp) hempty, hretired.congr (fun _ _ _ => rfl) ?_⟩
  · rw [removeDir, itself, hhome.directory_found hmoved hd hstill]
    simp only [hchildren, if_true]
  · intro area directory' file
    rw [dataAt_erase (by simp), if_neg]
    intro heq
    exact absurd (List.append_cancel_left heq) (by simp)

end Merging

/-- An archive never fails, and nothing is lost by it. -/
theorem Home.run_archive (hhome : Home s base q) (h : Stocked base q t) (hd : Fitting directory) :
    ∃ archived, (s.archive directory).run t = (archived, .ok ()) ∧ Stocked base q archived ∧
      Retired t q directory archived := by
  rcases h.directory_cases .current directory with hnone | hdir
  · -- there is nothing to retire
    have hpresent := hhome.present_directory_none h hd hnone
    refine ⟨t, run_archive_of_absent hd.acceptable hpresent, h, h.dataAt_spot_none hnone,
      fun file => ?_, fun _ _ _ _ => rfl⟩
    rw [h.dataAt_spot_none hnone, Option.none_or]
  have hpresent := hhome.present_directory h hd hdir
  have hmake := hhome.run_makeDirs h [Area.archive.name] (by simpa using Area.plain .archive)
    (by simp)
  obtain ⟨hmade, hitems, hsame⟩ := hhome.stocked_planted_area h .archive
  generalize t.planted q [Area.archive.name] = made at hmake hmade hitems hsame
  have hdir' : made.item? (q ++ [Area.current.name, Text.utf8 directory]) = some .dir := by
    rw [hitems, if_neg (by simp), hdir]
  have harchive : made.item? (q ++ [Area.archive.name]) = some .dir := by
    rw [hitems, if_pos rfl]
  -- a new directory of the archive's area does not change what has to be retired
  suffices hretire : ∃ archived, (s.archive directory).run t = (archived, .ok ()) ∧
      Stocked base q archived ∧ Retired made q directory archived by
    obtain ⟨archived, hrun, hstocked, hretired⟩ := hretire
    exact ⟨archived, hrun, hstocked, hretired.congr (fun _ _ _ => hsame _) fun _ _ _ => rfl⟩
  rcases hmade.directory_cases .archive directory with hnone | hdst
  · -- nothing of the directory was retired before: it moves as a whole
    obtain ⟨renamed, hrename, hrenamed, hdata⟩ :=
      hhome.rename_directory hmade hd hdir' harchive hnone
    have hrun := run_archive_of_present hd.acceptable hpresent hmake
      (hhome.present_directory_none hmade hd hnone)
    refine ⟨renamed, ?_, hrenamed, fun file => ?_, fun file => ?_,
      fun area directory' file hother => ?_⟩
    · rw [hrun, if_neg (by simp), run_act_bind, Action.perform, hrename, run_orFail_ok]
    · rw [hdata, if_neg (by rw [prefix_spot_iff]; simp), if_pos (prefix_spot_iff.mpr ⟨rfl, rfl⟩)]
    · rw [hdata, if_pos (prefix_spot_iff.mpr ⟨rfl, rfl⟩), hmade.dataAt_spot_none hnone,
        Option.or_none]
      rfl
    · rw [hdata, if_neg fun hstarts => other_place hother (by decide) (prefix_spot_iff.mp hstarts),
        if_neg fun hstarts => other_place hother (by decide) (prefix_spot_iff.mp hstarts)]
  · obtain ⟨entries, moved, archived, hlist, hmove, hremove, hstocked, hretired⟩ :=
      hhome.retire_merging hmade hd hdir' hdst
    have hrun := run_archive_of_present hd.acceptable hpresent hmake
      (hhome.present_directory hmade hd hdst)
    refine ⟨archived, ?_, hstocked, hretired⟩
    rw [hrun, if_pos rfl]
    dsimp only
    rw [run_act_bind, Action.perform, hlist, run_bind_of_ok (run_orFail_ok _ _ _),
      run_bind_of_ok hmove, run_act_bind, Action.perform, hremove, run_orFail_ok]

end

end ChainWatch.Storage
