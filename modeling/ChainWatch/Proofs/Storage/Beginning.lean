import ChainWatch.Proofs.Storage.Calls

/-!
# Before the data directory is there

A data directory may be missing when a store begins. The first call that writes makes it, with the
directories above it, and goes on as it would in the empty directory; the calls that do not write
find nothing and leave the tree as it is.
-/

namespace ChainWatch.Storage

open FileTree Program

/-- The data directory is missing and can be made: the way to it leads to a directory and goes on
with names of which the first one is missing there. None of them goes up again, so the directories
that have to be made stand one in the other, and the data directory is the last of them. -/
def Store.Missing (s : Store) (t : FileTree) : Prop :=
  ∃ above name rest q, s.root = above ++ name :: rest ∧ t.follow above = .found q .dir ∧
    t.item? (q ++ [name]) = none ∧ Plain name ∧ ∀ name ∈ rest, Downward name

/-- The data directory is there, and nothing is in it. -/
def Store.Empty (s : Store) (t : FileTree) : Prop :=
  ∃ q, t.follow s.root = .found q .dir ∧ t.children q = []

section

variable {s : Store} {t : FileTree} {q : Path} {name : Name}

/-- Nothing stands below a name that is missing. -/
theorem none_from_missing (hproper : t.Proper) (hnone : t.item? (q ++ [name]) = none) (y : Path) :
    t.item? (q ++ name :: y) = none := by
  by_cases hy : y = []
  · rw [hy, hnone]
  · have hbelow := hproper.closed.none_below (p := q ++ [name]) (by simp [hnone]) hy
    rwa [List.nil_append, List.append_assoc] at hbelow

/-- An empty data directory is one for its own tree. -/
theorem Store.Empty.home (hempty : s.Empty t) (hproper : t.Proper) : ∃ q, Home s t q := by
  obtain ⟨q, hfollow, hchildren⟩ := hempty
  obtain ⟨left, hleads⟩ := leads_of_locate hfollow
  refine ⟨q, ⟨left, hleads⟩, hleads.isDir hproper rfl, fun p hp => ?_⟩
  cases p with
  | nil => exact absurd rfl hp
  | cons name rest =>
    have hnone := (children_eq_nil_iff hproper.keyed).mp hchildren name
    exact none_from_missing hproper hnone rest

/-! ## What is found -/

/-- Nothing can be found below a missing data directory. -/
theorem Store.Missing.locate (hmissing : s.Missing t) (followLast : Bool) {names : List Name}
    (hnames : names ≠ []) :
    t.locate followLast mostLinks [] (s.path names) = .failed .noEntry := by
  obtain ⟨above, name, rest, q, hroot, hfollow, hnone, hplain, -⟩ := hmissing
  obtain ⟨left, hleads⟩ := leads_of_locate hfollow
  rw [Store.path, hroot, List.append_assoc, hleads.locate_append (by simp), List.cons_append]
  exact locate_blocked hplain hnone (by simp [hnames])

/-! ## What is made -/

theorem clear_missing (hproper : t.Proper) (hnone : t.item? (q ++ [name]) = none)
    (hname : name ≠ [46]) (names : List Name) : t.Clear q (name :: names) := by
  rintro x ⟨⟨p, rfl⟩, hne, hreached⟩
  rw [reached_down hname, reached, List.append_assoc, List.prefix_append_right_inj] at hreached
  cases p with
  | nil => exact absurd (List.append_nil q) hne
  | cons name' y =>
    rw [List.singleton_append, List.cons_prefix_cons] at hreached
    rw [hreached.1]
    exact .inl (none_from_missing hproper hnone y)

/-- A missing data directory can be planted, and to make a directory in it is to plant it first. -/
theorem Store.Missing.home (hmissing : s.Missing t) (hproper : t.Proper) :
    ∃ base q, Home s base q ∧ base.Keyed ∧
      ∀ names, (∀ name ∈ names, Plain name) →
        (s.makeDirs names).run t = (base.planted q names, .ok ()) := by
  obtain ⟨above, name, rest, q, hroot, hfollow, hnone, hplain, hrest⟩ := hmissing
  obtain ⟨left, hleads⟩ := leads_of_locate hfollow
  have hname := hplain.not_here
  have hdown : ∀ name' ∈ name :: rest, Downward name' := by
    rintro name' (_ | ⟨_, hmem⟩)
    · exact .inr hplain
    · exact hrest name' hmem
  have hclear := clear_missing hproper hnone hname
  -- the tree in which the data directory is there has all directories of the way planted
  refine ⟨t.planted q (name :: rest), reached q (name :: rest), ⟨⟨left, ?_⟩, ?_, ?_⟩,
    hproper.keyed.planted _ _, fun names hnames => ?_⟩
  · rw [hroot]
    exact (hleads.extends (extends_planted _ _ _)).trans (leads_planted hdown (hclear rest))
  · exact isDir_planted (hclear rest) (hleads.isDir hproper rfl)
  · intro p hp
    cases hitem : (t.planted q (name :: rest)).item? (reached q (name :: rest) ++ p) with
    | none => rfl
    | some item =>
      rcases item?_planted_cases hitem with hold | ⟨-, -, -, hreached⟩
      · rw [reached_down hname, reached, List.append_assoc, List.append_assoc,
          List.singleton_append, none_from_missing hproper hnone] at hold
        exact absurd hold (by simp)
      · have hlength := hreached.length_le
        rw [List.length_append] at hlength
        exact absurd (List.eq_nil_of_length_eq_zero (by omega)) hp
  · -- all that is missing is made in one go: the way down to the directory and what is asked for
    have hway : ∀ name' ∈ (name :: rest ++ names).reverse, Downward name' := by
      intro name' hmem
      rcases List.mem_append.mp (List.mem_reverse.mp hmem) with hfirst | hlast
      · exact hdown name' hfirst
      · exact .inr (hnames name' hlast)
    have hrun := Store.run_makeDirsUp (s.failure names) hleads _ hway
      (by rw [List.reverse_reverse]; exact hclear (rest ++ names))
    rw [← List.reverse_append, List.reverse_reverse, ← List.append_assoc, ← hroot,
      planted_append] at hrun
    exact hrun

/-! ## The first calls -/

/-- A call that goes on alike in the tree with the data directory, and does not end with an error,
does there what it would do in an empty data directory. -/
theorem Home.serve_first {base : FileTree} (hhome : Home s base q) (hkeyed : base.Keyed)
    (call : Call) (hfits : call.Fits) (hsame : (call.program s).run t = (call.program s).run base)
    (hends : ∀ outcome r', Reference.empty.Serves s call outcome r' → ∀ cause,
      outcome ≠ .error cause) :
    ∃ after outcome r', (call.program s).run t = (after, outcome) ∧
      (∀ cause, outcome = .error cause → after = t) ∧ Reference.empty.Serves s call outcome r' ∧
      (after = t ∧ r' = .empty ∨ ∃ base q, Home s base q ∧ Holds base q after r') := by
  obtain ⟨after, outcome, r', hrun, -, hserves, hholds⟩ :=
    (hhome.holds hkeyed).serve hhome call hfits
  exact ⟨after, outcome, r', hsame.trans hrun,
    fun cause hcause => absurd hcause (hends outcome r' hserves cause), hserves,
    .inr ⟨base, q, hhome, hholds⟩⟩

/-- A call that finds the data directory missing leaves it so, or makes it and does there what it
would do in an empty one. -/
theorem Store.Missing.serve (hmissing : s.Missing t) (hproper : t.Proper) {call : Call}
    (hfits : call.Fits) :
    ∃ after outcome r', (call.program s).run t = (after, outcome) ∧
      (∀ cause, outcome = .error cause → after = t) ∧ Reference.empty.Serves s call outcome r' ∧
      (after = t ∧ r' = .empty ∨ ∃ base q, Home s base q ∧ Holds base q after r') := by
  obtain ⟨base, q, hhome, hkeyed, hmake⟩ := hmissing.home hproper
  have hsame (area : Area) {directory : String} (hd : Fitting directory) :
      (s.makeDirs [area.name, Text.utf8 directory]).run t
        = (s.makeDirs [area.name, Text.utf8 directory]).run base := by
    rw [hmake _ (plain_directory hd),
      hhome.run_makeDirs (hhome.stocked hkeyed) _ (plain_directory hd) (by simp)]
  cases call with
  | save pieces directory name =>
    refine hhome.serve_first hkeyed (.save pieces directory name) hfits (run_bind_congr ?_ _) ?_
    · rw [Store.save, run_checkNames hfits.2.acceptable hfits.1.acceptable,
        run_checkNames hfits.2.acceptable hfits.1.acceptable]
      exact run_bind_congr (hsame .current hfits.1) _
    · rintro _ _ ⟨rfl, -⟩
      simp
  | snapshot clock pieces directory name =>
    refine hhome.serve_first hkeyed (.snapshot clock pieces directory name) hfits
      (run_bind_congr ?_ _) ?_
    · rw [Store.snapshot, run_checkNames hfits.2.acceptable hfits.1.acceptable,
        run_checkNames hfits.2.acceptable hfits.1.acceptable]
      exact run_bind_congr (hsame .snapshot hfits.1) _
    · rintro _ _ (⟨_, -, -, rfl, -⟩ | ⟨-, rfl, -⟩) <;> simp
  | delete directory name =>
    have hunlink : t.unlink (s.path (spot .current directory (Text.utf8 name)))
        = (t, .error .noEntry) := by
      rw [unlink, itself, hmissing.locate false (by simp)]
    have hrun := run_delete_of_unlink hfits.1 hfits.2 hunlink
    rw [run_orFail_error] at hrun
    have hnone : Reference.empty.current directory name = none := rfl
    refine ⟨t, _, .empty, run_bind_of_error hrun _, fun _ _ => rfl, ?_, .inl ⟨rfl, rfl⟩⟩
    rw [Reference.Serves, if_pos hnone]
    exact ⟨rfl, rfl⟩
  | archive directory =>
    have hpresent : t.present (s.path [Area.current.name, Text.utf8 directory]) = .ok false := by
      rw [present, follow, hmissing.locate true (by simp)]
      rfl
    refine ⟨t, .ok .done, .empty, ?_, fun _ _ => rfl, ⟨rfl, ?_⟩, .inl ⟨rfl, rfl⟩⟩
    · rw [Call.program, run_bind_of_ok (run_archive_of_absent hfits.acceptable hpresent), run_pure]
    · simp [Reference.archive, Reference.empty]
  | readAll =>
    have hlist : t.list (s.path [Area.current.name]) = .error .noEntry := by
      rw [list, follow, hmissing.locate true (by simp)]
    refine ⟨t, .ok (.records []), .empty, ?_, fun _ _ => rfl,
      ⟨rfl, [], rfl, List.nodup_nil, fun record => ?_⟩, .inl ⟨rfl, rfl⟩⟩
    · rw [Call.program, run_bind_of_ok (run_readAll_of_absent hlist), run_pure]
    · simp [Reference.empty]

end

end ChainWatch.Storage
