import ChainWatch.Proofs.Storage.Ground
import ChainWatch.Proofs.Storage.Places

/-!
# What the steps of a save do

On ground without links every step of a save changes one or two places, those that its paths
spell, or fails and changes nothing. Each of the four steps has one lemma that says which.
-/

namespace ChainWatch.Storage

open FileTree

namespace Ground

variable {s : Store} {q p : Path} {rest names names' : List Name} {name : Name} {t t' : FileTree}
  {number : Nat}

/-! ## One place -/

/-- The ground stays good if one place changes that is not a directory: to a directory or a file
in a directory that is there, the file being no other one, or to nothing. -/
theorem change (h : Ground s q rest t) (new : Option Item) (hkeyed : t'.Keyed)
    (hlength : t.contents.length ≤ t'.contents.length)
    (hitem : ∀ x, t'.item? x = if x = q ++ (p ++ [name]) then new else t.item? x)
    (hparent : new ≠ none → t.item? (q ++ p) = some .dir)
    (hold : t.item? (q ++ (p ++ [name])) ≠ some .dir)
    (hlink : ∀ target, new ≠ some (.link target))
    (hfile : ∀ number, new = some (.file number) → number < t'.contents.length ∧
      ∀ p', p' ≠ p ++ [name] → t.item? (q ++ p') ≠ some (.file number)) : Ground s q rest t' := by
  have hdirs : ∀ x, t.item? x = some .dir → t'.item? x = some .dir := by
    intro x hx
    have hne : x ≠ q ++ (p ++ [name]) := fun heq => hold (heq ▸ hx)
    rw [hitem, if_neg hne, hx]
  have hitem' : ∀ p', t'.item? (q ++ p') = if p' = p ++ [name] then new else t.item? (q ++ p') := by
    intro p'
    rw [hitem]
    simp only [List.append_cancel_left_eq]
  refine ⟨?_, h.level, hdirs q h.dir, hkeyed, ?_, ?_, ?_, ?_⟩
  · obtain ⟨above, left, hroot, hleads⟩ := h.way
    refine ⟨above, left, hroot, hleads.of_kept hdirs fun x target hx => ?_⟩
    have hne : x ≠ q ++ (p ++ [name]) := fun heq => h.linkless _ _ (heq ▸ hx)
    rw [hitem, if_neg hne, hx]
  · intro p' name' hne
    rw [hitem'] at hne
    split at hne
    · rename_i heq
      obtain ⟨rfl, -⟩ := List.append_inj' heq rfl
      exact hdirs _ (hparent hne)
    · exact hdirs _ (h.closed p' name' hne)
  · intro p' target hsome
    rw [hitem'] at hsome
    split at hsome
    · exact hlink target hsome
    · exact h.linkless p' target hsome
  · intro p' number hsome
    rw [hitem'] at hsome
    split at hsome
    · exact (hfile number hsome).1
    · exact Nat.lt_of_lt_of_le (h.held p' number hsome) hlength
  · intro p₁ p₂ number h₁ h₂
    rw [hitem'] at h₁ h₂
    -- two places with one file: both are the changed one, none is, or the new file was not new
    split at h₁ <;> split at h₂
    · rename_i heq₁ heq₂
      rw [heq₁, heq₂]
    · rename_i hne
      exact absurd h₂ ((hfile number h₁).2 p₂ hne)
    · rename_i hne _
      exact absurd h₁ ((hfile number h₂).2 p₁ hne)
    · exact h.apart p₁ p₂ number h₁ h₂

/-- A new directory in one that is there. -/
theorem plant (h : Ground s q rest t) (hparent : t.item? (q ++ p) = some .dir)
    (hnone : t.item? (q ++ (p ++ [name])) = none) :
    Ground s q rest (t.put (q ++ (p ++ [name])) .dir) :=
  h.change (some .dir) (h.keyed.put _ _) (Nat.le_refl _) (item?_put (by simp) _) (fun _ => hparent)
    (by simp [hnone]) (fun _ => by simp) fun _ hfile => absurd hfile (by simp)

theorem filled (h : Ground s q rest t) (number : Nat) (data : Bytes) :
    Ground s q rest (t.filled number data) where
  way := by
    obtain ⟨above, left, hroot, hleads⟩ := h.way
    exact ⟨above, left, hroot, hleads.of_kept (fun _ hx => hx) fun _ _ hx => hx⟩
  level := h.level
  dir := h.dir
  keyed := h.keyed
  closed := h.closed
  linkless := h.linkless
  held p number' hitem := by
    rw [FileTree.filled, List.length_set]
    exact h.held p number' hitem
  apart := h.apart

/-! ## Making a directory -/

/-- A place below the ground where nothing stands has a directory above it. -/
theorem split_missing (h : Ground s q rest t) {dir : Path}
    (hplace : dir ++ [name] = reached q names) (hnone : t.item? (reached q names) = none) :
    ∃ p, dir = q ++ p := by
  rw [reached] at hplace hnone
  rcases List.eq_nil_or_concat (names.filter fun name => name ≠ [46]) with hnil | ⟨p, last, hlast⟩
  · rw [hnil, List.append_nil, h.dir] at hnone
    exact absurd hnone (by simp)
  · rw [hlast, List.concat_eq_append, ← List.append_assoc] at hplace
    exact ⟨p, (List.append_inj' hplace rfl).1⟩

/-- On the way to a directory of the store, a directory is made below the ground or nothing
changes. -/
theorem makeDir (h : Ground s q rest t) (hnames : Dotless names) {x : Path}
    (hx : x <+: s.path names) :
    (t.makeDir x).1 = t ∨ ∃ p name, t.item? (q ++ p) = some .dir ∧
      t.item? (q ++ (p ++ [name])) = none ∧ (t.makeDir x).1 = t.put (q ++ (p ++ [name])) .dir := by
  obtain ⟨above, left, hroot, hleads⟩ := h.way
  obtain ⟨z, hz⟩ := hx
  rw [Store.path, hroot, List.append_assoc] at hz
  -- the way to the ground is there as it is; only what goes down from it can be new
  rcases List.append_eq_append_iff.mp hz with ⟨more, habove, -⟩ | ⟨y, rfl, hy⟩
  · exact .inl (habove ▸ hleads).makeDir_above
  · by_cases hnil : y = []
    · rw [hnil, List.append_nil, hleads.makeDir_isDir.1]
      exact .inl rfl
    · have hlevel : ∀ name ∈ y, name ≠ [46, 46] := fun name hname =>
        h.level_append hnames name (hy ▸ List.mem_append_left _ hname)
      have hends := endsAt_locate false left h.linkless (List.prefix_refl _) h.dir hlevel
      rw [FileTree.makeDir, itself, hleads.locate_append fun h => absurd h hnil]
      cases hlocated : t.locate false left q y with
      | found p item => exact .inl rfl
      | failed cause => exact .inl rfl
      | missing dir name =>
        rw [hlocated] at hends
        obtain ⟨hplace, hdir, hnone⟩ := hends
        obtain ⟨p, rfl⟩ := h.split_missing hplace hnone
        rw [← hplace, List.append_assoc] at hnone
        refine .inr ⟨p, name, hdir, hnone, ?_⟩
        dsimp only
        rw [List.append_assoc]

/-! ## Filling a file -/

/-- A file with this content stands in a place; no other place has changed, and no other file. -/
structure Fills (s : Store) (q : Path) (rest : List Name) (t : FileTree) (place : Path)
    (number : Nat) (data : Bytes) (t' : FileTree) : Prop where
  ground : Ground s q rest t'
  items : ∀ x, t'.item? x = if x = place then some (.file number) else t.item? x
  content : t'.content number = data
  others : ∀ other, other ≠ number → t'.content other = t.content other
  only : ∀ p, q ++ p ≠ place → t.item? (q ++ p) ≠ some (.file number)

theorem fills_addFile (h : Ground s q rest t) (hparent : t.item? (q ++ p) = some .dir)
    (hnone : t.item? (q ++ (p ++ [name])) = none) :
    Fills s q rest t (q ++ (p ++ [name])) t.contents.length [] (t.addFile (q ++ (p ++ [name]))).1
    where
  ground := by
    refine h.change (some (.file t.contents.length)) (h.keyed.put _ _) (by simp [FileTree.addFile])
      (item?_addFile (by simp)) (fun _ => hparent) (by simp [hnone]) (fun _ => by simp) ?_
    intro number hnumber
    simp only [Option.some.injEq, Item.file.injEq] at hnumber
    subst hnumber
    exact ⟨by simp [FileTree.addFile], fun p' _ hp' => Nat.lt_irrefl _ (h.held p' _ hp')⟩
  items := item?_addFile (by simp)
  content := by simp [FileTree.addFile, FileTree.content]
  others other hother := by
    simp only [FileTree.addFile, FileTree.content, List.getD_eq_getElem?_getD]
    rw [List.getElem?_append]
    split
    · rfl
    · rename_i hlength
      have hlater : ([[]] : List Bytes).length ≤ other - t.contents.length := by
        rw [List.length_singleton]
        omega
      rw [List.getElem?_eq_none (Nat.not_lt.mp hlength), List.getElem?_eq_none hlater]
  only p' _ hp' := Nat.lt_irrefl _ (h.held p' _ hp')

theorem fills_filled (h : Ground s q rest t) (hfile : t.item? (q ++ p) = some (.file number))
    (data : Bytes) : Fills s q rest t (q ++ p) number data (t.filled number data) where
  ground := h.filled number data
  items x := by
    rw [item?_filled]
    split
    · rename_i hx
      rw [hx, hfile]
    · rfl
  content := by rw [content_filled (h.held _ _ hfile), if_pos rfl]
  others other hother := by rw [content_filled (h.held _ _ hfile), if_neg hother]
  only p' hne hp' := hne (by rw [h.apart _ _ _ hp' hfile])

/-- A file is opened and empty, or nothing changes. -/
theorem openEmptied (h : Ground s q rest t) (hnames : Dotless names) (hne : names ≠ []) :
    (∃ cause, t.openEmptied (s.path names) = (t, .error cause)) ∨
      ∃ t' number, t.openEmptied (s.path names) = (t', .ok number) ∧
        Fills s q rest t (reached q rest ++ names) number [] t' := by
  have hends := h.endsAt hnames hne true
  rw [FileTree.openEmptied, follow]
  cases hlocated : t.locate true mostLinks [] (s.path names) with
  | failed cause => exact .inl ⟨cause, rfl⟩
  | found p item =>
    rw [hlocated] at hends
    obtain ⟨rfl, hitem⟩ := hends
    cases item with
    | dir => exact .inl ⟨_, rfl⟩
    | link target => exact .inl ⟨_, rfl⟩
    | file number =>
      rw [reached_eq] at hitem ⊢
      exact .inr ⟨_, number, rfl, h.fills_filled hitem []⟩
  | missing dir name =>
    rw [hlocated] at hends
    obtain ⟨hplace, hdir, hnone⟩ := hends
    rw [← reached_dotless hnames] at hplace hnone
    obtain ⟨p, rfl⟩ := h.split_missing hplace hnone
    rw [← reached_dotless hnames, ← hplace]
    rw [← hplace, List.append_assoc] at hnone
    refine .inr ⟨_, _, rfl, ?_⟩
    rw [List.append_assoc]
    exact h.fills_addFile hdir hnone

/-! ## Giving a file its place -/

/-- A file has moved from one place to another, and nothing else has changed. -/
structure Moves (s : Store) (q : Path) (rest : List Name) (t : FileTree) (src dst : Path)
    (number : Nat) (t' : FileTree) : Prop where
  ground : Ground s q rest t'
  items : ∀ x, t'.item? x =
    if x = dst then some (.file number) else if x = src then none else t.item? x
  contents : t'.contents = t.contents

theorem moves_move {src dst : Path} (h : Ground s q rest t)
    (hsrc : t.item? (q ++ src) = some (.file number)) (hapart : ¬ q ++ src <+: q ++ (dst ++ [name]))
    (hparent : t.item? (q ++ dst) = some .dir) (hdst : t.item? (q ++ (dst ++ [name])) ≠ some .dir) :
    Moves s q rest t (q ++ src) (q ++ (dst ++ [name])) number
      (t.move (q ++ src) (q ++ (dst ++ [name]))) := by
  have hsrcne : src ≠ [] := by
    rintro rfl
    rw [List.append_nil, h.dir] at hsrc
    exact absurd hsrc (by simp)
  obtain ⟨src, last, rfl⟩ : ∃ src' last, src = src' ++ [last] :=
    ⟨src.dropLast, src.getLast hsrcne, (List.dropLast_concat_getLast hsrcne).symm⟩
  have hitems := item?_move_file h.keyed h.closed (by simp) (by simp) hapart hsrc hdst
  refine ⟨?_, hitems, rfl⟩
  -- the old place is cleared first, then the new one is taken
  have hcleared : Ground s q rest (t.erase (q ++ (src ++ [last]))) :=
    h.change none (h.keyed.erase _) (Nat.le_refl _) (item?_erase (by simp))
      (fun hne => absurd rfl hne) (by simp [hsrc]) (fun _ => by simp) fun _ hfile => by
        exact absurd hfile (by simp)
  have hdirs : ∀ x, t.item? x = some .dir →
      (t.erase (q ++ (src ++ [last]))).item? x = some .dir := by
    intro x hx
    rw [item?_erase (by simp), if_neg, hx]
    rintro rfl
    rw [hsrc] at hx
    exact absurd hx (by simp)
  have hplaced (x : Path) : (t.move (q ++ (src ++ [last])) (q ++ (dst ++ [name]))).item? x =
      if x = q ++ (dst ++ [name]) then some (.file number)
      else (t.erase (q ++ (src ++ [last]))).item? x := by
    rw [hitems, item?_erase (by simp)]
  refine hcleared.change (some (.file number)) ?_ (Nat.le_refl _) hplaced
    (fun _ => hdirs _ hparent) ?_ (fun _ => by simp) fun number' hnumber => ?_
  · refine h.keyed.move (by simp) fun y hy => ?_
    rw [List.append_assoc]
    exact h.closed.none_below hdst hy
  · rw [item?_erase (by simp)]
    split
    · simp
    · exact hdst
  · simp only [Option.some.injEq, Item.file.injEq] at hnumber
    subst hnumber
    refine ⟨h.held _ _ hsrc, fun p' _ hp' => ?_⟩
    rw [item?_erase (by simp)] at hp'
    split at hp'
    · exact absurd hp' (by simp)
    · rename_i hne
      exact hne (by rw [h.apart _ _ _ hp' hsrc])

/-- A place that a path of the store leads to is short enough for every reader to get there. -/
theorem short_of_arrives (h : Ground s q rest t) (hnames : Dotless names) (hne : names ≠ [])
    (followLast : Bool)
    (harrives : (t.locate followLast mostLinks [] (s.path names)).arrives = true) :
    ∀ name ∈ rest ++ names, name.length ≤ longestName := by
  obtain ⟨left, hleft⟩ := h.locate_path followLast names fun hnil =>
    absurd (List.append_eq_nil_iff.mp hnil).2 hne
  rw [hleft] at harrives
  exact FileTree.short_of_arrives h.linkless (List.prefix_refl _) (h.level_append hnames) harrives

/-- A file is given a place beside it, or the place cannot be taken and nothing changes. -/
theorem rename {dir : List Name} {file file' : Name} (h : Ground s q rest t)
    (hnames : Dotless (dir ++ [file])) (hnames' : Dotless (dir ++ [file'])) (hdiff : file ≠ file')
    (hfile : t.item? (reached q rest ++ (dir ++ [file])) = some (.file number)) :
    (∃ cause, t.rename (s.path (dir ++ [file])) (s.path (dir ++ [file'])) = (t, .error cause)) ∨
      ∃ t', t.rename (s.path (dir ++ [file])) (s.path (dir ++ [file'])) = (t', .ok ()) ∧
        Moves s q rest t (reached q rest ++ (dir ++ [file])) (reached q rest ++ (dir ++ [file']))
          number t' ∧
        ∀ name ∈ rest ++ (dir ++ [file']), name.length ≤ longestName := by
  have hends := h.endsAt hnames (by simp) false
  have hends' := h.endsAt hnames' (by simp) false
  -- a way that ends at the new place is one that readers can take too
  have hshort := h.short_of_arrives hnames' (by simp) false
  have hapart : ¬ reached q rest ++ (dir ++ [file]) <+: reached q rest ++ (dir ++ [file']) := by
    intro hprefix
    have hsame := hprefix.eq_of_length (by simp)
    simp only [List.append_cancel_left_eq, List.cons.injEq, and_true] at hsame
    exact hdiff hsame
  -- both files would stand in the directory in which the file stands now
  have hparent : t.item? (reached q rest ++ dir) = some .dir := by
    rw [reached_eq]
    refine h.closed _ file ?_
    rw [List.append_assoc, ← reached_eq, hfile]
    exact Option.some_ne_none _
  have hmoves (hfree : t.item? (reached q rest ++ (dir ++ [file'])) ≠ some .dir) :
      Moves s q rest t (reached q rest ++ (dir ++ [file])) (reached q rest ++ (dir ++ [file']))
        number (t.move (reached q rest ++ (dir ++ [file])) (reached q rest ++ (dir ++ [file']))) := by
    have hspelled (last : Name) : reached q rest ++ (dir ++ [last])
        = q ++ ((rest.filter fun name => name ≠ [46]) ++ dir ++ [last]) := by
      rw [reached_eq, List.append_assoc]
    rw [hspelled] at hfile
    rw [hspelled, hspelled] at hapart
    rw [reached_eq] at hparent
    rw [hspelled] at hfree
    rw [hspelled, hspelled]
    exact h.moves_move hfile hapart hparent hfree
  rw [FileTree.rename, itself, itself]
  cases hsrc : t.locate false mostLinks [] (s.path (dir ++ [file])) with
  | failed cause => exact .inl ⟨cause, rfl⟩
  | missing dir' name =>
    rw [hsrc] at hends
    rw [hends.2.2] at hfile
    exact absurd hfile (by simp)
  | found p item =>
    rw [hsrc] at hends
    obtain ⟨rfl, hitem⟩ := hends
    rw [hfile, Option.some.injEq] at hitem
    subst hitem
    cases hdst : t.locate false mostLinks [] (s.path (dir ++ [file'])) with
    | failed cause => exact .inl ⟨cause, rfl⟩
    | missing dir' name =>
      rw [hdst] at hends' hshort
      obtain ⟨hplace, -, hnone⟩ := hends'
      dsimp only
      rw [if_neg (by simp), hplace]
      exact .inr ⟨_, rfl, hmoves (by simp [hnone]), hshort rfl⟩
    | found p' old =>
      rw [hdst] at hends' hshort
      obtain ⟨rfl, hold⟩ := hends'
      have hne : reached q rest ++ (dir ++ [file]) ≠ reached q rest ++ (dir ++ [file']) :=
        fun heq => hapart (heq ▸ List.prefix_refl _)
      have hlength : (reached q rest ++ (dir ++ [file])).length
          = (reached q rest ++ (dir ++ [file'])).length := by simp
      simp only [if_neg hne, strictlyAbove_eq_false (Nat.le_of_eq hlength.symm),
        strictlyAbove_eq_false (Nat.le_of_eq hlength), replaces]
      cases old with
      | dir => exact .inl ⟨_, rfl⟩
      | link target => exact .inr ⟨_, rfl, hmoves (by simp [hold]), hshort rfl⟩
      | file number' => exact .inr ⟨_, rfl, hmoves (by simp [hold]), hshort rfl⟩

end Ground

end ChainWatch.Storage
