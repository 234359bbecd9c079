import ChainWatch.Proofs.Storage.Stock

/-!
# Single steps below a data directory

What each step of a store does to the contents of the files below the data directory.
-/

namespace ChainWatch.Storage

namespace FileTree

variable {t t' : FileTree} {p p' : Path} {number : Nat}

/-- The content of the file at a path, if one stands there. -/
def dataAt (t : FileTree) (p : Path) : Option Bytes :=
  match t.item? p with
  | some (.file number) => some (t.content number)
  | _ => none

theorem dataAt_file (h : t.item? p = some (.file number)) :
    t.dataAt p = some (t.content number) := by
  rw [dataAt, h]

theorem dataAt_none (h : t.item? p = none) : t.dataAt p = none := by
  rw [dataAt, h]

theorem dataAt_dir (h : t.item? p = some .dir) : t.dataAt p = none := by
  rw [dataAt, h]

/-- The same file with the same content. -/
theorem dataAt_congr (hitem : t'.item? p' = t.item? p)
    (hcontent : ∀ number, t.item? p = some (.file number) → t'.content number = t.content number) :
    t'.dataAt p' = t.dataAt p := by
  unfold dataAt
  rw [hitem]
  split
  · rename_i number hfile
    rw [hcontent number hfile]
  · rfl

theorem content_addFile (t : FileTree) (p : Path) (number : Nat) :
    (t.addFile p).1.content number = t.content number := by
  simp only [addFile, content, List.getD_eq_getElem?_getD]
  rw [List.getElem?_append]
  split
  · rfl
  · rename_i hlength
    rw [List.getElem?_eq_none (Nat.not_lt.mp hlength)]
    cases number - t.contents.length <;> rfl

/-! ## What an operation can do -/

/-- A file that is there is emptied, one that is missing is made, or nothing happens. -/
theorem openEmptied_cases (t : FileTree) (p : Path) :
    (∃ x number, t.follow p = .found x (.file number) ∧
      t.openEmptied p = (t.filled number [], .ok number)) ∨
    (∃ dir name, t.follow p = .missing dir name ∧
      t.openEmptied p = ((t.addFile (dir ++ [name])).1, .ok t.contents.length)) ∨
    ∃ cause, t.openEmptied p = (t, .error cause) := by
  rw [openEmptied]
  cases t.follow p with
  | failed cause => exact .inr (.inr ⟨_, rfl⟩)
  | missing dir name => exact .inr (.inl ⟨_, _, rfl, rfl⟩)
  | found x item =>
    cases item with
    | file number => exact .inl ⟨_, _, rfl, rfl⟩
    | dir => exact .inr (.inr ⟨_, rfl⟩)
    | link target => exact .inr (.inr ⟨_, rfl⟩)

/-- A file that is missing is made, or nothing happens. -/
theorem openNew_cases (t : FileTree) (p : Path) :
    (∃ dir name, t.itself p = .missing dir name ∧
      t.openNew p = ((t.addFile (dir ++ [name])).1, .ok t.contents.length)) ∨
    ∃ cause, t.openNew p = (t, .error cause) := by
  rw [openNew]
  cases t.itself p with
  | failed cause => exact .inr ⟨_, rfl⟩
  | missing dir name => exact .inl ⟨_, _, rfl, rfl⟩
  | found x item => exact .inr ⟨_, rfl⟩

/-- What is no directory is taken away, or nothing happens. -/
theorem unlink_cases (t : FileTree) (p : Path) :
    (∃ x item, t.itself p = .found x item ∧ item ≠ .dir ∧ (t.unlink p).1 = t.erase x) ∨
      (t.unlink p).1 = t := by
  rw [unlink]
  cases t.itself p with
  | failed cause => exact .inr rfl
  | missing dir name => exact .inr rfl
  | found x item =>
    cases item with
    | dir => exact .inr rfl
    | file number => exact .inl ⟨x, _, rfl, by simp, rfl⟩
    | link target => exact .inl ⟨x, _, rfl, by simp, rfl⟩

/-- An empty directory is taken away, or nothing happens. -/
theorem removeDir_cases (t : FileTree) (p : Path) :
    (∃ x, t.itself p = .found x .dir ∧ t.children x = [] ∧ (t.removeDir p).1 = t.erase x) ∨
      (t.removeDir p).1 = t := by
  rw [removeDir]
  cases t.itself p with
  | failed cause => exact .inr rfl
  | missing dir name => exact .inr rfl
  | found x item =>
    cases item with
    | file number => exact .inr rfl
    | link target => exact .inr rfl
    | dir =>
      dsimp only
      split
      · exact .inl ⟨x, rfl, ‹_›, rfl⟩
      · exact .inr rfl

end FileTree

open FileTree

variable {s : Store} {base t : FileTree} {q p p' : Path} {name : Name} {number : Nat}

/-! ## Writing -/

theorem Rooted.filled (h : Rooted base q t) (number : Nat) (data : Bytes) :
    Rooted base q (t.filled number data) where
  keyed := h.keyed
  outside := h.outside
  closed := h.closed
  held p number' hitem := by
    rw [FileTree.filled, List.length_set]
    exact h.held p number' hitem
  apart := h.apart

theorem Stocked.filled (h : Stocked base q t) (number : Nat) (data : Bytes) :
    Stocked base q (t.filled number data) :=
  (h.rooted.filled number data).stocked h.kept

theorem Stocked.dataAt_filled (h : Stocked base q t)
    (hitem : t.item? (q ++ p) = some (.file number))
    (data : Bytes) (p' : Path) :
    (t.filled number data).dataAt (q ++ p') = if p' = p then some data else t.dataAt (q ++ p') := by
  have hheld := h.held p number hitem
  split
  · rename_i heq
    rw [heq, dataAt_file (t := t.filled number data) hitem, content_filled hheld, if_pos rfl]
  · rename_i hne
    refine dataAt_congr rfl fun other hother => ?_
    rw [content_filled hheld, if_neg]
    rintro rfl
    exact hne (h.apart _ _ _ hother hitem)

theorem item?_addFile (hp : p ≠ []) (x : Path) :
    (t.addFile p).1.item? x = if x = p then some (.file t.contents.length) else t.item? x :=
  item?_put hp _ x

/-- A new file in a directory that is there. -/
theorem Rooted.addFile (h : Rooted base q t) (hparent : t.item? (q ++ p) = some .dir)
    (hnone : t.item? (q ++ (p ++ [name])) = none) :
    Rooted base q (t.addFile (q ++ (p ++ [name]))).1 := by
  refine h.change (some (.file t.contents.length)) (h.keyed.put _ _) (by simp [FileTree.addFile])
    (item?_addFile (by simp)) (fun _ => hparent) ?_ ?_
  · intro _ below
    exact h.closed.none_below (by simp [hnone]) (by simp)
  · intro number hnumber
    simp only [Option.some.injEq, Item.file.injEq] at hnumber
    subst hnumber
    -- the number is that of the next content, so no other file has it
    refine ⟨by simp [FileTree.addFile], fun p' hp' => ?_⟩
    exact Nat.lt_irrefl _ (h.held p' _ hp')

theorem Stocked.addFile (h : Stocked base q t) (hparent : t.item? (q ++ p) = some .dir)
    (hnone : t.item? (q ++ (p ++ [name])) = none)
    (hkept : Kept (p ++ [name]) (.file t.contents.length)) :
    Stocked base q (t.addFile (q ++ (p ++ [name]))).1 := by
  refine (h.rooted.addFile hparent hnone).stocked (forall_of_change (item?_addFile (by simp)) h.kept ?_)
  intro item hitem
  rwa [← Option.some.inj hitem]

theorem dataAt_addFile (hp : p ≠ []) (p' : Path) :
    (t.addFile (q ++ p)).1.dataAt (q ++ p')
      = if p' = p then some [] else t.dataAt (q ++ p') := by
  have hitem := item?_addFile (t := t) (p := q ++ p) (by simp [hp])
  split
  · rename_i heq
    have hnew := dataAt_file ((hitem (q ++ p)).trans (if_pos rfl))
    rw [heq, hnew, content_addFile]
    simp [content]
  · rename_i hne
    refine dataAt_congr ?_ fun number _ => content_addFile t _ number
    rw [hitem, if_neg (by simpa using hne)]

/-! ## Directories -/

/-- A new directory in one that is there. -/
theorem Rooted.plant (h : Rooted base q t) (hparent : t.item? (q ++ p) = some .dir) :
    Rooted base q (t.put (q ++ (p ++ [name])) .dir) := by
  refine h.change (some .dir) (h.keyed.put _ _) (Nat.le_refl _) (item?_put (by simp) _)
    (fun _ => hparent) (fun hdir => absurd rfl hdir) (fun number hnumber => ?_)
  exact absurd hnumber (by simp)

theorem Stocked.ensured (h : Stocked base q t) (hparent : t.item? (q ++ p) = some .dir)
    (hkept : Kept (p ++ [name]) .dir) : Stocked base q (t.ensured (q ++ (p ++ [name]))) := by
  unfold FileTree.ensured
  split
  · refine (h.rooted.plant hparent).stocked (forall_of_change (item?_put (by simp) _) h.kept ?_)
    intro item hitem
    rwa [← Option.some.inj hitem]
  · exact h

theorem Stocked.isDir_ensured (h : Stocked base q t) (hp : p ≠ []) (hshallow : p.length ≤ 2) :
    (t.ensured (q ++ p)).item? (q ++ p) = some .dir := by
  rw [item?_ensured (by simp [hp])]
  cases hitem : t.item? (q ++ p) with
  | none => rw [if_pos ⟨rfl, rfl⟩]
  | some item => rw [if_neg (by simp), (h.kept p item hp hitem).eq_dir hshallow]

theorem dataAt_ensured (hp : p ≠ []) (x : Path) : (t.ensured p).dataAt x = t.dataAt x := by
  by_cases hx : x = p ∧ t.item? p = none
  · rw [dataAt_dir (by rw [item?_ensured hp, if_pos hx]), hx.1, dataAt_none hx.2]
  · refine dataAt_congr (by rw [item?_ensured hp, if_neg hx]) fun number _ => ?_
    unfold FileTree.ensured
    split <;> rfl

/-! ## Taking away -/

theorem Rooted.erase (h : Rooted base q t) (hp : p ≠ [])
    (hleaf : ∀ below, t.item? (q ++ (p ++ [below])) = none) :
    Rooted base q (t.erase (q ++ p)) := by
  obtain ⟨p, name, rfl⟩ : ∃ p' name', p = p' ++ [name'] :=
    ⟨p.dropLast, p.getLast hp, (List.dropLast_concat_getLast hp).symm⟩
  exact h.change none (h.keyed.erase _) (Nat.le_refl _) (item?_erase (by simp))
    (fun hne => absurd rfl hne) (fun _ => hleaf) (fun _ hnumber => absurd hnumber (by simp))

theorem Stocked.erase (h : Stocked base q t) (hp : p ≠ [])
    (hleaf : ∀ below, t.item? (q ++ (p ++ [below])) = none) :
    Stocked base q (t.erase (q ++ p)) :=
  (h.rooted.erase hp hleaf).stocked
    (forall_of_change (item?_erase (by simp [hp])) h.kept fun _ hitem => absurd hitem (by simp))

theorem dataAt_erase (hp : p ≠ []) (x : Path) :
    (t.erase p).dataAt x = if x = p then none else t.dataAt x := by
  split
  · rename_i heq
    exact dataAt_none (by rw [item?_erase hp, if_pos heq])
  · rename_i hne
    exact dataAt_congr (by rw [item?_erase hp, if_neg hne]) fun _ _ => rfl

/-! ## Moving -/

section Move

variable (h : Rooted base q t) (hp : p ≠ []) (hp' : p' ≠ []) (hapart : ¬ p <+: p')
  (hbare : ∀ y, y ≠ [] → t.item? (q ++ (p' ++ y)) = none)
include h hp hp' hapart hbare

theorem Rooted.item?_move_any (x : Path) :
    (t.move (q ++ p) (q ++ p')).item? x =
      if q ++ p' <+: x then t.item? (q ++ p ++ x.drop (q ++ p').length)
      else if q ++ p <+: x then none else t.item? x := by
  refine item?_move h.keyed (by simp [hp]) (by simp [hp']) ?_ ?_ x
  · rwa [List.prefix_append_right_inj]
  · intro y hy
    rw [List.append_assoc]
    exact hbare y hy

theorem Rooted.item?_move (x : Path) :
    (t.move (q ++ p) (q ++ p')).item? (q ++ x) =
      if p' <+: x then t.item? (q ++ (p ++ x.drop p'.length))
      else if p <+: x then none else t.item? (q ++ x) := by
  rw [h.item?_move_any hp hp' hapart hbare, List.append_assoc, List.length_append,
    List.drop_length_add_append]
  simp only [List.prefix_append_right_inj]

theorem Rooted.dataAt_move (x : Path) :
    (t.move (q ++ p) (q ++ p')).dataAt (q ++ x) =
      if p' <+: x then t.dataAt (q ++ (p ++ x.drop p'.length))
      else if p <+: x then none else t.dataAt (q ++ x) := by
  have hitem := h.item?_move hp hp' hapart hbare x
  by_cases hnew : p' <+: x
  · rw [if_pos hnew] at hitem ⊢
    exact dataAt_congr hitem fun _ _ => rfl
  · rw [if_neg hnew] at hitem ⊢
    by_cases hold : p <+: x
    · rw [if_pos hold] at hitem ⊢
      exact dataAt_none hitem
    · rw [if_neg hold] at hitem ⊢
      exact dataAt_congr hitem fun _ _ => rfl

end Move

/-- What is not a directory takes only itself along. -/
theorem Rooted.dataAt_move_leaf (h : Rooted base q t) (hp : p ≠ []) (hp' : p' ≠ [])
    (hapart : ¬ p <+: p') (hold : t.item? (q ++ p) ≠ some .dir)
    (hnew : t.item? (q ++ p') ≠ some .dir) (x : Path) :
    (t.move (q ++ p) (q ++ p')).dataAt (q ++ x) =
      if x = p' then t.dataAt (q ++ p) else if x = p then none else t.dataAt (q ++ x) := by
  -- nothing is below either of the places, so only the places themselves count
  have hbelow : ∀ {r : Path}, t.item? (q ++ r) ≠ some .dir → ∀ y, y ≠ [] →
      t.dataAt (q ++ (r ++ y)) = none :=
    fun hr y hy => dataAt_none (h.closed.none_below hr hy)
  rw [h.dataAt_move hp hp' hapart fun y hy => h.closed.none_below hnew hy]
  by_cases hx' : p' <+: x
  · obtain ⟨y, rfl⟩ := hx'
    rw [if_pos (List.prefix_append _ _), List.drop_left]
    by_cases hy : y = []
    · rw [hy, List.append_nil, List.append_nil, if_pos rfl]
    · rw [hbelow hold y hy, if_neg (by simpa using hy), hbelow hnew y hy, ite_self]
  · have hne : x ≠ p' := fun heq => hx' (heq ▸ List.prefix_refl _)
    rw [if_neg hx', if_neg hne]
    by_cases hx : p <+: x
    · obtain ⟨y, rfl⟩ := hx
      rw [if_pos (List.prefix_append _ _)]
      by_cases hy : y = []
      · rw [hy, List.append_nil, if_pos rfl]
      · rw [hbelow hold y hy, ite_self]
    · have hne : x ≠ p := fun heq => hx (heq ▸ List.prefix_refl _)
      rw [if_neg hx, if_neg hne]

section MoveInto

variable (p') (h : Rooted base q t) (hp : p ≠ []) (hapart : ¬ p <+: p' ++ [name])
  (hbare : ∀ y, y ≠ [] → t.item? (q ++ (p' ++ [name] ++ y)) = none)
include h hp hapart hbare

/-- What a move leaves below the data directory was moved, or was there before and still is. -/
theorem Rooted.item?_move_cases {x : Path} {item : Item}
    (hsome : (t.move (q ++ p) (q ++ (p' ++ [name]))).item? (q ++ x) = some item) :
    (∃ y, x = p' ++ [name] ++ y ∧ t.item? (q ++ (p ++ y)) = some item) ∨
      ¬ p <+: x ∧ t.item? (q ++ x) = some item := by
  rw [h.item?_move hp (by simp) hapart hbare] at hsome
  split at hsome
  · rename_i hbelow
    obtain ⟨y, rfl⟩ := hbelow
    rw [List.drop_left] at hsome
    exact .inl ⟨y, rfl, hsome⟩
  · split at hsome
    · exact absurd hsome (by simp)
    · rename_i hold
      exact .inr ⟨hold, hsome⟩

theorem Rooted.closed_move (hparent : t.item? (q ++ p') = some .dir) :
    (t.move (q ++ p) (q ++ (p' ++ [name]))).Closed q := by
  have hitem := h.item?_move hp (by simp) hapart hbare
  intro x below hne
  rw [hitem] at hne ⊢
  by_cases hx : p' ++ [name] <+: x
  · obtain ⟨y, rfl⟩ := hx
    rw [if_pos ⟨y ++ [below], by simp⟩, List.append_assoc, List.drop_left] at hne
    rw [if_pos (List.prefix_append _ _), List.drop_left]
    exact h.closed (p ++ y) below (by rwa [List.append_assoc])
  · rw [if_neg hx]
    by_cases hlast : p' ++ [name] = x ++ [below]
    · -- what moved stands in the directory it was moved into
      obtain ⟨rfl, -⟩ := List.append_inj' hlast rfl
      rw [if_neg fun hstarts => hapart (hstarts.trans (List.prefix_append _ _))]
      exact hparent
    · have hx' : ¬ p' ++ [name] <+: x ++ [below] := fun hstarts =>
        (List.prefix_concat_iff.mp hstarts).elim hlast hx
      rw [if_neg hx'] at hne
      split at hne
      · exact absurd rfl hne
      · rename_i hold
        rw [if_neg fun hstarts => hold (hstarts.trans (List.prefix_append _ _))]
        exact h.closed x below hne

/-- A file or directory moves, with all below it, into a directory that is there, to a place with
nothing below it. -/
theorem Rooted.move (hparent : t.item? (q ++ p') = some .dir) :
    Rooted base q (t.move (q ++ p) (q ++ (p' ++ [name]))) where
  keyed := by
    refine h.keyed.move (by simp) fun y hy => ?_
    rw [List.append_assoc]
    exact hbare y hy
  outside x hx := by
    have hdst : ¬ q ++ (p' ++ [name]) <+: x := by
      rintro ⟨y, rfl⟩
      exact hx _ (by simp) (List.append_assoc _ _ _)
    have hsrc : ¬ q ++ p <+: x := by
      rintro ⟨y, rfl⟩
      exact hx (p ++ y) (by simp [hp]) (List.append_assoc _ _ _)
    rw [h.item?_move_any hp (by simp) hapart hbare, if_neg hdst, if_neg hsrc]
    exact h.outside x hx
  closed := h.closed_move p' hp hapart hbare hparent
  held x number hsome := by
    rcases h.item?_move_cases p' hp hapart hbare hsome with ⟨y, -, hitem⟩ | ⟨-, hitem⟩
    · exact h.held _ number hitem
    · exact h.held x number hitem
  apart x x' number hsome hsome' := by
    rcases h.item?_move_cases p' hp hapart hbare hsome with ⟨y, rfl, hitem⟩ | ⟨hold, hitem⟩ <;>
      rcases h.item?_move_cases p' hp hapart hbare hsome' with ⟨y', rfl, hitem'⟩ | ⟨hold', hitem'⟩
    · rw [List.append_cancel_left (h.apart _ _ _ hitem hitem')]
    · exact absurd ⟨_, h.apart _ _ _ hitem hitem'⟩ hold'
    · exact absurd ⟨_, h.apart _ _ _ hitem' hitem⟩ hold
    · exact h.apart _ _ _ hitem hitem'

/-- What holds of everything below a path still does after a move to where it holds of what is
moved. -/
theorem Rooted.forall_of_move {K : Path → Item → Prop}
    (hold : ∀ x item, x ≠ [] → t.item? (q ++ x) = some item → K x item)
    (hnew : ∀ y item, t.item? (q ++ (p ++ y)) = some item → K (p' ++ [name] ++ y) item) :
    ∀ x item, x ≠ [] →
      (t.move (q ++ p) (q ++ (p' ++ [name]))).item? (q ++ x) = some item → K x item := by
  intro x item hx hsome
  rcases h.item?_move_cases p' hp hapart hbare hsome with ⟨y, rfl, hitem⟩ | ⟨-, hitem⟩
  · exact hnew y item hitem
  · exact hold x item hx hitem

omit h in
theorem Stocked.move (h : Stocked base q t) (hparent : t.item? (q ++ p') = some .dir)
    (hkept : ∀ y item, t.item? (q ++ (p ++ y)) = some item → Kept (p' ++ [name] ++ y) item) :
    Stocked base q (t.move (q ++ p) (q ++ (p' ++ [name]))) :=
  (h.rooted.move p' hp hapart hbare hparent).stocked
    (h.rooted.forall_of_move p' hp hapart hbare h.kept hkept)

end MoveInto

end ChainWatch.Storage
