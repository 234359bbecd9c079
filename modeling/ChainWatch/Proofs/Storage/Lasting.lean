import ChainWatch.Proofs.Storage.Copying

/-!
# What becomes of copies

No step of a store takes a copy away or puts something in its place, and what is in it changes only
when it is written to. A call that has not made the copy itself never does so: the files that it
opens are others.
-/

namespace ChainWatch.Storage

open FileTree Program

/-- In the tree of a store, the file with these names below the data directory has this number. -/
def Store.FileAt (s : Store) (t : FileTree) (names : List Name) (number : Nat) : Prop :=
  ∃ base q, Housed s base q t ∧ t.item? (q ++ names) = some (.file number)

/-- A step that changes what is in a file. -/
inductive Action.Overwrites (t : FileTree) (number : Nat) : Action → Prop
  | emptied {p x : Path} :
    t.follow p = .found x (.file number) → Overwrites t number (.openEmptied p)
  | written (offset : Nat) (piece : Bytes) : Overwrites t number (.writeAt number offset piece)

section

variable {s : Store} {base t : FileTree} {q p : Path} {area : Area} {directory name : String}
  {file : Name} {names : List Name} {number number' : Nat} {suffix : Int} {a : Action} {c : Call}
  {opened : Nat → Prop}

/-! ## Contents -/

namespace FileTree

theorem contents_makeDir (t : FileTree) (p : Path) : (t.makeDir p).1.contents = t.contents := by
  rw [makeDir]
  split <;> rfl

theorem contents_rename (t : FileTree) (src dst : Path) :
    (t.rename src dst).1.contents = t.contents := by
  rw [rename]
  split
  · rfl
  · rfl
  · rfl
  · rfl
  · split <;> rfl
  · split
    · rfl
    · split
      · rfl
      · split
        · rfl
        · split <;> rfl

theorem contents_unlink (t : FileTree) (p : Path) : (t.unlink p).1.contents = t.contents := by
  rcases t.unlink_cases p with ⟨x, item, -, -, herased⟩ | hsame
  · rw [herased]
    rfl
  · rw [hsame]

theorem contents_removeDir (t : FileTree) (p : Path) : (t.removeDir p).1.contents = t.contents := by
  rcases t.removeDir_cases p with ⟨x, -, -, herased⟩ | hsame
  · rw [herased]
    rfl
  · rw [hsame]

theorem content_congr {t t' : FileTree} (h : t'.contents = t.contents) (number : Nat) :
    t'.content number = t.content number := by
  rw [content, content, h]

end FileTree

/-- Contents are never forgotten, even those of files that are gone. -/
theorem length_contents_perform (t : FileTree) (a : Action) :
    t.contents.length ≤ (a.perform t).1.contents.length := by
  have hadded (p : Path) : t.contents.length ≤ (t.addFile p).1.contents.length := by
    simp [addFile]
  cases a with
  | makeDir p => exact Nat.le_of_eq (congrArg _ (contents_makeDir t p).symm)
  | rename src dst => exact Nat.le_of_eq (congrArg _ (contents_rename t src dst).symm)
  | unlink p => exact Nat.le_of_eq (congrArg _ (contents_unlink t p).symm)
  | removeDir p => exact Nat.le_of_eq (congrArg _ (contents_removeDir t p).symm)
  | writeAt number offset piece => simp [Action.perform, FileTree.writeAt]
  | openEmptied p =>
    show _ ≤ (t.openEmptied p).1.contents.length
    rcases t.openEmptied_cases p with ⟨_, _, -, hopen⟩ | ⟨_, _, -, hopen⟩ | ⟨_, hopen⟩
    · simp [hopen, filled]
    · rw [hopen]
      exact hadded _
    · rw [hopen]
  | openNew p =>
    show _ ≤ (t.openNew p).1.contents.length
    rcases t.openNew_cases p with ⟨_, _, -, hopen⟩ | ⟨_, hopen⟩
    · rw [hopen]
      exact hadded _
    · rw [hopen]
  | _ => exact Nat.le_refl _

/-- Only a step that overwrites a file changes what is in it. -/
theorem content_perform (ha : ¬ a.Overwrites t number) :
    (a.perform t).1.content number = t.content number := by
  cases a with
  | makeDir p => exact content_congr (contents_makeDir t p) number
  | rename src dst => exact content_congr (contents_rename t src dst) number
  | unlink p => exact content_congr (contents_unlink t p) number
  | removeDir p => exact content_congr (contents_removeDir t p) number
  | writeAt other offset piece =>
    have hother : other ≠ number := fun heq => ha (heq ▸ .written offset piece)
    simp [Action.perform, FileTree.writeAt, content, List.getD_eq_getElem?_getD,
      List.getElem?_set_ne hother]
  | openEmptied p =>
    show (t.openEmptied p).1.content number = _
    rcases t.openEmptied_cases p with ⟨x, other, hfollow, hopen⟩ | ⟨_, _, -, hopen⟩ | ⟨_, hopen⟩
    · have hother : other ≠ number := fun heq => ha (.emptied (heq ▸ hfollow))
      simp [hopen, filled, content, List.getD_eq_getElem?_getD, List.getElem?_set_ne hother]
    · rw [hopen]
      exact content_addFile t _ number
    · rw [hopen]
  | openNew p =>
    show (t.openNew p).1.content number = _
    rcases t.openNew_cases p with ⟨_, _, -, hopen⟩ | ⟨_, hopen⟩
    · rw [hopen]
      exact content_addFile t _ number
    · rw [hopen]
  | _ => rfl

/-! ## Places -/

/-- A new file takes no other one's place. -/
theorem extends_addFile (hnone : t.item? p = none) : t.Extends (t.addFile p).1 := by
  have hp : p ≠ [] := by
    rintro rfl
    exact absurd hnone (by simp [item?])
  intro x item hitem
  have hne : x ≠ p := by
    rintro rfl
    rw [hnone] at hitem
    exact absurd hitem (by simp)
  rw [item?_addFile hp, if_neg hne, hitem]

/-- A copy is no other file of the store, and not in one of its other directories. -/
theorem not_prefix_copy {names : List Name} (harea : area ≠ .snapshot) :
    ¬ area.name :: names <+: spot .snapshot directory file := fun hstarts =>
  harea (Area.name_injective (List.cons_prefix_cons.mp hstarts).1)

namespace Housed

variable (h : Housed s base q t)
include h

/-- What is moved or taken away is no copy. -/
theorem item_copy_rename {src dst : List Name} {area' : Area}
    (hcopy : t.item? (q ++ spot .snapshot directory file) = some (.file number))
    (hsrc : Dotless (area.name :: src)) (hdst : Dotless (area'.name :: dst))
    (hlength : src.length = dst.length) (harea : area ≠ .snapshot) (harea' : area' ≠ .snapshot) :
    (t.rename (s.path (area.name :: src)) (s.path (area'.name :: dst))).1.item?
      (q ++ spot .snapshot directory file) = some (.file number) := by
  rcases h.rename_cases hsrc hdst (by simp) (by simp [hlength]) with
    hsame | ⟨hmoved, hdiff, -, -, hbare, -⟩
  · rw [hsame, hcopy]
  · have hapart : ¬ area.name :: src <+: area'.name :: dst := fun hstarts =>
      hdiff (hstarts.eq_of_length (by simp [hlength]))
    rw [hmoved, h.rooted.item?_move (by simp) (by simp) hapart hbare,
      if_neg (not_prefix_copy harea'), if_neg (not_prefix_copy harea), hcopy]

omit h in
theorem item_copy_erase {names : List Name}
    (hcopy : t.item? (q ++ spot .snapshot directory file) = some (.file number))
    (harea : area ≠ .snapshot) :
    (t.erase (q ++ area.name :: names)).item? (q ++ spot .snapshot directory file)
      = some (.file number) := by
  have hne : q ++ spot .snapshot directory file ≠ q ++ area.name :: names := by
    intro heq
    have hstarts : area.name :: names <+: spot .snapshot directory file :=
      ⟨[], by rw [List.append_cancel_left heq, List.append_nil]⟩
    exact not_prefix_copy harea hstarts
  rw [item?_erase (by simp), if_neg hne, hcopy]

theorem extends_addFile_missing (hnames : Dotless names) (hne : names ≠ []) {followLast : Bool}
    {dir : Path} {name : Name}
    (hmissing : t.locate followLast mostLinks [] (s.path names) = .missing dir name) :
    t.Extends (t.addFile (dir ++ [name])).1 := by
  have hends := h.endsAt hnames hne followLast
  rw [hmissing] at hends
  exact extends_addFile (hends.1 ▸ hends.2.2)

/-- A copy stays in its place. -/
theorem item_copy (ha : s.Takes a)
    (hcopy : t.item? (q ++ spot .snapshot directory file) = some (.file number)) :
    (a.perform t).1.item? (q ++ spot .snapshot directory file) = some (.file number) := by
  cases ha with
  | isDir _ | present _ | list _ | read _ | writeAt _ _ _ => exact hcopy
  | @makeDir area' directory' x hd hx =>
    show (t.makeDir x).1.item? _ = _
    rcases h.ground.makeDir (dotless_directory area' hd) hx with hsame | ⟨p, name, -, hnone, hmade⟩
    · rw [hsame, hcopy]
    · have hextends := extends_ensured (t := t) (p := q ++ (p ++ [name])) (by simp)
      rw [ensured, if_pos hnone] at hextends
      rw [hmade]
      exact hextends _ _ hcopy
  | @openEmptied directory' file' hd hgiven =>
    show (t.openEmptied _).1.item? _ = _
    rcases t.openEmptied_cases (s.path (spot .current directory' file')) with
      ⟨_, _, -, hopen⟩ | ⟨_, _, hmissing, hopen⟩ | ⟨_, hopen⟩
    · rw [hopen, item?_filled, hcopy]
    · rw [hopen]
      exact h.extends_addFile_missing (dotless_spot hd hgiven) (by simp) hmissing _ _ hcopy
    · rw [hopen, hcopy]
  | @openNew directory' file' hd hgiven =>
    show (t.openNew _).1.item? _ = _
    rcases t.openNew_cases (s.path (spot .snapshot directory' file')) with
      ⟨_, _, hmissing, hopen⟩ | ⟨_, hopen⟩
    · rw [hopen]
      exact h.extends_addFile_missing (dotless_spot hd hgiven) (by simp) hmissing _ _ hcopy
    · rw [hopen, hcopy]
  | renameFile hd harea hfile hfile' =>
    exact h.item_copy_rename hcopy (dotless_spot hd hfile) (dotless_spot hd hfile') rfl (by decide)
      harea
  | renameDirectory hd =>
    exact h.item_copy_rename hcopy (dotless_directory _ hd) (dotless_directory _ hd) rfl (by decide)
      (by decide)
  | @unlink directory' file' hd hgiven =>
    show (t.unlink _).1.item? _ = _
    rcases t.unlink_cases (s.path (spot .current directory' file')) with
      ⟨x, item, hfound, -, herased⟩ | hsame
    · obtain ⟨rfl, -⟩ := h.endsAt_found (dotless_spot hd hgiven) (by simp) hfound
      rw [herased]
      exact item_copy_erase hcopy (by decide)
    · rw [hsame, hcopy]
  | @removeDir directory' hd =>
    show (t.removeDir _).1.item? _ = _
    rcases t.removeDir_cases (s.path [Area.current.name, Text.utf8 directory']) with
      ⟨x, hfound, -, herased⟩ | hsame
    · obtain ⟨rfl, -⟩ := h.endsAt_found (dotless_directory .current hd) (by simp) hfound
      rw [herased]
      exact item_copy_erase hcopy (by decide)
    · rw [hsame, hcopy]

/-- What a call opens, unless it makes it, is no copy. -/
theorem not_overwrites (ha : c.Takes s (s.known (· ≠ number)) a)
    (hcopy : t.item? (q ++ spot .snapshot directory file) = some (.file number)) :
    ¬ a.Overwrites t number := by
  intro hoverwrites
  cases hoverwrites with
  | written offset piece =>
    cases ha with
    | asks hasks => cases hasks
    | saveWrite _ _ hopened => exact hopened rfl
    | snapshotWrite _ _ hopened => exact hopened rfl
  | emptied hfollow =>
    cases ha with
    | asks hasks => cases hasks
    | @saveOpen _ directory' name' hd hn =>
      have hgiven : Given .current (Text.utf8 (temporaryName name')) := .temporary (by decide) hn
      obtain ⟨-, hitem⟩ := h.endsAt_found (dotless_spot hd hgiven) (by simp) hfollow
      have hsame := h.rooted.apart _ _ number hitem hcopy
      exact absurd (spot_inj.mp hsame).1 (by decide)

end Housed

/-! ## Copies in the tree of a store -/

namespace Store.FileAt

theorem housed {base : FileTree} {q : Path} (h : Housed s base q t)
    (hitem : t.item? (q ++ names) = some (.file number)) : s.FileAt t names number :=
  ⟨base, q, h, hitem⟩

theorem lt (h : s.FileAt t names number) : number < t.contents.length := by
  obtain ⟨base, q, hhoused, hitem⟩ := h
  exact hhoused.rooted.held _ _ hitem

theorem contentAt (h : s.FileAt t (spot area directory file) number) :
    s.contentAt t (spot area directory file) = some (t.content number) := by
  obtain ⟨base, q, hhoused, hitem⟩ := h
  rw [Store.contentAt, hhoused.read hitem]
  rfl

/-- A file has one number. -/
theorem unique (h : s.FileAt t (spot area directory file) number)
    (h' : s.FileAt t (spot area directory file) number') : number = number' := by
  obtain ⟨base, q, hhoused, hitem⟩ := h
  obtain ⟨base', q', hhoused', hitem'⟩ := h'
  have hfound : t.follow (s.path (spot area directory file)) = .found _ (.file number) :=
    hhoused.spot_found (hhoused.belongs _ _ (by simp) hitem).plain hitem
  have hfound' : t.follow (s.path (spot area directory file)) = .found _ (.file number') :=
    hhoused'.spot_found (hhoused'.belongs _ _ (by simp) hitem').plain hitem'
  rw [hfound] at hfound'
  exact Item.file.inj (Located.found.inj hfound').2

theorem perform (h : s.FileAt t (spot .snapshot directory file) number) (ha : s.Takes a) :
    s.FileAt (a.perform t).1 (spot .snapshot directory file) number := by
  obtain ⟨base, q, hhoused, hitem⟩ := h
  exact ⟨base, q, hhoused.perform ha, hhoused.item_copy ha hitem⟩

theorem content_perform (h : s.FileAt t (spot .snapshot directory file) number)
    (ha : c.Takes s (s.known (· ≠ number)) a) :
    (a.perform t).1.content number = t.content number := by
  obtain ⟨base, q, hhoused, hitem⟩ := h
  exact Storage.content_perform (hhoused.not_overwrites ha hitem)

end Store.FileAt

theorem Standing.fileAt_of_used (h : Standing s t) (hd : acceptable directory = true)
    (hn : acceptable name = true) (hused : s.copyAt t directory name suffix ≠ none) :
    ∃ number, s.FileAt t (copySpot directory name suffix) number := by
  cases h with
  | missing _ hmissing => exact absurd (hmissing.contentAt (by simp)) hused
  | housed hhoused =>
    rw [Store.copyAt, hhoused.contentAt_eq (dotless_copySpot hd hn suffix) (by simp)] at hused
    rcases hhoused.spot_cases .snapshot directory (Text.utf8 (snapshotName name suffix)) with
      hnone | ⟨number, hitem, -⟩
    · exact absurd (dataAt_none hnone) hused
    · exact ⟨number, .housed hhoused hitem⟩

/-- A copy that is there stays there. -/
theorem Standing.copyAt_perform (h : Standing s t) (ha : s.Takes a)
    (hd : acceptable directory = true) (hn : acceptable name = true)
    (hused : s.copyAt t directory name suffix ≠ none) :
    s.copyAt (a.perform t).1 directory name suffix ≠ none := by
  obtain ⟨number, hfile⟩ := h.fileAt_of_used hd hn hused
  rw [Store.copyAt, (hfile.perform ha).contentAt]
  exact Option.some_ne_none _

/-- Trying to make a copy finds one, fails, or makes a new file. -/
theorem Standing.openNew_cases (h : Standing s t) (hd : acceptable directory = true)
    (hn : acceptable name = true) (suffix : Int) :
    (s.copyAt t directory name suffix ≠ none ∧
      t.openNew (s.path (copySpot directory name suffix)) = (t, .error .alreadyExists)) ∨
    (∃ cause, cause ≠ .alreadyExists ∧
      t.openNew (s.path (copySpot directory name suffix)) = (t, .error cause)) ∨
    ∃ made, s.copyAt t directory name suffix = none ∧
      t.openNew (s.path (copySpot directory name suffix)) = (made, .ok t.contents.length) ∧
      s.FileAt made (copySpot directory name suffix) t.contents.length ∧
      made.content t.contents.length = [] := by
  have hgiven : Given .snapshot (Text.utf8 (snapshotName name suffix)) := .copy suffix hn
  have hnames := dotless_copySpot hd hn suffix
  cases h with
  | missing _ hmissing =>
    refine .inr (.inl ⟨.noEntry, by decide, ?_⟩)
    rw [FileTree.openNew, itself, hmissing.locate false (by simp)]
  | housed hhoused =>
    have hends := hhoused.endsAt hnames (by simp) false
    rw [Store.copyAt, hhoused.contentAt_eq hnames (by simp), FileTree.openNew, itself]
    cases hlocated : t.locate false mostLinks [] (s.path (copySpot directory name suffix)) with
    | failed cause =>
      refine .inr (.inl ⟨cause, ?_, rfl⟩)
      rintro rfl
      exact locate_ne_alreadyExists _ _ _ _ hlocated
    | found p item =>
      rw [hlocated] at hends
      obtain ⟨rfl, hitem⟩ := hends
      obtain ⟨⟨number, rfl⟩, -⟩ := (hhoused.belongs _ _ (by simp) hitem).at_spot
      exact .inl ⟨by simp [dataAt_file hitem], rfl⟩
    | missing dir last =>
      have hmade := hhoused.addFile_missing hd hgiven hlocated
      rw [hlocated] at hends
      obtain ⟨hplace, -, hnone⟩ := hends
      rw [hplace] at hmade
      refine .inr (.inr ⟨(t.addFile (dir ++ [last])).1, dataAt_none hnone, rfl, ?_, ?_⟩)
      · rw [hplace]
        exact .housed hmade (by rw [item?_addFile (by simp), if_pos rfl])
      · rw [content_addFile]
        simp [content]

/-! ## What is opened -/

theorem eq_length_of_openNew_ok (h : (t.openNew p).2 = .ok number) :
    number = t.contents.length ∧ number < (t.openNew p).1.contents.length := by
  rcases t.openNew_cases p with ⟨dir, name, -, hopen⟩ | ⟨cause, hopen⟩
  · rw [hopen] at h ⊢
    obtain rfl := Except.ok.inj h
    simp [addFile]
  · rw [hopen] at h
    exact absurd h (by simp)

theorem cases_of_openEmptied_ok (h : (t.openEmptied p).2 = .ok number) :
    (∃ x, t.follow p = .found x (.file number)) ∨
      number = t.contents.length ∧ number < (t.openEmptied p).1.contents.length := by
  rcases t.openEmptied_cases p with
    ⟨x, other, hfollow, hopen⟩ | ⟨dir, name, -, hopen⟩ | ⟨cause, hopen⟩
  · rw [hopen] at h
    obtain rfl := Except.ok.inj h
    exact .inl ⟨x, hfollow⟩
  · rw [hopen] at h ⊢
    obtain rfl := Except.ok.inj h
    right
    simp [addFile]
  · rw [hopen] at h
    exact absurd h (by simp)

theorem Standing.lt_of_follow (h : Standing s t) (hnames : Dotless names) (hne : names ≠ [])
    {x : Path} (hfollow : t.follow (s.path names) = .found x (.file number)) :
    number < t.contents.length := by
  cases h with
  | missing _ hmissing =>
    rw [follow, hmissing.locate true hne] at hfollow
    exact absurd hfollow (by simp)
  | housed hhoused =>
    exact hhoused.rooted.held _ _ (hhoused.endsAt_found hnames hne hfollow).2

/-- A file that a call empties was there before, and is no copy. -/
theorem Standing.emptied {known : Answers} {x : Path} (h : Standing s t)
    (ha : c.Takes s known (.openEmptied p)) (hfollow : t.follow p = .found x (.file number)) :
    number < t.contents.length ∧
      ∀ directory file, ¬ s.FileAt t (spot .snapshot directory file) number := by
  cases ha with
  | asks hasks => cases hasks
  | @saveOpen pieces directory' name' hd hn =>
    have hnames : Dotless (spot .current directory' (Text.utf8 (temporaryName name'))) :=
      dotless_spot hd (.temporary (by decide) hn)
    refine ⟨h.lt_of_follow hnames (by simp) hfollow, fun directory file hfile => ?_⟩
    obtain ⟨base, q, hhoused, hitem⟩ := hfile
    have htakes : (Call.save pieces directory' name').Takes s (s.known (· ≠ number)) _ :=
      .saveOpen hd hn
    exact hhoused.not_overwrites htakes hitem (.emptied hfollow)

/-- What a call opens is not a certain file: one that is yet to be made, or a copy. -/
theorem Standing.credible_known (h : Standing s t) (ha : c.Takes s (s.known opened) a)
    (hnumber : (a.perform t).1.contents.length ≤ number ∨
      ∃ directory file, s.FileAt t (spot .snapshot directory file) number) :
    (s.known (· ≠ number)).Credible a (a.perform t).2 := by
  have hlength := length_contents_perform t a
  have hcredible := ((Standing.keeps s).credible h ha.takes).known
  have hfresh {made : Nat}
      (hmade : made = t.contents.length ∧ made < (a.perform t).1.contents.length) :
      made ≠ number := by
    rintro rfl
    rcases hnumber with hlater | ⟨directory, file, hfile⟩
    · exact Nat.not_lt.mpr hlater hmade.2
    · exact Nat.lt_irrefl _ (hmade.1 ▸ hfile.lt)
  cases a with
  | list p =>
    show (s.known _).Credible (.list p) (t.list p)
    rw [Action.perform] at hcredible
    cases hlist : t.list p with
    | error cause => trivial
    | ok entries =>
      rw [hlist] at hcredible
      exact hcredible
  | openNew p =>
    show (s.known _).Credible (.openNew p) (t.openNew p).2
    cases hreply : (t.openNew p).2 with
    | error cause => trivial
    | ok answered => exact hfresh (eq_length_of_openNew_ok hreply)
  | openEmptied p =>
    show (s.known _).Credible (.openEmptied p) (t.openEmptied p).2
    cases hreply : (t.openEmptied p).2 with
    | error cause => trivial
    | ok answered =>
      rcases cases_of_openEmptied_ok hreply with ⟨x, hfollow⟩ | hmade
      · obtain ⟨hold, hnocopy⟩ := h.emptied ha hfollow
        show answered ≠ number
        rintro rfl
        rcases hnumber with hlater | ⟨directory, file, hfile⟩
        · omega
        · exact hnocopy directory file hfile
      · exact hfresh hmade
  | _ => trivial

end

end ChainWatch.Storage
