import ChainWatch.Proofs.Storage.Steps

/-!
# Data directories without links

Below a certain directory no links stand, and the rest of the way to a store's data directory goes
down from there, whether or not all of it is made yet. In such a tree a path of the store leads to
the place that it spells or nowhere, whatever else stands in the tree, so every step of a program
changes the place it spells or nothing. Foreign files, files in the way of directories and what
interrupted saves have left are all allowed.
-/

namespace ChainWatch.Storage

namespace FileTree

variable {t t' : FileTree} {followLast : Bool} {links left : Nat} {here place p q x : Path}
  {name : Name} {names : List Name} {item : Item}

/-! ## Spelled places -/

/-- A way ends at a place, or fails on the way to it. -/
def EndsAt (t : FileTree) (place : Path) : Located → Prop
  | .found p item => p = place ∧ t.item? place = some item
  | .missing dir name =>
    dir ++ [name] = place ∧ t.item? dir = some .dir ∧ t.item? place = none
  | .failed _ => True

/-- Is the way not stopped before its last name? -/
def Located.arrives : Located → Bool
  | .failed _ => false
  | _ => true

/-- Where no links stand, names that only go down lead to the place that they spell. -/
theorem endsAt_locate (followLast : Bool) (links : Nat)
    (hlinkless : ∀ p target, t.item? (q ++ p) ≠ some (.link target))
    (hbelow : q <+: here) (hdir : t.item? here = some .dir)
    (hlevel : ∀ name ∈ names, name ≠ [46, 46]) :
    t.EndsAt (reached here names) (t.locate followLast links here names) := by
  induction names generalizing here with
  | nil =>
    rw [locate, reached_nil]
    exact ⟨rfl, hdir⟩
  | cons name rest ih =>
    have hrest : ∀ name ∈ rest, name ≠ [46, 46] :=
      fun name hname => hlevel name (List.mem_cons_of_mem _ hname)
    by_cases hdot : name = [46]
    · rw [hdot, locate_here, reached_here]
      exact ih hbelow hdir hrest
    · rw [locate, if_neg hdot, if_neg (hlevel name List.mem_cons_self), reached_down hdot]
      split
      · trivial
      · split
        next hnone =>
          split
          · rename_i hlast
            rw [hlast, reached_nil]
            exact ⟨rfl, hdir, hnone⟩
          · trivial
        next hnext => exact ih (hbelow.trans (List.prefix_append _ _)) hnext hrest
        next number hfile =>
          split
          · rename_i hlast
            rw [hlast, reached_nil]
            exact ⟨rfl, hfile⟩
          · trivial
        next target hlink =>
          -- no link stands below the ground, and the way never leaves it
          obtain ⟨p, rfl⟩ := hbelow
          rw [List.append_assoc] at hlink
          exact absurd hlink (hlinkless _ _)

/-- A name that is too long stops every way. -/
theorem short_of_arrives (hlinkless : ∀ p target, t.item? (q ++ p) ≠ some (.link target))
    (hbelow : q <+: here) (hlevel : ∀ name ∈ names, name ≠ [46, 46])
    (harrives : (t.locate followLast links here names).arrives = true) :
    ∀ name ∈ names, name.length ≤ longestName := by
  induction names generalizing here with
  | nil => exact fun name hname => absurd hname List.not_mem_nil
  | cons name rest ih =>
    have hrest : ∀ name ∈ rest, name ≠ [46, 46] :=
      fun name hname => hlevel name (List.mem_cons_of_mem _ hname)
    rw [List.forall_mem_cons]
    by_cases hdot : name = [46]
    · rw [hdot, locate_here] at harrives
      exact ⟨by rw [hdot]; decide, ih hbelow hrest harrives⟩
    · rw [locate, if_neg hdot, if_neg (hlevel name List.mem_cons_self)] at harrives
      split at harrives
      · exact absurd harrives Bool.false_ne_true
      · rename_i hshort
        refine ⟨Nat.not_lt.mp hshort, ?_⟩
        split at harrives
        next hnone =>
          split at harrives
          · rename_i hlast
            rw [hlast]
            exact fun name hname => absurd hname List.not_mem_nil
          · exact absurd harrives Bool.false_ne_true
        next hnext => exact ih (hbelow.trans (List.prefix_append _ _)) hrest harrives
        next number hfile =>
          split at harrives
          · rename_i hlast
            rw [hlast]
            exact fun name hname => absurd hname List.not_mem_nil
          · exact absurd harrives Bool.false_ne_true
        next target hlink =>
          obtain ⟨p, rfl⟩ := hbelow
          rw [List.append_assoc] at hlink
          exact absurd hlink (hlinkless _ _)

/-- Short names that go down from one directory to another lead there. -/
theorem leads_spelled (hclosed : t.Closed q) (hbelow : q <+: here)
    (hdown : ∀ name ∈ names, Downward name) (hdir : t.item? (reached here names) = some .dir)
    (links : Nat) : t.Leads links here names links (reached here names) := by
  induction names generalizing here with
  | nil =>
    rw [reached_nil]
    exact .arrive
  | cons name rest ih =>
    have hrest : ∀ name ∈ rest, Downward name :=
      fun name hname => hdown name (List.mem_cons_of_mem _ hname)
    rcases hdown name List.mem_cons_self with rfl | hplain
    · rw [reached_here] at hdir ⊢
      exact .here (ih hbelow hrest hdir)
    · rw [reached_down hplain.not_here] at hdir ⊢
      have hnext := hbelow.trans (List.prefix_append here [name])
      refine .down hplain ?_ (ih hnext hrest hdir)
      obtain ⟨p, hp⟩ := hnext
      rw [reached, ← hp, List.append_assoc] at hdir
      rw [← hp]
      by_cases hend : (rest.filter fun name => name ≠ [46]) = []
      · rwa [hend, List.append_nil] at hdir
      · exact hclosed.above hend (hdir ▸ Option.some_ne_none _)

theorem Leads.of_append {rest : List Name} (h : t.Leads links here (names ++ rest) left q) :
    ∃ left' q', t.Leads links here names left' q' := by
  generalize hall : names ++ rest = all at h
  induction h generalizing names with
  | arrive =>
    rw [(List.append_eq_nil_iff.mp hall).1]
    exact ⟨_, _, .arrive⟩
  | here _ ih =>
    rcases List.append_eq_cons_iff.mp hall with ⟨rfl, -⟩ | ⟨names', rfl, hrest⟩
    · exact ⟨_, _, .arrive⟩
    · obtain ⟨left', q', hleads⟩ := ih hrest.symm
      exact ⟨left', q', .here hleads⟩
  | up hhere _ ih =>
    rcases List.append_eq_cons_iff.mp hall with ⟨rfl, -⟩ | ⟨names', rfl, hrest⟩
    · exact ⟨_, _, .arrive⟩
    · obtain ⟨left', q', hleads⟩ := ih hrest.symm
      exact ⟨left', q', .up hhere hleads⟩
  | down hplain hdir _ ih =>
    rcases List.append_eq_cons_iff.mp hall with ⟨rfl, -⟩ | ⟨names', rfl, hrest⟩
    · exact ⟨_, _, .arrive⟩
    · obtain ⟨left', q', hleads⟩ := ih hrest.symm
      exact ⟨left', q', .down hplain hdir hleads⟩
  | @link links left here q name target' rest' target hplain hlink hnames _ ih =>
    rcases List.append_eq_cons_iff.mp hall with ⟨rfl, -⟩ | ⟨names', rfl, hrest⟩
    · exact ⟨_, _, .arrive⟩
    · have hall : (target' ++ names') ++ rest = target' ++ rest' := by rw [hrest, List.append_assoc]
      obtain ⟨left', q', hleads⟩ := ih hall
      exact ⟨left', q', .link hplain hlink hnames hleads⟩

/-- No directory is made on a way that is there. -/
theorem Leads.makeDir_above {rest : List Name}
    (h : t.Leads mostLinks [] (names ++ rest) left q) : (t.makeDir names).1 = t := by
  obtain ⟨left', q', hway⟩ := h.of_append
  obtain ⟨p, item, hfound⟩ := hway.found_itself
  rw [FileTree.makeDir, itself, hfound]

/-- Directories and links that stay keep a way as it is. -/
theorem Leads.of_kept (h : t.Leads links here names left q)
    (hdirs : ∀ x, t.item? x = some .dir → t'.item? x = some .dir)
    (hlinks : ∀ x target, t.item? x = some (.link target) → t'.item? x = some (.link target)) :
    t'.Leads links here names left q := by
  induction h with
  | arrive => exact .arrive
  | here _ ih => exact .here ih
  | up hhere _ ih => exact .up hhere ih
  | down hplain hdir _ ih => exact .down hplain (hdirs _ hdir) ih
  | link hplain hlink hnames _ ih => exact .link hplain (hlinks _ _ hlink) hnames ih

/-- A file that moves leaves its old place and takes the new one; nothing else changes place. -/
theorem item?_move_file {src dst : Path} {number : Nat} (hkeyed : t.Keyed) (hclosed : t.Closed q)
    (hsrc : q ++ src ≠ []) (hdst : q ++ dst ≠ []) (hapart : ¬ q ++ src <+: q ++ dst)
    (hfile : t.item? (q ++ src) = some (.file number)) (hnew : t.item? (q ++ dst) ≠ some .dir)
    (x : Path) :
    (t.move (q ++ src) (q ++ dst)).item? x =
      if x = q ++ dst then some (.file number) else if x = q ++ src then none else t.item? x := by
  have hbare : ∀ y, y ≠ [] → t.item? (q ++ dst ++ y) = none := fun y hy => by
    rw [List.append_assoc]
    exact hclosed.none_below hnew hy
  have hold : ∀ y, y ≠ [] → t.item? (q ++ src ++ y) = none := fun y hy => by
    rw [List.append_assoc]
    exact hclosed.none_below (by simp [hfile]) hy
  rw [item?_move hkeyed hsrc hdst hapart hbare]
  by_cases hx : q ++ dst <+: x
  · obtain ⟨y, rfl⟩ := hx
    rw [if_pos (List.prefix_append _ _), List.drop_left]
    by_cases hy : y = []
    · rw [hy, List.append_nil, List.append_nil, if_pos rfl, hfile]
    · rw [hold y hy, if_neg (by simpa using hy), hbare y hy, ite_self]
  · have hne : x ≠ q ++ dst := fun heq => hx (heq ▸ List.prefix_refl _)
    rw [if_neg hx, if_neg hne]
    by_cases hx' : q ++ src <+: x
    · obtain ⟨y, rfl⟩ := hx'
      rw [if_pos (List.prefix_append _ _)]
      by_cases hy : y = []
      · rw [hy, List.append_nil, if_pos rfl]
      · rw [hold y hy, ite_self]
    · have hne : x ≠ q ++ src := fun heq => hx' (heq ▸ List.prefix_refl _)
      rw [if_neg hx', if_neg hne]

end FileTree

open FileTree

/-- The way to the data directory of a store goes, through whatever links stand on it, to the
directory `q`; the rest of it goes down from there. Below `q` no links stand, everything stands in
a directory, and no two paths lead to the same file. -/
structure Ground (s : Store) (q : Path) (rest : List Name) (t : FileTree) : Prop where
  way : ∃ above left, s.root = above ++ rest ∧ t.Leads mostLinks [] above left q
  level : ∀ name ∈ rest, name ≠ [46, 46]
  dir : t.item? q = some .dir
  keyed : t.Keyed
  closed : t.Closed q
  linkless : ∀ p target, t.item? (q ++ p) ≠ some (.link target)
  held : ∀ p number, t.item? (q ++ p) = some (.file number) → number < t.contents.length
  apart : ∀ p p' number, t.item? (q ++ p) = some (.file number) →
    t.item? (q ++ p') = some (.file number) → p = p'

/-- Names that are neither a dot nor two. -/
def Dotless (names : List Name) : Prop := ∀ name ∈ names, name ≠ [46] ∧ name ≠ [46, 46]

/-- What a reader finds in the file with these names below the data directory. -/
def Store.contentAt (s : Store) (t : FileTree) (names : List Name) : Option Bytes :=
  (t.read (s.path names)).toOption

namespace Ground

variable {s : Store} {q p : Path} {rest names : List Name} {name : Name} {t t' : FileTree}

theorem level_append (h : Ground s q rest t) (hnames : Dotless names) :
    ∀ name ∈ rest ++ names, name ≠ [46, 46] := by
  intro name hname
  rcases List.mem_append.mp hname with hrest | hlast
  · exact h.level name hrest
  · exact (hnames name hlast).2

theorem reached_dotless (hnames : Dotless names) (here : Path) :
    reached here (rest ++ names) = reached here rest ++ names := by
  have hkept : (names.filter fun name => name ≠ [46]) = names :=
    List.filter_eq_self.mpr fun name hname => by simpa using (hnames name hname).1
  rw [reached_append, reached, hkept]

/-- The places below a data directory are places below the ground. -/
theorem reached_eq (q : Path) (rest names : List Name) :
    reached q rest ++ names = q ++ ((rest.filter fun name => name ≠ [46]) ++ names) := by
  rw [reached, List.append_assoc]

/-! ## Where paths lead -/

theorem locate_path (h : Ground s q rest t) (followLast : Bool) (names : List Name)
    (hlast : rest ++ names = [] → followLast = true) :
    ∃ left, t.locate followLast mostLinks [] (s.path names)
      = t.locate followLast left q (rest ++ names) := by
  obtain ⟨above, left, hroot, hleads⟩ := h.way
  exact ⟨left, by rw [Store.path, hroot, List.append_assoc, hleads.locate_append hlast]⟩

/-- A path of the store leads to the place that it spells, or nowhere. -/
theorem endsAt (h : Ground s q rest t) (hnames : Dotless names) (hne : names ≠ [])
    (followLast : Bool) :
    t.EndsAt (reached q rest ++ names) (t.locate followLast mostLinks [] (s.path names)) := by
  obtain ⟨left, hleft⟩ := h.locate_path followLast names fun hnil =>
    absurd (List.append_eq_nil_iff.mp hnil).2 hne
  rw [hleft, ← reached_dotless hnames]
  exact endsAt_locate _ _ h.linkless (List.prefix_refl _) h.dir (h.level_append hnames)

theorem contentAt_of_not_file (h : Ground s q rest t) (hnames : Dotless names) (hne : names ≠ [])
    (hother : ∀ number, t.item? (reached q rest ++ names) ≠ some (.file number)) :
    s.contentAt t names = none := by
  have hends := h.endsAt hnames hne true
  rw [Store.contentAt, FileTree.read, follow]
  cases hlocated : t.locate true mostLinks [] (s.path names) with
  | failed cause => rfl
  | missing dir name => rfl
  | found p item =>
    rw [hlocated] at hends
    cases item with
    | dir => rfl
    | link target => rfl
    | file number => exact absurd hends.2 (hother number)

/-- A reader finds the file that stands in the place, if no name on the way is too long. -/
theorem contentAt_of_file (h : Ground s q rest t) (hnames : Dotless names) (hne : names ≠ [])
    {number : Nat}
    (hfile : t.item? (reached q rest ++ names) = some (.file number))
    (hshort : ∀ name ∈ rest ++ names, name.length ≤ longestName) :
    s.contentAt t names = some (t.content number) := by
  -- the file stands in a directory, to which the other names lead
  obtain ⟨init, name, rfl⟩ : ∃ init name, names = init ++ [name] :=
    ⟨names.dropLast, names.getLast hne, (List.dropLast_concat_getLast hne).symm⟩
  have hinit : Dotless init := fun name hname => hnames name (List.mem_append_left _ hname)
  have hparent : t.item? (reached q (rest ++ init)) = some .dir := by
    rw [reached_dotless hinit, reached_eq]
    refine h.closed _ name ?_
    rw [List.append_assoc, ← reached_eq, hfile]
    exact Option.some_ne_none _
  have hdown : ∀ name ∈ rest ++ init, Downward name := fun name hname => by
    by_cases hdot : name = [46]
    · exact .inl hdot
    · refine .inr ⟨hdot, h.level_append hinit name hname, hshort name ?_⟩
      rw [← List.append_assoc]
      exact List.mem_append_left _ hname
  have hlast : Plain name :=
    ⟨(hnames name (by simp)).1, (hnames name (by simp)).2, hshort name (by simp)⟩
  obtain ⟨left, hleft⟩ := h.locate_path true (init ++ [name]) fun _ => rfl
  have hway := leads_spelled h.closed (List.prefix_refl _) hdown hparent left
  have hfound : t.locate true left q (rest ++ (init ++ [name]))
      = .found (reached q (rest ++ init) ++ [name]) (.file number) := by
    rw [← List.append_assoc, hway.locate_append (by simp)]
    refine locate_found hlast ?_ fun target => by simp
    rw [reached_dotless hinit, List.append_assoc, hfile]
  rw [Store.contentAt, FileTree.read, follow, hleft, hfound]
  rfl

theorem contentAt_of_long (h : Ground s q rest t) (hnames : Dotless names)
    (hlong : ¬ ∀ name ∈ rest ++ names, name.length ≤ longestName) :
    s.contentAt t names = none := by
  obtain ⟨left, hleft⟩ := h.locate_path true names fun _ => rfl
  have hfails : (t.locate true left q (rest ++ names)).arrives = false := by
    rw [← Bool.not_eq_true]
    exact fun harrives => hlong
      (short_of_arrives h.linkless (List.prefix_refl _) (h.level_append hnames) harrives)
  rw [Store.contentAt, FileTree.read, follow, hleft]
  cases hlocated : t.locate true left q (rest ++ names) with
  | failed cause => rfl
  | found p item =>
    rw [hlocated] at hfails
    exact absurd hfails.symm Bool.false_ne_true
  | missing dir name => rfl

/-- What a reader finds is what stands in the place, if no name on the way is too long. -/
theorem contentAt_eq (h : Ground s q rest t) (hnames : Dotless names) (hne : names ≠ []) :
    s.contentAt t names =
      if ∀ name ∈ rest ++ names, name.length ≤ longestName
      then t.dataAt (reached q rest ++ names) else none := by
  split
  · rename_i hshort
    unfold dataAt
    split
    · rename_i number hfile
      exact h.contentAt_of_file hnames hne hfile hshort
    · rename_i hother
      exact h.contentAt_of_not_file hnames hne hother
  · rename_i hlong
    exact h.contentAt_of_long hnames hlong

/-- Where the same stands in a place, a reader finds the same. -/
theorem contentAt_congr (h : Ground s q rest t) (h' : Ground s q rest t') (hnames : Dotless names)
    (hne : names ≠ [])
    (hsame : t'.dataAt (reached q rest ++ names) = t.dataAt (reached q rest ++ names)) :
    s.contentAt t' names = s.contentAt t names := by
  rw [h.contentAt_eq hnames hne, h'.contentAt_eq hnames hne, hsame]

end Ground

end ChainWatch.Storage
