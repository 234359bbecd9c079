import ChainWatch.Proofs.Storage.Names
import ChainWatch.Proofs.Storage.Tree

/-!
# Ways through a tree

`Leads` is a way along directories, through whatever links stand on it. Where a way leads to a
directory, all paths that go on from there can be followed from the directory instead; and a way
stays what it is as long as nothing on it is taken away.
-/

namespace ChainWatch.Storage.FileTree

variable {t t' : FileTree} {followLast : Bool} {links left : Nat} {here p q : Path} {name : Name}
  {names rest : List Name} {item : Item}

/-! ## Single steps -/

theorem locate_here :
    t.locate followLast links here ([46] :: rest) = t.locate followLast links here rest := by
  rw [locate, if_pos rfl]

theorem locate_up (hhere : here ≠ []) :
    t.locate followLast links here ([46, 46] :: rest)
      = t.locate followLast links here.dropLast rest := by
  rw [locate, if_neg (by decide), if_pos rfl, if_neg hhere]

theorem locate_down (hplain : Plain name) (hdir : t.item? (here ++ [name]) = some .dir) :
    t.locate followLast links here (name :: rest)
      = t.locate followLast links (here ++ [name]) rest := by
  rw [locate, if_neg hplain.not_here, if_neg hplain.not_up, if_neg (Nat.not_lt.mpr hplain.short),
    hdir]

theorem locate_link {target : Bytes} (hplain : Plain name)
    (hlink : t.item? (here ++ [name]) = some (.link target))
    (hnames : targetNames? target = some names) (hfollow : rest = [] → followLast = true) :
    t.locate followLast (links + 1) here (name :: rest)
      = t.locate followLast links here (names ++ rest) := by
  have hgo : ¬ (rest = [] ∧ followLast = false) := fun h => by simp [hfollow h.1] at h
  rw [locate, if_neg hplain.not_here, if_neg hplain.not_up, if_neg (Nat.not_lt.mpr hplain.short),
    hlink]
  simp only [if_neg hgo, hnames]

theorem locate_blocked (hplain : Plain name) (hnone : t.item? (here ++ [name]) = none)
    (hrest : rest ≠ []) : t.locate followLast links here (name :: rest) = .failed .noEntry := by
  rw [locate, if_neg hplain.not_here, if_neg hplain.not_up, if_neg (Nat.not_lt.mpr hplain.short),
    hnone]
  simp only [if_neg hrest]

theorem locate_missing (hplain : Plain name) (hnone : t.item? (here ++ [name]) = none) :
    t.locate followLast links here [name] = .missing here name := by
  rw [locate, if_neg hplain.not_here, if_neg hplain.not_up, if_neg (Nat.not_lt.mpr hplain.short),
    hnone]
  simp only [if_true]

theorem locate_found (hplain : Plain name) (hitem : t.item? (here ++ [name]) = some item)
    (hlink : ∀ target, item ≠ .link target) :
    t.locate followLast links here [name] = .found (here ++ [name]) item := by
  cases item with
  | dir => rw [locate_down hplain hitem, locate]
  | file number =>
    rw [locate, if_neg hplain.not_here, if_neg hplain.not_up, if_neg (Nat.not_lt.mpr hplain.short),
      hitem]
    simp only [if_true]
  | link target => exact absurd rfl (hlink target)

/-- A last name that is a dot, two dots or too long never leads to a file. -/
theorem locate_ne_file (hplain : ¬ Plain name) (p : Path) (number : Nat) :
    t.locate followLast links here [name] ≠ .found p (.file number) := by
  by_cases hdot : name = [46]
  · rw [hdot, locate_here, locate]
    simp
  by_cases hdots : name = [46, 46]
  · rw [hdots, locate, if_neg (by decide), if_pos rfl]
    split
    · simp
    · rw [locate]
      simp
  have hlong : longestName < name.length :=
    Nat.not_le.mp fun hshort => hplain ⟨hdot, hdots, hshort⟩
  rw [locate, if_neg hdot, if_neg hdots, if_pos hlong]
  simp

/-! ## Ways along directories -/

/-- Names lead from one directory to another; `left` is what is left of `links` on arrival. -/
inductive Leads (t : FileTree) : (links : Nat) → Path → List Name → (left : Nat) → Path → Prop
  | arrive {links : Nat} {here : Path} : Leads t links here [] links here
  | here {links left : Nat} {here q : Path} {rest : List Name} :
    Leads t links here rest left q → Leads t links here ([46] :: rest) left q
  | up {links left : Nat} {here q : Path} {rest : List Name} :
    here ≠ [] → Leads t links here.dropLast rest left q →
      Leads t links here ([46, 46] :: rest) left q
  | down {links left : Nat} {here q : Path} {name : Name} {rest : List Name} :
    Plain name → t.item? (here ++ [name]) = some .dir → Leads t links (here ++ [name]) rest left q →
      Leads t links here (name :: rest) left q
  | link {links left : Nat} {here q : Path} {name : Name} {names rest : List Name}
      {target : Bytes} :
    Plain name → t.item? (here ++ [name]) = some (.link target) → targetNames? target = some names →
      Leads t links here (names ++ rest) left q → Leads t (links + 1) here (name :: rest) left q

/-- What leads to a directory when every link is followed is such a way. -/
theorem leads_of_locate (h : t.locate true links here names = .found q .dir) :
    ∃ left, t.Leads links here names left q := by
  fun_induction t.locate true links here names with
  | case1 links here =>
    simp only [Located.found.injEq, and_true] at h
    exact ⟨links, h ▸ .arrive⟩
  | case2 links here rest ih =>
    obtain ⟨left, hleads⟩ := ih h
    exact ⟨left, .here hleads⟩
  | case4 links here rest hhere _ ih =>
    obtain ⟨left, hleads⟩ := ih h
    exact ⟨left, .up hhere hleads⟩
  | case8 links here name rest hdot hdots hshort hdir ih =>
    obtain ⟨left, hleads⟩ := ih h
    exact ⟨left, .down ⟨hdot, hdots, Nat.not_lt.mp hshort⟩ hdir hleads⟩
  | case14 here name rest hdot hdots hshort target hlink _ links names hnames ih =>
    obtain ⟨left, hleads⟩ := ih h
    exact ⟨left, .link ⟨hdot, hdots, Nat.not_lt.mp hshort⟩ hlink hnames hleads⟩
  -- the other ends are a file, a link, a missing name or a failure
  | _ => cases h

/-- A path that goes on after a way can be followed from its end. -/
theorem Leads.locate_append (h : t.Leads links here names left q)
    (hfollow : rest = [] → followLast = true) :
    t.locate followLast links here (names ++ rest) = t.locate followLast left q rest := by
  induction h with
  | arrive => rfl
  | here _ ih => rw [List.cons_append, locate_here, ih]
  | up hhere _ ih => rw [List.cons_append, locate_up hhere, ih]
  | down hplain hdir _ ih => rw [List.cons_append, locate_down hplain hdir, ih]
  | link hplain hlink hnames _ ih =>
    rw [List.cons_append, locate_link hplain hlink hnames, ← List.append_assoc, ih]
    intro hnil
    exact hfollow (List.append_eq_nil_iff.mp hnil).2

theorem Leads.follow (h : t.Leads mostLinks [] names left q) : t.follow names = .found q .dir := by
  have happend : t.locate true mostLinks [] (names ++ []) = t.locate true left q [] :=
    h.locate_append fun _ => rfl
  rwa [List.append_nil, locate] at happend

/-- Nothing that stands in one tree is missing or different in the other. -/
def Extends (t t' : FileTree) : Prop := ∀ p item, t.item? p = some item → t'.item? p = some item

theorem Leads.extends (h : t.Leads links here names left q) (hext : t.Extends t') :
    t'.Leads links here names left q := by
  induction h with
  | arrive => exact .arrive
  | here _ ih => exact .here ih
  | up hhere _ ih => exact .up hhere ih
  | down hplain hdir _ ih => exact .down hplain (hext _ _ hdir) ih
  | link hplain hlink hnames _ ih => exact .link hplain (hext _ _ hlink) hnames ih

theorem Leads.isDir (h : t.Leads links here names left q) (hproper : t.Proper)
    (hdir : t.item? here = some .dir) : t.item? q = some .dir := by
  induction h with
  | arrive => exact hdir
  | here _ ih => exact ih hdir
  | @up links left here q rest hhere _ ih =>
    refine ih (hproper.closed here.dropLast (here.getLast hhere) ?_)
    rw [List.dropLast_concat_getLast, List.nil_append, hdir]
    exact Option.some_ne_none _
  | down _ hdown _ ih => exact ih hdown
  | link _ _ _ _ ih => exact ih hdir

/-- At the end of a way something stands also for those who do not follow a link there. -/
theorem Leads.found_itself (h : t.Leads links here names left q) :
    ∃ p item, t.locate false links here names = .found p item := by
  induction h with
  | arrive => exact ⟨_, _, by rw [locate]⟩
  | here _ ih => rwa [locate_here]
  | up hhere _ ih => rwa [locate_up hhere]
  | down hplain hdir _ ih => rwa [locate_down hplain hdir]
  | @link links left here q name names rest target hplain hlink hnames _ ih =>
    by_cases hrest : rest = []
    · refine ⟨here ++ [name], .link target, ?_⟩
      rw [locate, if_neg hplain.not_here, if_neg hplain.not_up,
        if_neg (Nat.not_lt.mpr hplain.short), hlink]
      simp only [hrest, and_self, if_true]
    · rwa [locate_link hplain hlink hnames fun h => absurd h hrest]

end ChainWatch.Storage.FileTree
