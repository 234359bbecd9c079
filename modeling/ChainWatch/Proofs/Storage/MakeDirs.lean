import ChainWatch.Proofs.Storage.Program
import ChainWatch.Proofs.Storage.Way

/-!
# Making a directory and those above it

Directories are made from the last one up and then down again. What comes out of it is the tree
with every directory on the way: `planted` adds them from the first one down.
-/

namespace ChainWatch.Storage.FileTree

variable {t : FileTree} {followLast : Bool} {links left : Nat} {here p q x : Path} {name : Name}
  {names above : List Name} {item : Item}

/-- A name on the way to a directory that is to be made: it goes down or stays. -/
def Downward (name : Name) : Prop := name = [46] ∨ Plain name

/-- Where names lead that only go down. -/
def reached (here : Path) (names : List Name) : Path :=
  here ++ names.filter fun name => name ≠ [46]

@[simp]
theorem reached_nil (here : Path) : reached here [] = here := by simp [reached]

@[simp]
theorem reached_here (here : Path) (rest : List Name) :
    reached here ([46] :: rest) = reached here rest := by
  simp [reached]

theorem reached_down (hname : name ≠ [46]) (here : Path) (rest : List Name) :
    reached here (name :: rest) = reached (here ++ [name]) rest := by
  simp [reached, hname]

theorem reached_append (here : Path) (names rest : List Name) :
    reached here (names ++ rest) = reached (reached here names) rest := by
  simp [reached]

/-- The tree with a directory where nothing was. -/
def ensured (t : FileTree) (p : Path) : FileTree := if t.item? p = none then t.put p .dir else t

/-- The tree with all directories that names go down through. -/
def planted (t : FileTree) (here : Path) : List Name → FileTree
  | [] => t
  | name :: rest =>
    if name = [46] then t.planted here rest
    else (t.ensured (here ++ [name])).planted (here ++ [name]) rest

theorem planted_here (t : FileTree) (here : Path) (rest : List Name) :
    t.planted here ([46] :: rest) = t.planted here rest := by
  rw [planted, if_pos rfl]

theorem planted_down (hname : name ≠ [46]) (t : FileTree) (here : Path) (rest : List Name) :
    t.planted here (name :: rest)
      = (t.ensured (here ++ [name])).planted (here ++ [name]) rest := by
  rw [planted, if_neg hname]

theorem planted_append (t : FileTree) (here : Path) (names rest : List Name) :
    t.planted here (names ++ rest) = (t.planted here names).planted (reached here names) rest := by
  induction names generalizing t here with
  | nil => simp [planted]
  | cons name names ih =>
    rw [List.cons_append]
    by_cases hname : name = [46]
    · rw [hname, planted_here, planted_here, reached_here, ih]
    · rw [planted_down hname, planted_down hname, reached_down hname, ih]

/-! ## What is planted -/

theorem item?_ensured (hp : p ≠ []) (x : Path) :
    (t.ensured p).item? x = if x = p ∧ t.item? p = none then some .dir else t.item? x := by
  unfold ensured
  by_cases hnone : t.item? p = none
  · rw [if_pos hnone, item?_put hp]
    simp [hnone]
  · rw [if_neg hnone, if_neg fun h => hnone h.2]

theorem extends_ensured (hp : p ≠ []) : t.Extends (t.ensured p) := by
  intro x item hitem
  rw [item?_ensured hp, if_neg, hitem]
  rintro ⟨rfl, hnone⟩
  simp [hnone] at hitem

theorem extends_planted (t : FileTree) (here : Path) (names : List Name) :
    t.Extends (t.planted here names) := by
  induction names generalizing t here with
  | nil => exact fun _ _ h => h
  | cons name names ih =>
    by_cases hname : name = [46]
    · rw [hname, planted_here]
      exact ih t here
    · rw [planted_down hname]
      exact fun x item h => ih _ _ x item (extends_ensured (by simp) x item h)

theorem Keyed.planted (h : t.Keyed) (here : Path) (names : List Name) :
    (t.planted here names).Keyed := by
  induction names generalizing t here with
  | nil => exact h
  | cons name names ih =>
    by_cases hname : name = [46]
    · rw [hname, planted_here]
      exact ih h here
    · rw [planted_down hname]
      apply ih
      unfold ensured
      split
      · exact h.put _ _
      · exact h

/-- The places that names go down through. -/
def OnWay (here : Path) (names : List Name) (x : Path) : Prop :=
  here <+: x ∧ x ≠ here ∧ x <+: reached here names

theorem OnWay.of_down (hname : name ≠ [46]) (h : OnWay (here ++ [name]) names x) :
    OnWay here (name :: names) x := by
  obtain ⟨hstarts, hne, hreached⟩ := h
  refine ⟨(List.prefix_append _ _).trans hstarts, ?_, by rwa [reached_down hname]⟩
  rintro rfl
  have hlength := hstarts.length_le
  rw [List.length_append, List.length_singleton] at hlength
  omega

theorem onWay_first (hname : name ≠ [46]) (here : Path) (names : List Name) :
    OnWay here (name :: names) (here ++ [name]) :=
  ⟨List.prefix_append _ _, by simp, by rw [reached_down hname]; exact List.prefix_append _ _⟩

theorem OnWay.append (h : OnWay here names x) (rest : List Name) : OnWay here (names ++ rest) x :=
  ⟨h.1, h.2.1, h.2.2.trans (by rw [reached_append]; exact List.prefix_append _ _)⟩

theorem OnWay.of_after {rest : List Name} (h : OnWay (reached here names) rest x) :
    OnWay here (names ++ rest) x := by
  obtain ⟨hstarts, hne, hreached⟩ := h
  have hhere : here <+: reached here names := List.prefix_append _ _
  refine ⟨hhere.trans hstarts, ?_, by rwa [reached_append]⟩
  rintro rfl
  exact hne (hhere.eq_of_length_le hstarts.length_le)

/-- What stands in the tree afterwards stood there before, or is a directory on the way. -/
theorem item?_planted_cases (h : (t.planted here names).item? x = some item) :
    t.item? x = some item ∨ item = .dir ∧ OnWay here names x := by
  induction names generalizing t here with
  | nil => exact .inl h
  | cons name names ih =>
    by_cases hname : name = [46]
    · rw [hname, planted_here] at h
      rw [hname, OnWay, reached_here]
      exact ih h
    · rw [planted_down hname] at h
      rcases ih h with hold | ⟨hdir, hway⟩
      · rw [item?_ensured (by simp)] at hold
        split at hold
        · rename_i hnew
          refine .inr ⟨(Option.some.inj hold).symm, ?_⟩
          rw [hnew.1]
          exact onWay_first hname here names
        · exact .inl hold
      · exact .inr ⟨hdir, hway.of_down hname⟩

/-- Nothing but directories is in the way. -/
def Clear (t : FileTree) (here : Path) (names : List Name) : Prop :=
  ∀ x, OnWay here names x → t.item? x = none ∨ t.item? x = some .dir

theorem Clear.of_append {rest : List Name} (h : t.Clear here (names ++ rest)) :
    t.Clear here names := fun x hx => h x (hx.append rest)

theorem Clear.planted (h : t.Clear here names) (here' : Path) (names' : List Name) :
    (t.planted here' names').Clear here names := by
  intro x hx
  cases hitem : (t.planted here' names').item? x with
  | none => exact .inl rfl
  | some item =>
    rcases item?_planted_cases hitem with hold | ⟨rfl, _⟩
    · rcases h x hx with hnone | hdir
      · simp [hnone] at hold
      · rw [hdir] at hold
        exact .inr (by rw [← hold])
    · exact .inr rfl

theorem Clear.down (h : t.Clear here (name :: names)) (hname : name ≠ [46]) :
    t.Clear (here ++ [name]) names := fun x hx => h x (hx.of_down hname)

theorem Clear.after {rest : List Name} (h : t.Clear here (names ++ rest)) :
    t.Clear (reached here names) rest := fun x hx => h x hx.of_after

theorem Clear.stay {rest : List Name} (h : t.Clear here ([46] :: rest)) : t.Clear here rest := by
  simpa only [Clear, OnWay, reached_here] using h

theorem Clear.isDir_ensured (h : t.Clear here (name :: names)) (hname : name ≠ [46]) :
    (t.ensured (here ++ [name])).item? (here ++ [name]) = some .dir := by
  rw [item?_ensured (by simp)]
  rcases h _ (onWay_first hname here names) with hnone | hdir
  · rw [if_pos ⟨rfl, hnone⟩]
  · rw [if_neg (by simp [hdir]), hdir]

theorem Clear.ensured (h : t.Clear here (name :: names)) (hname : name ≠ [46]) :
    (t.ensured (here ++ [name])).Clear (here ++ [name]) names := by
  have hsingle := (h.down hname).planted here [name]
  rwa [planted_down hname] at hsingle

theorem isDir_planted (hclear : t.Clear here names) (hdir : t.item? here = some .dir) :
    (t.planted here names).item? (reached here names) = some .dir := by
  induction names generalizing t here with
  | nil => rwa [planted, reached_nil]
  | cons name names ih =>
    by_cases hname : name = [46]
    · subst hname
      rw [planted_here, reached_here]
      exact ih hclear.stay hdir
    · rw [planted_down hname, reached_down hname]
      exact ih (hclear.ensured hname) (hclear.isDir_ensured hname)

theorem leads_planted (hdown : ∀ name ∈ names, Downward name) (hclear : t.Clear here names) :
    (t.planted here names).Leads links here names links (reached here names) := by
  induction names generalizing t here with
  | nil => simpa using Leads.arrive
  | cons name names ih =>
    have hrest := fun name hname => hdown name (List.mem_cons_of_mem _ hname)
    rcases hdown name List.mem_cons_self with rfl | hplain
    · rw [planted_here, reached_here]
      exact .here (ih hrest hclear.stay)
    · have hname := hplain.not_here
      rw [planted_down hname, reached_down hname]
      exact .down hplain (extends_planted _ _ _ _ _ (hclear.isDir_ensured hname))
        (ih hrest (hclear.ensured hname))

/-- Either all the directories are there, or nothing beyond them can be found. -/
theorem leads_or_blocked (hdown : ∀ name ∈ names, Downward name) (hclear : t.Clear here names) :
    (∀ links, t.Leads links here names links (reached here names)) ∧ t.planted here names = t ∨
      ∀ followLast links rest, rest ≠ [] →
        t.locate followLast links here (names ++ rest) = .failed .noEntry := by
  induction names generalizing here with
  | nil => exact .inl ⟨fun links => by simpa using Leads.arrive, rfl⟩
  | cons name names ih =>
    have hrest := fun name hname => hdown name (List.mem_cons_of_mem _ hname)
    rcases hdown name List.mem_cons_self with rfl | hplain
    · rcases ih hrest hclear.stay with ⟨hleads, hplanted⟩ | hblocked
      · refine .inl ⟨fun links => ?_, by rw [planted_here, hplanted]⟩
        rw [reached_here]
        exact .here (hleads links)
      · refine .inr fun followLast links rest hne => ?_
        rw [List.cons_append, locate_here, hblocked _ _ _ hne]
    · have hname := hplain.not_here
      rcases hclear _ (onWay_first hname here names) with hnone | hdir
      · -- the first name that is missing stops every way beyond it
        refine .inr fun followLast links rest hne => ?_
        rw [List.cons_append, locate_blocked hplain hnone (by simp [hne])]
      · have hensured : t.ensured (here ++ [name]) = t := by simp [ensured, hdir]
        rcases ih hrest (hclear.down hname) with ⟨hleads, hplanted⟩ | hblocked
        · refine .inl ⟨fun links => ?_, by rw [planted_down hname, hensured, hplanted]⟩
          rw [reached_down hname]
          exact .down hplain hdir (hleads links)
        · refine .inr fun followLast links rest hne => ?_
          rw [List.cons_append, locate_down hplain hdir, hblocked _ _ _ hne]

theorem Leads.trans {left' : Nat} {q' : Path} {rest : List Name}
    (h : t.Leads links here names left q) (h' : t.Leads left q rest left' q') :
    t.Leads links here (names ++ rest) left' q' := by
  induction h with
  | arrive => exact h'
  | here _ ih => exact .here (ih h')
  | up hhere _ ih => exact .up hhere (ih h')
  | down hplain hdir _ ih => exact .down hplain hdir (ih h')
  | link hplain hlink hnames _ ih =>
    have hrest := ih h'
    rw [List.append_assoc] at hrest
    exact .link hplain hlink hnames hrest

/-! ## One directory -/

theorem Leads.makeDir_isDir (h : t.Leads mostLinks [] names left q) :
    t.makeDir names = (t, .error .alreadyExists) ∧ t.isDir names = true := by
  obtain ⟨p, item, hitself⟩ := h.found_itself
  constructor
  · rw [makeDir, itself, hitself]
  · rw [FileTree.isDir, h.follow]

/-- At the end of a way a directory is made, or there is one already. -/
theorem makeDir_cases (habove : t.Leads mostLinks [] names left q) (hname : Downward name)
    (hclear : t.Clear q [name]) :
    t.makeDir (names ++ [name]) = (t.planted q [name], .ok ()) ∨
      (t.makeDir (names ++ [name]) = (t, .error .alreadyExists) ∧
        t.isDir (names ++ [name]) = true ∧ t.planted q [name] = t) := by
  have hdown : ∀ name' ∈ [name], Downward name' := by simpa using hname
  rcases leads_or_blocked hdown hclear with
    ⟨hleads, hplanted⟩ | hblocked
  · have hway := habove.trans (hleads left)
    exact .inr ⟨hway.makeDir_isDir.1, hway.makeDir_isDir.2, hplanted⟩
  · rcases hname with rfl | hplain
    · have hstay := hblocked false left [[46]] (by simp)
      rw [List.singleton_append, locate_here, locate_here, locate] at hstay
      exact absurd hstay (by simp)
    · refine .inl ?_
      have hnone : t.item? (q ++ [name]) = none := by
        rcases hclear _ (onWay_first hplain.not_here q []) with hnone | hdir
        · exact hnone
        · have hstay := hblocked false left [[46]] (by simp)
          rw [List.singleton_append, locate_down hplain hdir, locate_here, locate] at hstay
          exact absurd hstay (by simp)
      rw [makeDir, itself, habove.locate_append (by simp), locate_missing hplain hnone]
      simp [planted, hplain.not_here, ensured, hnone]

end ChainWatch.Storage.FileTree

namespace ChainWatch.Storage.Store

open FileTree Program

variable {t : FileTree} {left : Nat} {q : Path} {above names : List Name}
  {toError : OsError → ChainError}

/-! ## All directories -/

theorem run_makeDirsUp_of_leads (h : t.Leads mostLinks [] names left q) :
    (makeDirsUp toError names.reverse).run t = (t, .ok ()) := by
  obtain ⟨hmake, hdir⟩ := h.makeDir_isDir
  have hother : OsError.alreadyExists ≠ OsError.noEntry := by decide
  cases hnames : names.reverse with
  | nil =>
    have hnil : names = [] := List.reverse_eq_nil_iff.mp hnames
    subst hnil
    rw [makeDirsUp, run_act_bind, Action.perform, hmake]
    dsimp only
    rw [run_act_bind, Action.perform, hdir]
    rfl
  | cons name up =>
    rw [makeDirsUp, ← hnames, List.reverse_reverse, run_act_bind, Action.perform, hmake]
    dsimp only
    rw [if_neg hother, run_act_bind, Action.perform, hdir]
    rfl

/-- Below a directory that is there, all directories are made. -/
theorem run_makeDirsUp (toError : OsError → ChainError) (h : t.Leads mostLinks [] above left q)
    (up : List Name) (hdown : ∀ name ∈ up, Downward name) (hclear : t.Clear q up.reverse) :
    (makeDirsUp toError (up ++ above.reverse)).run t = (t.planted q up.reverse, .ok ()) := by
  induction up generalizing t with
  | nil => exact run_makeDirsUp_of_leads h
  | cons name up ih =>
    have hrest := fun name hname => hdown name (List.mem_cons_of_mem _ hname)
    have hother : OsError.alreadyExists ≠ OsError.noEntry := by decide
    rw [List.reverse_cons] at hclear ⊢
    have hsplit : (name :: (up ++ above.reverse)).reverse = above ++ up.reverse ++ [name] := by simp
    rw [List.cons_append, makeDirsUp, hsplit, planted_append]
    -- once those above are there, the last one can be made
    have hplanted : (t.planted q up.reverse).Leads mostLinks [] (above ++ up.reverse) left
        (reached q up.reverse) :=
      (h.extends (extends_planted _ _ _)).trans
        (leads_planted (by simpa using hrest) hclear.of_append)
    have hlast := makeDir_cases hplanted (hdown name List.mem_cons_self)
      (hclear.after.planted q up.reverse)
    rcases leads_or_blocked (by simpa using hrest) hclear.of_append with ⟨_, hthere⟩ | hblocked
    · -- those above are there
      rw [hthere] at hlast ⊢
      rcases hlast with hmade | ⟨hmade, hdir, hsame⟩
      · rw [run_act_bind, Action.perform, hmade]
        rfl
      · rw [run_act_bind, Action.perform, hmade]
        dsimp only
        rw [if_neg hother, run_act_bind, Action.perform, hdir, hsame]
        rfl
    · -- those above have to be made first
      have hmissing : t.makeDir (above ++ up.reverse ++ [name]) = (t, .error .noEntry) := by
        rw [makeDir, itself, List.append_assoc, h.locate_append (by simp),
          hblocked _ _ _ (by simp)]
      rw [run_act_bind, Action.perform, hmissing]
      dsimp only
      rw [if_pos rfl, run_bind_of_ok (ih h hrest hclear.of_append), run_act_bind, Action.perform]
      rcases hlast with hmade | ⟨hmade, hdir, hsame⟩
      · rw [hmade]
        rfl
      · rw [hmade, hsame]
        dsimp only
        rw [run_act_bind, Action.perform, hdir]
        rfl

end ChainWatch.Storage.Store
