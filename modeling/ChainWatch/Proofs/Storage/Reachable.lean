import ChainWatch.Proofs.Storage.Beginning
import ChainWatch.Proofs.Storage.Confinement

/-!
# The trees that a store can come to

A store starts from an empty or a missing data directory. After that any calls may be made, at the
same time or one after the other, the system may refuse any of their steps, and every call may stop
anywhere and never go on. `Store.Reached` says which trees come about, and `Standing` what is true of
all of them: the data directory is still missing, or only what belongs to the store has come into
it. Then all records can be read (`Standing.reads`).
-/

namespace ChainWatch.Storage

open FileTree Program

/-- A tree that calls have made of one with an empty or a missing data directory, and what each of
the calls has yet to do. -/
inductive Store.Reached (s : Store) : FileTree → List (Program Answer) → Prop
  | start {t : FileTree} : t.Proper → s.Empty t ∨ s.Missing t → Reached s t []
  | call {t : FileTree} {calls : List (Program Answer)} (c : Call) :
    Reached s t calls → Reached s t (c.program s :: calls)
  | turn {t t' : FileTree} {calls : List (Program Answer)} {i : Nat}
      {program left : Program Answer} :
    Reached s t calls → calls[i]? = some program → program.Advances t left t' →
      Reached s t' (calls.set i left)

/-- The data directory is missing, or only what belongs to the store has come into it. -/
inductive Standing (s : Store) (t : FileTree) : Prop
  | missing : t.Proper → s.Missing t → Standing s t
  | housed {base : FileTree} {q : Path} : Housed s base q t → Standing s t

/-- All records can be read, each once, and these are they. -/
def Store.Reads (s : Store) (t : FileTree) (records : String → String → Option Bytes) : Prop :=
  ∃ found, s.readAll.run t = (t, .ok found) ∧ found.Nodup ∧
    ∀ record : Record, record ∈ found ↔
      records record.directory record.name = some record.content

/-- The content of a live record. -/
def Store.recordAt (s : Store) (t : FileTree) (directory name : String) : Option Bytes :=
  if acceptable directory = true ∧ acceptable name = true
  then s.contentAt t (spot .current directory (Text.utf8 name)) else none

section

variable {s : Store} {base t t' : FileTree} {q : Path} {above rest names : List Name} {name : Name}
  {left : Nat}

/-! ## While the data directory is missing -/

theorem FileTree.Proper.plant (hproper : t.Proper) (hparent : t.item? q = some .dir) :
    (t.put (q ++ [name]) .dir).Proper where
  keyed := hproper.keyed.put _ _
  closed p below hne := by
    rw [List.nil_append, item?_put (by simp)] at hne ⊢
    split
    · rfl
    · split at hne
      · rename_i heq
        rwa [(List.append_inj' heq rfl).1]
      · exact hproper.closed p below hne

/-- Where a way that is to be made has come to: the rest of it is still missing, or the data
directory is there. -/
theorem missing_or_home (hproper : t.Proper) (hleads : t.Leads mostLinks [] above left q)
    (hbare : ∀ p, p ≠ [] → t.item? (q ++ p) = none) (hdown : ∀ name ∈ rest, Downward name)
    (hroot : s.root = above ++ rest) : s.Missing t ∨ ∃ q, Home s t q := by
  induction rest generalizing above with
  | nil =>
    rw [List.append_nil] at hroot
    exact .inr ⟨q, ⟨left, hroot ▸ hleads⟩, hleads.isDir hproper rfl, hbare⟩
  | cons name rest ih =>
    rcases hdown name List.mem_cons_self with rfl | hplain
    · -- a dot stays where it is
      have hstays : t.Leads mostLinks [] (above ++ [[46]]) left q := hleads.trans (.here .arrive)
      refine ih hstays (fun name hname => hdown name (List.mem_cons_of_mem _ hname)) ?_
      rw [hroot, List.append_assoc]
      rfl
    · exact .inl ⟨above, name, rest, q, hroot, hleads.follow, hbare [name] (by simp), hplain,
        fun name hname => hdown name (List.mem_cons_of_mem _ hname)⟩

/-- A step on the way to a directory of the store makes the next directory that is missing, or
nothing. -/
theorem Store.Missing.makeDir (hmissing : s.Missing t) (hproper : t.Proper) {x : Path}
    (hx : x <+: s.path names) :
    (t.makeDir x).1 = t ∨
      (t.makeDir x).1.Proper ∧ (s.Missing (t.makeDir x).1 ∨ ∃ q, Home s (t.makeDir x).1 q) := by
  obtain ⟨above, name, rest, q, hroot, hfollow, hnone, hplain, hdown⟩ := hmissing
  obtain ⟨left, hleads⟩ := leads_of_locate hfollow
  obtain ⟨z, hz⟩ := hx
  rw [Store.path, hroot, List.append_assoc] at hz
  rcases List.append_eq_append_iff.mp hz with ⟨more, rfl, -⟩ | ⟨y, rfl, hy⟩
  · exact .inl hleads.makeDir_above
  · cases y with
    | nil =>
      rw [List.append_nil, hleads.makeDir_isDir.1]
      exact .inl rfl
    | cons first y =>
      obtain rfl : name = first := (List.cons.inj hy).1
      by_cases hlast : y = []
      · -- the first directory that is missing is made, and nothing is in it
        have hmade : (t.makeDir (above ++ name :: y)).1 = t.put (q ++ [name]) .dir := by
          rw [hlast, FileTree.makeDir, itself, hleads.locate_append (by simp),
            locate_missing hplain hnone]
        have hextends : t.Extends (t.put (q ++ [name]) .dir) := by
          have hensured := extends_ensured (t := t) (p := q ++ [name]) (by simp)
          rwa [ensured, if_pos hnone] at hensured
        have hway : (t.put (q ++ [name]) .dir).Leads mostLinks [] (above ++ [name]) left
            (q ++ [name]) :=
          (hleads.extends hextends).trans
            (.down hplain (by rw [item?_put (by simp), if_pos rfl]) .arrive)
        have hproper' : (t.put (q ++ [name]) .dir).Proper := hproper.plant (hleads.isDir hproper rfl)
        rw [hmade]
        refine .inr ⟨hproper', missing_or_home hproper' hway (fun p hp => ?_) hdown ?_⟩
        · rw [item?_put (by simp), if_neg (by simpa using hp), List.append_assoc]
          exact none_from_missing hproper hnone p
        · rw [hroot, List.append_assoc]
          rfl
      · refine .inl ?_
        rw [FileTree.makeDir, itself, hleads.locate_append (by simp),
          locate_blocked hplain hnone hlast]

theorem Store.Missing.writeAt (hmissing : s.Missing t) (number offset : Nat) (piece : Bytes) :
    s.Missing (t.writeAt number offset piece) := by
  obtain ⟨above, name, rest, q, hroot, hfollow, hnone, hplain, hdown⟩ := hmissing
  obtain ⟨left, hleads⟩ := leads_of_locate hfollow
  have hsame : t.Extends (t.writeAt number offset piece) := fun _ _ hitem => hitem
  exact ⟨above, name, rest, q, hroot, (hleads.extends hsame).follow, hnone, hplain, hdown⟩

/-! ## Every step -/

theorem Standing.start (hproper : t.Proper) (hstart : s.Empty t ∨ s.Missing t) : Standing s t := by
  rcases hstart with hempty | hmissing
  · obtain ⟨q, hhome⟩ := hempty.home hproper
    exact .housed (hhome.housed hproper.keyed)
  · exact .missing hproper hmissing

/-- A missing data directory is not gone on from, unless it is made. -/
theorem Store.Missing.perform (hmissing : s.Missing t) (hproper : t.Proper) {a : Action}
    (ha : s.Takes a) : Standing s (a.perform t).1 := by
  have hsame : Standing s t := .missing hproper hmissing
  have hlocate {names : List Name} (hne : names ≠ []) (followLast : Bool) :=
    hmissing.locate followLast hne
  cases ha with
  | @makeDir _ _ x hd hx =>
    show Standing s (t.makeDir x).1
    rcases hmissing.makeDir hproper hx with hstays | ⟨hproper', hmissing' | ⟨q, hhome⟩⟩
    · rwa [hstays]
    · exact .missing hproper' hmissing'
    · exact .housed (hhome.housed hproper'.keyed)
  | isDir p => exact hsame
  | present p => exact hsame
  | list p => exact hsame
  | read p => exact hsame
  | writeAt number offset piece =>
    exact .missing ⟨hproper.keyed, hproper.closed⟩ (hmissing.writeAt number offset piece)
  | openEmptied _ _ =>
    rw [Action.perform, FileTree.openEmptied, follow, hlocate (by simp)]
    exact hsame
  | openNew _ _ =>
    rw [Action.perform, FileTree.openNew, itself, hlocate (by simp)]
    exact hsame
  | renameFile _ _ _ _ =>
    rw [Action.perform, FileTree.rename, itself, hlocate (by simp)]
    exact hsame
  | renameDirectory _ =>
    rw [Action.perform, FileTree.rename, itself, hlocate (by simp)]
    exact hsame
  | unlink _ _ =>
    rw [Action.perform, FileTree.unlink, itself, hlocate (by simp)]
    exact hsame
  | removeDir _ =>
    rw [Action.perform, FileTree.removeDir, itself, hlocate (by simp)]
    exact hsame

theorem Standing.keeps (s : Store) : s.Keeps (Standing s) where
  perform h ha := by
    cases h with
    | missing hproper hmissing => exact hmissing.perform hproper ha
    | housed hhoused => exact .housed (hhoused.perform ha)
  credible {t a} h ha := by
    cases h with
    | housed hhoused => exact (Housed.keeps _ _ _).credible hhoused ha
    | missing hproper hmissing =>
      cases a with
      | list p =>
        show s.Credible (.list p) (t.list p)
        cases hlist : t.list p with
        | error cause => trivial
        | ok entries =>
          -- nothing can be listed below a data directory that is missing
          rintro area directory - rfl
          rw [FileTree.list, follow, hmissing.locate true (by simp)] at hlist
          exact absurd hlist (by simp)
      | _ => trivial

/-- Whatever calls were made and wherever they stopped, the data directory is missing or holds only
what belongs to the store. -/
theorem Store.Reached.standing {calls : List (Program Answer)} (h : s.Reached t calls) :
    Standing s t ∧ ∀ program ∈ calls, program.Within s := by
  induction h with
  | start hproper hstart => exact ⟨.start hproper hstart, List.forall_mem_nil _⟩
  | call c _ ih => exact ⟨ih.1, List.forall_mem_cons.mpr ⟨c.within s, ih.2⟩⟩
  | turn _ hprogram hadvances ih =>
    obtain ⟨hwithin, hstanding⟩ :=
      (ih.2 _ (List.mem_of_getElem? hprogram)).advance (Standing.keeps s) ih.1 hadvances
    refine ⟨hstanding, fun other hother => ?_⟩
    rcases List.mem_or_eq_of_mem_set hother with hother | rfl
    · exact ih.2 other hother
    · exact hwithin

/-- A call may take as many turns as it likes before any other one goes on. -/
theorem Store.Reached.course {calls : List (Program Answer)} {i : Nat}
    {program left : Program Answer} (h : s.Reached t calls) (hprogram : calls[i]? = some program)
    (hcourse : program.Course t left t') : s.Reached t' (calls.set i left) := by
  induction hcourse generalizing calls with
  | stop =>
    obtain ⟨hlength, hget⟩ := List.getElem?_eq_some_iff.mp hprogram
    rwa [← hget, List.set_getElem_self]
  | @step program next left t t' t'' hadvances _ ih =>
    have hlength := (List.getElem?_eq_some_iff.mp hprogram).1
    have hnext := ih (h.turn hprogram hadvances) (List.getElem?_set_self hlength)
    rwa [List.set_set] at hnext

/-! ## Reading -/

theorem Store.Missing.contentAt (hmissing : s.Missing t) (hnames : names ≠ []) :
    s.contentAt t names = none := by
  rw [Store.contentAt, FileTree.read, follow, hmissing.locate true hnames]
  rfl

/-- Readers find what stands in the places of acceptable names, and nothing else. -/
theorem Housed.recordAt_eq_some_iff (h : Housed s base q t) {directory name : String}
    {data : Bytes} :
    s.recordAt t directory name = some data ↔ isTemporary name = false ∧
      t.dataAt (q ++ spot .current directory (Text.utf8 name)) = some data := by
  constructor
  · intro hrecord
    rw [Store.recordAt] at hrecord
    split at hrecord
    · rename_i hnames
      have hfile : Given .current (Text.utf8 name) := .record (by decide) hnames.2
      rw [h.ground.contentAt_eq (dotless_spot hnames.1 hfile) (by simp), reached_nil] at hrecord
      split at hrecord
      · exact ⟨isTemporary_of_acceptable hnames.2, hrecord⟩
      · exact absurd hrecord (by simp)
    · exact absurd hrecord (by simp)
  · rintro ⟨hkeep, hdata⟩
    rcases h.spot_cases .current directory (Text.utf8 name) with hnone | ⟨number, hitem, hd, hgiven⟩
    · rw [dataAt_none hnone] at hdata
      exact absurd hdata (by simp)
    · have hname : acceptable name = true := by
        generalize hfile : Text.utf8 name = file at hgiven
        cases hgiven with
        | record _ hname => rwa [Text.utf8_injective hfile]
        | temporary _ hname =>
          rw [Text.utf8_injective hfile, isTemporary_temporaryName] at hkeep
          exact absurd hkeep (by simp)
      rw [Store.recordAt, if_pos ⟨hd, hname⟩, Store.contentAt, h.read hitem, ← hdata,
        dataAt_file hitem]
      rfl

/-- All records of a store can be read. -/
theorem Standing.reads (h : Standing s t) : s.Reads t (s.recordAt t) := by
  cases h with
  | missing hproper hmissing =>
    have hlist : t.list (s.path [Area.current.name]) = .error .noEntry := by
      rw [FileTree.list, follow, hmissing.locate true (by simp)]
    refine ⟨[], run_readAll_of_absent hlist, List.nodup_nil, fun record => ?_⟩
    have hnone : s.recordAt t record.directory record.name = none := by
      rw [Store.recordAt, hmissing.contentAt (by simp), ite_self]
    simp [hnone]
  | housed hhoused =>
    obtain ⟨found, hrun, hnodup, hmem⟩ := hhoused.run_readAll
    refine ⟨found, hrun, hnodup, fun record => ?_⟩
    rw [hmem, hhoused.recordAt_eq_some_iff]

end

end ChainWatch.Storage
