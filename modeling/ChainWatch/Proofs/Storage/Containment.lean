import ChainWatch.Proofs.Storage.Interruption
import ChainWatch.Proofs.Storage.Spelling
import ChainWatch.Storage.Layout

/-!
# What calls touch

Whatever the system answers, a call touches nothing but the data directory and what is in it, down
to the files of the directory that it is about; only directories that are missing above the data
directory are made as well. A name that could lead elsewhere is refused before the first step
(`Call.contained`). Records with different names are different files, as long as no links stand in
the data directory, and none of them is a temporary file (`Store.separates`).
-/

namespace ChainWatch.Storage

open FileTree Program

/-- A step of a program, and its answer. -/
structure Taken where
  action : Action
  reply : action.Reply

/-- A program takes steps, each with some answer, with `left` yet to do. -/
inductive Program.Traces {α : Type} : Program α → List Taken → Program α → Prop
  | stop {program : Program α} : Traces program [] program
  | step {action : Action} {next : action.Reply → Program α} {reply : action.Reply}
      {taken : List Taken} {left : Program α} :
    Traces (next reply) taken left → Traces (.step action next) (⟨action, reply⟩ :: taken) left

/-- All names that a step lists are like this. -/
def Taken.Lists (listed : Name → Prop) : Taken → Prop
  | ⟨.list _, .ok entries⟩ => ∀ entry ∈ entries, listed entry.1
  | _ => True

/-- A step that opens the file with this number for writing. -/
def Taken.Opens (number : Nat) : Taken → Prop
  | ⟨.openEmptied _, .ok opened⟩ => opened = number
  | ⟨.openNew _, .ok opened⟩ => opened = number
  | _ => False

/-- The paths that a step makes, opens for writing, renames or removes. -/
def Action.touches : Action → List Path
  | makeDir p | openEmptied p | openNew p | unlink p | removeDir p => [p]
  | rename src dst => [src, dst]
  | isDir _ | present _ | list _ | read _ | writeAt _ _ _ => []

/-- The data directory, an area, the directory of this name in an area, or what is right in it. -/
def Store.Inside (s : Store) (directory : String) (p : Path) : Prop :=
  acceptable directory = true ∧
    ∃ area file names, Entry file ∧ names <+: spot area directory file ∧ p = s.path names

/-- A name that is empty or too long, starts with a dot or has a character in it that parts names
or ends them. -/
def Unfit (name : String) : Prop :=
  name.toList = [] ∨ 128 < name.toList.length ∨ name.toList.head? = some '.' ∨
    '/' ∈ name.toList ∨ '\\' ∈ name.toList ∨ Char.ofNat 0 ∈ name.toList

/-- The directory that a call is about. -/
def Call.directory? : Call → Option String
  | save _ directory _ | delete directory _ | archive directory | snapshot _ _ directory _ =>
    some directory
  | readAll => none

/-- What a call may touch, and which names it refuses. -/
structure Call.Contained (c : Call) (s : Store) : Prop where
  /-- An unfit name ends the call before its first step. -/
  refused : (∃ name ∈ c.names, Unfit name) → ∃ name ∈ c.names, Unfit name ∧
    c.program s = .done (.error (.invalidName name longestRecordName))
  /-- No other call ends so. -/
  accepted : (∀ name ∈ c.names, ¬ Unfit name) → ∀ taken name limit,
    ¬ (c.program s).Traces taken (.done (.error (.invalidName name limit)))
  touched : ∀ taken left, (c.program s).Traces taken left → (∀ step ∈ taken, step.Lists Entry) →
    ∀ step ∈ taken, ∀ p ∈ step.action.touches, ∃ directory, c.directory? = some directory ∧
      (s.Inside directory p ∨ step.action = .makeDir p ∧ p <+: s.root)
  /-- Only what the call has opened is written to. -/
  written : ∀ before number offset piece reply after left,
    (c.program s).Traces (before ++ ⟨.writeAt number offset piece, reply⟩ :: after) left →
      ∃ step ∈ before, step.Opens number

/-- The files of a store are told apart. -/
structure Store.Separates (s : Store) : Prop where
  written : ∀ area directory name directory' name', acceptable directory = true →
    acceptable name = true → acceptable directory' = true → acceptable name' = true →
    s.pathText (spot area directory (Text.utf8 name))
      = s.pathText (spot area directory' (Text.utf8 name')) → directory = directory' ∧ name = name'
  /-- Where no links stand, different names are different files. -/
  files : ∀ t q rest, Ground s q rest t → ∀ names names' p p' number, Dotless names →
    Dotless names' → names ≠ [] → names' ≠ [] →
    t.follow (s.path names) = .found p (.file number) →
    t.follow (s.path names') = .found p' (.file number) → names = names'
  temporaries : ∀ area directory name directory' name', acceptable directory = true →
    acceptable name = true → acceptable directory' = true → acceptable name' = true →
    s.pathText (spot area directory (Text.utf8 (temporaryName name)))
      ≠ s.pathText (spot area directory' (Text.utf8 name'))
  /-- Readers pass over temporary files. -/
  hidden : ∀ directory entries t records,
    ((s.readFiles directory entries).run t).2 = .ok records →
      ∀ record ∈ records, ∀ name, record.name ≠ temporaryName name
  /-- Readers pass over no records. -/
  shown : ∀ directory entries t records,
    ((s.readFiles directory entries).run t).2 = .ok records →
      ∀ name isDir, acceptable name = true → (Text.utf8 name, isDir) ∈ entries →
        ∃ content, ⟨directory, name, content⟩ ∈ records

section

variable {s : Store} {rules : Rules} {known : Answers} {α : Type} {program left : Program α}
  {taken before after : List Taken} {step : Taken} {c : Call} {directory name : String}
  {t : FileTree} {q : Path} {rest : List Name}

/-! ## Traces of programs -/

theorem Program.Conforms.traces (h : program.Conforms rules) (htraces : program.Traces taken left)
    (hcredible : ∀ step ∈ taken, rules.credible step.action step.reply) :
    left.Conforms rules ∧ ∀ step ∈ taken, rules.allowed step.action := by
  induction htraces with
  | stop => exact ⟨h, List.forall_mem_nil _⟩
  | step _ ih =>
    cases h with
    | step hallowed hnext =>
      obtain ⟨hfirst, hothers⟩ := List.forall_mem_cons.mp hcredible
      obtain ⟨hleft, hsteps⟩ := ih (hnext _ hfirst) hothers
      exact ⟨hleft, List.forall_mem_cons.mpr ⟨hallowed, hsteps⟩⟩

/-- Before each of its steps a program is about to take it. -/
theorem Program.Traces.split (h : program.Traces (before ++ step :: after) left) :
    ∃ next, program.Traces before (.step step.action next) := by
  induction before generalizing program with
  | nil =>
    cases h with
    | step _ => exact ⟨_, .stop⟩
  | cons first before ih =>
    cases h with
    | step hrest =>
      obtain ⟨next, hnext⟩ := ih hrest
      exact ⟨next, .step hnext⟩

/-- What is known once these steps are taken: which names were listed, and which files opened. -/
def knownFrom (listed : Name → Prop) (taken : List Taken) : Answers where
  listed _ := listed
  opened number := ∃ step ∈ taken, step.Opens number

theorem credible_knownFrom {listed : Name → Prop} (h : step ∈ taken) (hlists : step.Lists listed) :
    (knownFrom listed taken).Credible step.action step.reply := by
  obtain ⟨action, reply⟩ := step
  cases action with
  | list p =>
    cases reply with
    | ok entries => exact hlists
    | error cause => trivial
  | openEmptied p | openNew p =>
    cases reply with
    | ok number => exact ⟨_, h, rfl⟩
    | error cause => trivial
  | _ => trivial

theorem Taken.lists_any (step : Taken) : step.Lists fun _ => True := by
  obtain ⟨action, reply⟩ := step
  cases action with
  | list p => cases reply <;> simp [Taken.Lists]
  | _ => trivial

/-- Where a call has come to by these steps, and that they were its own. -/
theorem Call.conforms_traces {listed : Name → Prop} {left : Program Answer}
    (htraces : (c.program s).Traces taken left) (hlists : ∀ step ∈ taken, step.Lists listed) :
    left.Conforms (c.rules s (knownFrom listed taken)) ∧
      ∀ step ∈ taken, c.Takes s (knownFrom listed taken) step.action :=
  (c.conforms s _).traces htraces fun step hstep => credible_knownFrom hstep (hlists step hstep)

/-! ## Unfit names -/

theorem acceptable_eq_false_iff : acceptable name = false ↔ Unfit name := by
  have hnul (c : Char) : c.toNat = 0 ↔ c = Char.ofNat 0 :=
    Char.toNat_inj (c := c) (d := Char.ofNat 0)
  have hchars : (name.toList.all fun c => c != '/' && c != '\\' && c.toNat != 0) = false ↔
      '/' ∈ name.toList ∨ '\\' ∈ name.toList ∨ Char.ofNat 0 ∈ name.toList := by
    simp only [List.all_eq_false, Bool.and_eq_true, bne_iff_ne, not_and_or, not_not, ne_eq, hnul]
    constructor
    · rintro ⟨c, hc, (rfl | rfl) | rfl⟩
      · exact .inl hc
      · exact .inr (.inl hc)
      · exact .inr (.inr hc)
    · rintro (hc | hc | hc)
      · exact ⟨_, hc, .inl (.inl rfl)⟩
      · exact ⟨_, hc, .inl (.inr rfl)⟩
      · exact ⟨_, hc, .inr rfl⟩
  have hlong : decide (name.toList.length ≤ longestRecordName) = false
      ↔ 128 < name.toList.length := by
    rw [decide_eq_false_iff_not, longestRecordName, Nat.not_le]
  simp only [acceptable, Unfit, Bool.and_eq_false_iff, hchars, hlong, or_assoc, bne_eq_false_iff_eq]

theorem not_unfit_iff : ¬ Unfit name ↔ acceptable name = true := by
  rw [← acceptable_eq_false_iff, Bool.not_eq_false]

theorem checkName_of_unfit (h : Unfit name) :
    Store.checkName name = .done (.error (.invalidName name longestRecordName)) := by
  rw [Store.checkName, if_neg (by simp [acceptable_eq_false_iff.mpr h])]
  rfl

theorem checkName_of_fit (h : ¬ Unfit name) : Store.checkName name = .done (.ok ()) := by
  rw [Store.checkName, if_pos (not_unfit_iff.mp h)]
  rfl

/-- The first unfit one of two names is refused. -/
theorem checkNames_refused {name' : String} {f : Unit → Program α}
    (h : ∃ unfit ∈ [name, name'], Unfit unfit) :
    ∃ unfit ∈ [name, name'], Unfit unfit ∧
      (Store.checkName name >>= fun _ => Store.checkName name' >>= f)
        = .done (.error (.invalidName unfit longestRecordName)) := by
  by_cases hname : Unfit name
  · refine ⟨name, by simp, hname, ?_⟩
    rw [checkName_of_unfit hname]
    rfl
  · have hname' : Unfit name' := by simpa [hname] using h
    refine ⟨name', by simp, hname', ?_⟩
    rw [checkName_of_fit hname, checkName_of_unfit hname']
    rfl

theorem Call.refused (c : Call) (s : Store) (h : ∃ name ∈ c.names, Unfit name) :
    ∃ name ∈ c.names, Unfit name ∧
      c.program s = .done (.error (.invalidName name longestRecordName)) := by
  cases c with
  | save pieces directory name =>
    obtain ⟨unfit, hmem, hunfit, hends⟩ := checkNames_refused h
    exact ⟨unfit, hmem, hunfit, by rw [program, Store.save, hends]; rfl⟩
  | delete directory name =>
    obtain ⟨unfit, hmem, hunfit, hends⟩ := checkNames_refused h
    exact ⟨unfit, hmem, hunfit, by rw [program, Store.delete, hends]; rfl⟩
  | snapshot clock pieces directory name =>
    obtain ⟨unfit, hmem, hunfit, hends⟩ := checkNames_refused h
    exact ⟨unfit, hmem, hunfit, by rw [program, Store.snapshot, hends]; rfl⟩
  | archive directory =>
    have hunfit : Unfit directory := by simpa [names] using h
    exact ⟨directory, by simp [names], hunfit, by
      rw [program, Store.archive, checkName_of_unfit hunfit]; rfl⟩
  | readAll => simp [names] at h

/-! ## Where the paths are -/

theorem prefix_path {p : Path} {names : List Name} (h : p <+: s.path names) :
    p <+: s.root ∨ ∃ names', names' <+: names ∧ p = s.path names' := by
  obtain ⟨more, hmore⟩ := h
  rcases List.append_eq_append_iff.mp hmore with ⟨between, hroot, -⟩ | ⟨between, hp, hnames⟩
  · exact .inl ⟨between, hroot.symm⟩
  · exact .inr ⟨between, ⟨more, hnames.symm⟩, hp⟩

theorem inside_file {area : Area} {file : Name} (hd : acceptable directory = true)
    (hfile : Entry file) : s.Inside directory (s.path (spot area directory file)) :=
  ⟨hd, area, file, _, hfile, List.prefix_refl _, rfl⟩

theorem inside_directory (area : Area) (hd : acceptable directory = true) {names : List Name}
    (hnames : names <+: [area.name, Text.utf8 directory]) :
    s.Inside directory (s.path names) :=
  ⟨hd, area, area.name, names, area.entry, hnames.trans ⟨[area.name], rfl⟩, rfl⟩

theorem inside_or_above {area : Area} {names : List Name} {p : Path}
    (hd : acceptable directory = true) (hnames : names <+: [area.name, Text.utf8 directory])
    (hp : p <+: s.path names) :
    s.Inside directory p ∨ Action.makeDir p = .makeDir p ∧ p <+: s.root := by
  rcases prefix_path hp with habove | ⟨names', hbelow, rfl⟩
  · exact .inr ⟨rfl, habove⟩
  · exact .inl (inside_directory area hd (hbelow.trans hnames))

theorem Call.Takes.touched {a : Action} (h : c.Takes s (knownFrom Entry taken) a) :
    ∀ p ∈ a.touches, ∃ directory, c.directory? = some directory ∧
      (s.Inside directory p ∨ a = .makeDir p ∧ p <+: s.root) := by
  intro p hp
  cases h with
  | asks hasks => cases hasks <;> exact absurd hp List.not_mem_nil
  | saveWrite _ _ _ | snapshotWrite _ _ _ => exact absurd hp List.not_mem_nil
  | saveDirectory hd hx | snapshotDirectory hd hx =>
    obtain rfl := List.mem_singleton.mp hp
    exact ⟨_, rfl, inside_or_above hd (List.prefix_refl _) hx⟩
  | @archiveArea directory _ hd hx =>
    obtain rfl := List.mem_singleton.mp hp
    exact ⟨_, rfl, inside_or_above hd ⟨[Text.utf8 directory], rfl⟩ hx⟩
  | saveOpen hd hn =>
    obtain rfl := List.mem_singleton.mp hp
    exact ⟨_, rfl, .inl (inside_file hd (entry_temporaryName hn))⟩
  | snapshotOpen suffix hd hn =>
    obtain rfl := List.mem_singleton.mp hp
    exact ⟨_, rfl, .inl (inside_file hd (entry_snapshotName hn suffix))⟩
  | delete hd hn =>
    obtain rfl := List.mem_singleton.mp hp
    exact ⟨_, rfl, .inl (inside_file hd (entry_of_acceptable hn))⟩
  | archiveEnd hd =>
    obtain rfl := List.mem_singleton.mp hp
    exact ⟨_, rfl, .inl (inside_directory .current hd (List.prefix_refl _))⟩
  | savePlace hd hn =>
    rcases List.mem_pair.mp hp with rfl | rfl
    · exact ⟨_, rfl, .inl (inside_file hd (entry_temporaryName hn))⟩
    · exact ⟨_, rfl, .inl (inside_file hd (entry_of_acceptable hn))⟩
  | archiveFile hd hlisted =>
    rcases List.mem_pair.mp hp with rfl | rfl
    · exact ⟨_, rfl, .inl (inside_file hd hlisted)⟩
    · exact ⟨_, rfl, .inl (inside_file hd hlisted)⟩
  | archiveDirectory hd =>
    rcases List.mem_pair.mp hp with rfl | rfl
    · exact ⟨_, rfl, .inl (inside_directory .current hd (List.prefix_refl _))⟩
    · exact ⟨_, rfl, .inl (inside_directory .archive hd (List.prefix_refl _))⟩

/-- A call touches nothing outside of its store, and refuses the names that could lead there. -/
theorem Call.contained (c : Call) (s : Store) : c.Contained s where
  refused := c.refused s
  accepted hfit taken name limit htraces := by
    have hleft := (conforms_traces htraces fun step _ => step.lists_any).1
    cases hleft with
    | done herrors =>
      rcases herrors _ rfl with ⟨names, reason, hfailure⟩ | ⟨unfit, hmem, hunfit, -⟩
      · exact absurd hfailure nofun
      · exact hfit unfit hmem (acceptable_eq_false_iff.mp hunfit)
  touched taken left htraces hlists step hstep :=
    ((conforms_traces htraces hlists).2 step hstep).touched
  written before number offset piece reply after left htraces := by
    obtain ⟨next, hbefore⟩ := htraces.split
    have hnext := (conforms_traces hbefore fun step _ => step.lists_any).1
    cases hnext with
    | step htakes _ =>
      cases htakes with
      | asks hasks => cases hasks
      | saveWrite _ _ hopened => exact hopened
      | snapshotWrite _ _ hopened => exact hopened

/-! ## Files that are told apart -/

theorem Ground.same_file (h : Ground s q rest t) {names names' : List Name} {p p' : Path}
    {number : Nat} (hnames : Dotless names) (hnames' : Dotless names') (hne : names ≠ [])
    (hne' : names' ≠ []) (hfound : t.follow (s.path names) = .found p (.file number))
    (hfound' : t.follow (s.path names') = .found p' (.file number)) : names = names' := by
  have hends := h.endsAt hnames hne true
  have hends' := h.endsAt hnames' hne' true
  rw [← follow, hfound] at hends
  rw [← follow, hfound'] at hends'
  obtain ⟨-, hitem⟩ := hends
  obtain ⟨-, hitem'⟩ := hends'
  rw [Ground.reached_eq] at hitem hitem'
  exact List.append_cancel_left (h.apart _ _ number hitem hitem')

/-- The records that are read are those of the listed files that are not temporary. -/
theorem names_readFiles {entries : List (Name × Bool)} {records : List Record}
    (h : ((s.readFiles directory entries).run t).2 = .ok records) :
    (records.map fun record => (record.directory, record.name))
      = ((entries.filterMap fun entry => Text.utf8? entry.1).filter fun name =>
          !isTemporary name).map (Prod.mk directory) := by
  induction entries generalizing records with
  | nil =>
    obtain rfl : [] = records := Outcome.ok.inj h
    rfl
  | cons entry rest ih =>
    obtain ⟨file, isDir⟩ := entry
    rw [Store.readFiles] at h
    cases hname : Text.utf8? file with
    | none =>
      rw [hname] at h
      simp only [List.filterMap_cons, hname]
      exact ih h
    | some name =>
      rw [hname] at h
      dsimp only at h
      simp only [List.filterMap_cons, hname]
      by_cases htemporary : isTemporary name = true
      · rw [if_pos htemporary] at h
        rw [ih h, List.filter_cons_of_neg (by simp [htemporary])]
      · rw [if_neg htemporary, run_act_bind, Action.perform] at h
        dsimp only at h
        obtain ⟨content, hread, hrest⟩ := exists_of_run_bind_ok h
        rw [eq_ok_of_run_orFail_ok hread, run_orFail_ok] at hrest
        obtain ⟨others, hothers, hrecords⟩ := exists_of_run_bind_ok hrest
        obtain rfl : ⟨directory, name, content⟩ :: others = records := Outcome.ok.inj hrecords
        rw [List.map_cons, ih hothers, List.filter_cons_of_pos (by simp [htemporary]),
          List.map_cons]

theorem pathText_spot_injective {area area' : Area} {directory' : String} {file file' : Name}
    (hd : acceptable directory = true) (hfile : Entry file) (hd' : acceptable directory' = true)
    (hfile' : Entry file')
    (h : s.pathText (spot area directory file) = s.pathText (spot area' directory' file')) :
    area = area' ∧ directory = directory' ∧ file = file' := by
  refine spot_inj.mp (pathText_injective ?_ ?_ rfl h)
  · simp [area.entry, entry_of_acceptable hd, hfile]
  · simp [area'.entry, entry_of_acceptable hd', hfile']

/-- All files of a store are told apart. -/
theorem Store.separates (s : Store) : s.Separates where
  written area directory name directory' name' hd hn hd' hn' heq := by
    obtain ⟨-, hdirectory, hname⟩ := pathText_spot_injective hd (entry_of_acceptable hn) hd'
      (entry_of_acceptable hn') heq
    exact ⟨hdirectory, Text.utf8_injective hname⟩
  files t q rest hground names names' p p' number := hground.same_file
  temporaries area directory name directory' name' hd hn hd' hn' heq := by
    obtain ⟨-, -, hname⟩ := pathText_spot_injective hd (entry_temporaryName hn) hd'
      (entry_of_acceptable hn') heq
    exact temporaryName_ne hn' (Text.utf8_injective hname)
  hidden directory entries t records hok record hrecord name hname := by
    have hmem := List.mem_map_of_mem (f := fun record => (record.directory, record.name)) hrecord
    rw [names_readFiles hok, List.mem_map] at hmem
    obtain ⟨kept, hkept, heq⟩ := hmem
    obtain ⟨-, rfl⟩ := Prod.mk.inj heq
    simp [hname, isTemporary_temporaryName] at hkept
  shown directory entries t records hok name isDir hn hentry := by
    have hkept : (directory, name)
        ∈ records.map fun record => (record.directory, record.name) := by
      rw [names_readFiles hok]
      refine List.mem_map_of_mem (List.mem_filter.mpr ⟨?_, by simp [isTemporary_of_acceptable hn]⟩)
      exact List.mem_filterMap.mpr ⟨_, hentry, Text.utf8?_utf8 name⟩
    obtain ⟨record, hrecord, heq⟩ := List.mem_map.mp hkept
    obtain ⟨rfl, rfl⟩ := Prod.mk.inj heq
    exact ⟨record.content, hrecord⟩

/-- Every call stays inside its store, and the files of a store are told apart. -/
theorem Store.contained_and_separated (s : Store) :
    (∀ c : Call, c.Contained s) ∧ s.Separates := ⟨fun c => c.contained s, s.separates⟩

end

/-- A directory of records, and beside it a link to it. -/
def linkedDirectories : FileTree :=
  (FileTree.empty.withDir [Text.utf8 "data", Area.current.name, Text.utf8 "a"]).withLink
    [Text.utf8 "data", Area.current.name, Text.utf8 "b"] (Text.utf8 "a")

/-- The same record is saved in both directories. -/
def savedThroughLink : FileTree :=
  let first := ((dataStore.save [[120]] "a" "n").run linkedDirectories).1
  ((dataStore.save [[121]] "b" "n").run first).1

/-- A store in a directory that is not there yet. -/
def deepStore : Store := ⟨[Text.utf8 "srv", Text.utf8 "data"], Text.utf8 "srv/data"⟩

/-- Through a link, a record of another directory is overwritten; and a directory that is missing
above the data directory is made. -/
theorem linked_record_overwritten :
    (acceptable "a" = true ∧ acceptable "b" = true ∧ acceptable "n" = true ∧
      dataStore.contentAt savedThroughLink (spot .current "a" (Text.utf8 "n")) = some [121] ∧
      savedThroughLink.follow (dataStore.path (spot .current "a" (Text.utf8 "n")))
        = savedThroughLink.follow (dataStore.path (spot .current "b" (Text.utf8 "n")))) ∧
    ((deepStore.save [[120]] "a" "n").run .empty).1.item? [Text.utf8 "srv"] = some .dir ∧
      ¬ deepStore.Inside "a" [Text.utf8 "srv"] := by
  have hnames : acceptable "a" = true ∧ acceptable "b" = true ∧ acceptable "n" = true := by decide
  have hcontent : dataStore.contentAt savedThroughLink (spot .current "a" (Text.utf8 "n"))
      = some [121] := by cbv
  have hplace : savedThroughLink.follow (dataStore.path (spot .current "a" (Text.utf8 "n")))
      = savedThroughLink.follow (dataStore.path (spot .current "b" (Text.utf8 "n"))) := by cbv
  have habove : ((deepStore.save [[120]] "a" "n").run .empty).1.item? [Text.utf8 "srv"]
      = some .dir := by cbv
  refine ⟨⟨hnames.1, hnames.2.1, hnames.2.2, hcontent, hplace⟩, habove, ?_⟩
  rintro ⟨-, area, file, names, -, -, hpath⟩
  exact absurd (congrArg List.length hpath) (by simp [Store.path, deepStore])

end ChainWatch.Storage
