import ChainWatch.Proofs.Storage.History
import ChainWatch.Proofs.Storage.Lasting

/-!
# How far a snapshot has come

`Copying` tells the stages of a snapshot: its directory is prepared, the suffixes from the clock on
are tried, and the copy is filled. Neither the snapshot's own next step nor one of another call takes
anything of it back, and every try but the last has found a file of its own.
-/

namespace ChainWatch.Storage

open FileTree Program

/-- Does a step try to make a new file? -/
def Action.isTry : Action → Bool
  | .openNew _ => true
  | _ => false

/-- How often new files were tried to be made. -/
def triesIn (taken : List (FileTree × Action)) : Nat := taken.countP fun step => step.2.isTry

/-- What a snapshot is asked for. -/
structure Snapshot where
  clock : Int64
  pieces : List Bytes
  directory : String
  name : String

namespace Snapshot

def call (c : Snapshot) : Call := .snapshot c.clock c.pieces c.directory c.name

def Named (c : Snapshot) : Prop := acceptable c.directory = true ∧ acceptable c.name = true

/-- The directory of the copy. -/
def dir (c : Snapshot) : List Name := [Area.snapshot.name, Text.utf8 c.directory]

/-- The copy with this suffix. -/
abbrev spot (c : Snapshot) (suffix : Int) : List Name := copySpot c.directory c.name suffix

/-- Every suffix from the clock up to this one is used. -/
structure UsedUpTo (c : Snapshot) (s : Store) (t : FileTree) (suffix : Int) : Prop where
  from_clock : c.clock.toInt ≤ suffix
  used : ∀ k, c.clock.toInt ≤ k → k < suffix → s.copyAt t c.directory c.name k ≠ none

/-- A copy was made with this suffix, and has this number. -/
structure Copied (c : Snapshot) (s : Store) (t : FileTree) (taken : List (FileTree × Action))
    (suffix : Int) (number : Nat) : Prop where
  first : ∃ before, (before, Action.openNew (s.path (c.spot suffix))) ∈ taken ∧
    FirstFree (s.copyAt before c.directory c.name) c.clock.toInt suffix
  last : suffix ≤ lastSuffix
  tries : (triesIn taken : Int) = suffix - c.clock.toInt + 1
  used : c.UsedUpTo s t suffix
  file : s.FileAt t (c.spot suffix) number

/-- What is left to do once the copy's directory is there. -/
def copying (c : Snapshot) (s : Store) (left : Nat) (suffix : Int) : Program Answer :=
  s.snapshotFrom c.pieces c.dir c.name left suffix >>= fun path => pure (.written path)

/-- What is left to do once the copy is there, too. -/
def filling (c : Snapshot) (s : Store) (number offset : Nat) (rest : List Bytes) (suffix : Int) :
    Program Answer :=
  (Store.writePieces number offset rest >>= fun _ => pure (s.pathText (c.spot suffix))) >>=
    fun path => pure (.written path)

/-- What is left to do once there is an answer to a try. -/
def afterTry (c : Snapshot) (s : Store) (left : Nat) (suffix : Int) :
    Except OsError Nat → Program Answer
  | .ok number => c.filling s number 0 c.pieces suffix
  | .error cause =>
    if cause = .alreadyExists then
      match left with
      | 0 => .done (.fault .sumOverflow)
      | left + 1 => c.copying s left (suffix + 1)
    else .done (.error (s.failure (c.spot suffix) cause))

end Snapshot

/-- How far a snapshot has come; `number` is that of its copy. -/
inductive Copying (s : Store) (t : FileTree) (c : Snapshot) :
    Program Answer → List (FileTree × Action) → (number : Option Nat) → Prop
  | preparing {program : Program Unit} {taken : List (FileTree × Action)} :
    c.Named → Prepares (s.path c.dir) program → triesIn taken = 0 →
      Copying s t c ((program >>= fun _ => s.snapshotFrom c.pieces c.dir c.name
        (lastSuffix - c.clock.toInt).toNat c.clock.toInt) >>= fun path => pure (.written path))
        taken none
  | trying {left : Nat} {suffix : Int} {taken : List (FileTree × Action)} :
    c.Named → c.UsedUpTo s t suffix → suffix + left = lastSuffix →
    (triesIn taken : Int) = suffix - c.clock.toInt →
      Copying s t c (c.copying s left suffix) taken none
  | filling {number : Nat} {suffix : Int} {rest : List Bytes} {taken : List (FileTree × Action)} :
    c.Named → c.Copied s t taken suffix number →
    t.content number ++ rest.flatten = c.pieces.flatten →
      Copying s t c (c.filling s number (t.content number).length rest suffix) taken (some number)
  | failed {outcome : Outcome Answer} {taken : List (FileTree × Action)} :
    (∀ answer, outcome ≠ .ok answer) → (¬ c.Named → triesIn taken = 0) →
    (c.Named → ∃ suffix, c.UsedUpTo s t suffix ∧
      (triesIn taken : Int) ≤ suffix - c.clock.toInt + 1) →
      Copying s t c (.done outcome) taken none

section

variable {s : Store} {t t' : FileTree} {c : Snapshot} {program left : Program Answer}
  {taken : List (FileTree × Action)} {number : Option Nat} {suffix : Int} {a : Action}

/-! ## The steps of a snapshot -/

theorem copying_eq (c : Snapshot) (s : Store) (left : Nat) (suffix : Int) :
    c.copying s left suffix
      = .step (.openNew (s.path (c.spot suffix))) (c.afterTry s left suffix) := by
  rw [Snapshot.copying, Store.snapshotFrom.eq_def]
  refine congrArg (Program.step _) (funext fun reply => ?_)
  cases reply with
  | ok number => rfl
  | error cause =>
    by_cases hcause : cause = .alreadyExists
    · subst hcause
      cases left <;> rfl
    · show Program.bind (if cause = .alreadyExists then _ else _) _ = _
      rw [if_neg hcause, Snapshot.afterTry.eq_def]
      dsimp only
      rw [if_neg hcause]
      rfl

theorem triesIn_append (taken : List (FileTree × Action)) (t : FileTree) (a : Action) :
    triesIn (taken ++ [(t, a)]) = triesIn taken + if a.isTry then 1 else 0 := by
  simp [triesIn, List.countP_append, List.countP_singleton]

theorem Snapshot.UsedUpTo.perform (h : c.UsedUpTo s t suffix) (hstanding : Standing s t)
    (hnamed : c.Named) (ha : s.Takes a) : c.UsedUpTo s (a.perform t).1 suffix :=
  ⟨h.from_clock, fun k hk hk' =>
    hstanding.copyAt_perform ha hnamed.1 hnamed.2 (h.used k hk hk')⟩

theorem Snapshot.UsedUpTo.succ (h : c.UsedUpTo s t suffix)
    (hused : s.copyAt t c.directory c.name suffix ≠ none) : c.UsedUpTo s t (suffix + 1) := by
  have hclock := h.from_clock
  refine ⟨by omega, fun k hk hk' => ?_⟩
  by_cases hlast : k = suffix
  · rwa [hlast]
  · exact h.used k hk (by omega)

/-- A step of another call takes nothing back. -/
theorem Copying.others (h : Copying s t c program taken number) (hstanding : Standing s t)
    (ha : s.Takes a)
    (hkept : ∀ m, number = some m → (a.perform t).1.content m = t.content m) :
    Copying s (a.perform t).1 c program taken number := by
  cases h with
  | preparing hnamed hprepares htries => exact .preparing hnamed hprepares htries
  | trying hnamed hused hleft htries =>
    exact .trying hnamed (hused.perform hstanding hnamed ha) hleft htries
  | failed hfails hnone hsome =>
    refine .failed hfails hnone fun hnamed => ?_
    obtain ⟨suffix, hused, htries⟩ := hsome hnamed
    exact ⟨suffix, hused.perform hstanding hnamed ha, htries⟩
  | @filling number suffix rest taken hnamed hcopied hcontent =>
    have hsame := hkept number rfl
    rw [← hsame] at hcontent ⊢
    refine .filling hnamed ?_ hcontent
    exact { hcopied with
      used := hcopied.used.perform hstanding hnamed ha
      file := hcopied.file.perform ha }

/-- An answer to a try that found nothing leads to the next try, or to none. -/
theorem Copying.afterTry_error {left : Nat} {cause : OsError} (hnamed : c.Named)
    (hused : c.UsedUpTo s t suffix) (hleft : suffix + left = lastSuffix)
    (htries : (triesIn taken : Int) = suffix - c.clock.toInt + 1)
    (hcause : cause = .alreadyExists → s.copyAt t c.directory c.name suffix ≠ none) :
    Copying s t c (c.afterTry s left suffix (.error cause)) taken none := by
  rw [Snapshot.afterTry.eq_def]
  dsimp only
  split
  · rename_i hexists
    cases left with
    | zero => exact .failed (by simp) (absurd hnamed) fun _ => ⟨suffix, hused, by omega⟩
    | succ left =>
      refine .trying hnamed (hused.succ (hcause hexists)) ?_ (by omega)
      push_cast at hleft
      omega
  · exact .failed (by simp) (absurd hnamed) fun _ => ⟨suffix, hused, by omega⟩

/-- A try makes the copy, or leads to the next one. -/
theorem Copying.perform_copying {left : Nat} (hstanding : Standing s t) (hnamed : c.Named)
    (hused : c.UsedUpTo s t suffix) (hleft : suffix + left = lastSuffix)
    (htries : (triesIn taken : Int) = suffix - c.clock.toInt) :
    ∃ number, Copying s ((c.copying s left suffix).runSteps 1 t).1 c
        ((c.copying s left suffix).runSteps 1 t).2
        (taken ++ (c.copying s left suffix).action?.toList.map (t, ·)) number ∧
      (number = none ∨ number = some t.contents.length) := by
  have htaken : (triesIn (taken ++ [(t, .openNew (s.path (c.spot suffix)))]) : Int)
      = suffix - c.clock.toInt + 1 := by
    rw [triesIn_append]
    simp only [Action.isTry, if_true]
    push_cast
    omega
  rw [copying_eq]
  show ∃ number, Copying s (t.openNew (s.path (c.spot suffix))).1 c
    (c.afterTry s left suffix (t.openNew (s.path (c.spot suffix))).2)
    (taken ++ [(t, .openNew (s.path (c.spot suffix)))]) number ∧ _
  have htakes : s.Takes (.openNew (s.path (c.spot suffix))) :=
    .openNew hnamed.1 (.copy suffix hnamed.2)
  rcases hstanding.openNew_cases hnamed.1 hnamed.2 suffix with
    ⟨hthere, hopen⟩ | ⟨cause, hcause, hopen⟩ | ⟨made, hfree, hopen, hfile, hempty⟩
  · rw [hopen]
    exact ⟨none, afterTry_error hnamed hused hleft htaken fun _ => hthere, .inl rfl⟩
  · rw [hopen]
    exact ⟨none, afterTry_error hnamed hused hleft htaken fun hexists => absurd hexists hcause,
      .inl rfl⟩
  · have hmade := hused.perform hstanding hnamed htakes
    rw [Action.perform] at hmade
    rw [hopen] at hmade ⊢
    refine ⟨some t.contents.length, ?_, .inr rfl⟩
    have hcopied : c.Copied s made (taken ++ [(t, .openNew (s.path (c.spot suffix)))]) suffix
        t.contents.length :=
      ⟨⟨t, by simp, hused.from_clock, hfree, hused.used⟩, by omega, htaken, hmade, hfile⟩
    have hwhole : made.content t.contents.length ++ c.pieces.flatten = c.pieces.flatten := by
      rw [hempty, List.nil_append]
    have hfilling := Copying.filling hnamed hcopied hwhole
    rwa [hempty] at hfilling

theorem Copying.preparing_next {program : Program Unit} (hnamed : c.Named)
    (hprepares : Prepares (s.path c.dir) program) (htries : triesIn taken = 0)
    (hno : a.isTry = false) (t t' : FileTree) :
    Copying s t' c ((program >>= fun _ => s.snapshotFrom c.pieces c.dir c.name
      (lastSuffix - c.clock.toInt).toNat c.clock.toInt) >>= fun path => pure (.written path))
      (taken ++ [(t, a)]) none := by
  refine .preparing hnamed hprepares ?_
  rw [triesIn_append, htries, hno]
  rfl

/-- The next piece is written behind what is there. -/
theorem Copying.write_piece {made : Nat} {piece : Bytes} {rest : List Bytes}
    (hstanding : Standing s t) (hnamed : c.Named) (hcopied : c.Copied s t taken suffix made)
    (hcontent : t.content made ++ (piece :: rest).flatten = c.pieces.flatten) :
    Copying s (t.writeAt made (t.content made).length piece) c
      (c.filling s made ((t.content made).length + piece.length) rest suffix)
      (taken ++ [(t, .writeAt made (t.content made).length piece)]) (some made) := by
  have htakes : s.Takes (.writeAt made (t.content made).length piece) := .writeAt _ _ _
  have hwritten : (t.writeAt made (t.content made).length piece).content made
      = t.content made ++ piece := by
    rw [writeAt_end, content_filled hcopied.file.lt, if_pos rfl]
  have hcopied' : c.Copied s (t.writeAt made (t.content made).length piece)
      (taken ++ [(t, .writeAt made (t.content made).length piece)]) suffix made := {
    first := by
      obtain ⟨before, htry, hfirst⟩ := hcopied.first
      exact ⟨before, List.mem_append_left _ htry, hfirst⟩
    last := hcopied.last
    tries := by
      rw [triesIn_append]
      exact hcopied.tries
    used := hcopied.used.perform hstanding hnamed htakes
    file := hcopied.file.perform htakes }
  rw [List.flatten_cons, ← List.append_assoc, ← hwritten] at hcontent
  have hfilling := Copying.filling hnamed hcopied' hcontent
  rwa [hwritten, List.length_append] at hfilling

theorem Snapshot.UsedUpTo.start (c : Snapshot) (s : Store) (t : FileTree) :
    c.UsedUpTo s t c.clock.toInt := ⟨Int.le_refl _, fun k hk hk' => absurd hk' (by omega)⟩

theorem clock_le_last (clock : Int64) :
    clock.toInt + ((lastSuffix - clock.toInt).toNat : Int) = lastSuffix := by
  have hlast : lastSuffix = 2 ^ 63 - 1 := by decide
  have hclock := clock.toInt_lt
  omega

theorem Copying.ended {outcome : Outcome Answer}
    (h : Copying s t c (.done outcome) taken number) :
    Copying s t c (.done outcome) (taken ++ []) number := by
  rwa [List.append_nil]

/-- A step that is performed. Only the one that makes the copy gives it a number, the next one. -/
theorem Copying.performed (h : Copying s t c program taken number) (hstanding : Standing s t) :
    ∃ number', Copying s (program.runSteps 1 t).1 c (program.runSteps 1 t).2
        (taken ++ program.action?.toList.map (t, ·)) number' ∧
      (number' = number ∨ number = none ∧ number' = some t.contents.length) := by
  cases h with
  | @preparing program taken hnamed hprepares htries =>
    cases hprepares with
    | done outcome =>
      cases outcome with
      | ok value =>
        -- the directory is there, and the first try is the one with the clock's suffix
        obtain ⟨number, hcopying, hnumber⟩ := perform_copying hstanding hnamed
          (Snapshot.UsedUpTo.start c s t) (clock_le_last c.clock)
          (show (triesIn taken : Int) = c.clock.toInt - c.clock.toInt by omega)
        exact ⟨number, hcopying, hnumber.imp_right fun hmade => ⟨rfl, hmade⟩⟩
      | error cause | fault cause =>
        refine ⟨none, ended ?_, .inl rfl⟩
        exact .failed (by simp) (absurd hnamed) fun _ =>
          ⟨c.clock.toInt, .start c s t, by omega⟩
    | makeDir hx hnext =>
      exact ⟨none, preparing_next hnamed (hnext _) htries rfl t _, .inl rfl⟩
    | isDir hnext =>
      exact ⟨none, preparing_next hnamed (hnext _) htries rfl t _, .inl rfl⟩
  | trying hnamed hused hleft htries =>
    obtain ⟨number, hcopying, hnumber⟩ := perform_copying hstanding hnamed hused hleft htries
    exact ⟨number, hcopying, hnumber.imp_right fun hmade => ⟨rfl, hmade⟩⟩
  | @filling number suffix rest taken hnamed hcopied hcontent =>
    cases rest with
    | nil => exact ⟨some number, ended (.filling hnamed hcopied hcontent), .inl rfl⟩
    | cons piece rest =>
      exact ⟨some number, write_piece hstanding hnamed hcopied hcontent, .inl rfl⟩
  | failed hfails hnone hsome => exact ⟨none, ended (.failed hfails hnone hsome), .inl rfl⟩

/-- A step that is refused. -/
theorem Copying.refused (h : Copying s t c program taken number) {cause : OsError}
    (hcause : cause ≠ .alreadyExists) (hrefuse : program.refuse cause = some left) :
    Copying s t c left (taken ++ program.action?.toList.map (t, ·)) number := by
  have htry {left' : Nat} {suffix : Int} (hnamed : c.Named) (hused : c.UsedUpTo s t suffix)
      (hleft : suffix + left' = lastSuffix)
      (htries : (triesIn taken : Int) = suffix - c.clock.toInt)
      (hrefuse : (c.copying s left' suffix).refuse cause = some left) :
      Copying s t c left (taken ++ (c.copying s left' suffix).action?.toList.map (t, ·)) none := by
    rw [copying_eq] at hrefuse ⊢
    obtain rfl := Option.some.inj hrefuse
    refine afterTry_error hnamed hused hleft ?_ fun hexists => absurd hexists hcause
    show (triesIn (taken ++ [(t, .openNew (s.path (c.spot suffix)))]) : Int) = _
    rw [triesIn_append]
    simp only [Action.isTry, if_true]
    push_cast
    omega
  cases h with
  | preparing hnamed hprepares htries =>
    cases hprepares with
    | done outcome =>
      cases outcome with
      | ok value =>
        exact htry hnamed (.start c s t) (clock_le_last c.clock) (by omega) hrefuse
      | error cause => exact absurd hrefuse nofun
      | fault cause => exact absurd hrefuse nofun
    | makeDir hx hnext =>
      obtain rfl := Option.some.inj hrefuse
      exact preparing_next hnamed (hnext _) htries rfl t t
    | isDir hnext =>
      obtain rfl := Option.some.inj hrefuse
      exact preparing_next hnamed (hnext _) htries rfl t t
  | trying hnamed hused hleft htries => exact htry hnamed hused hleft htries hrefuse
  | @filling number suffix rest taken hnamed hcopied hcontent =>
    -- a write is never refused
    cases rest with
    | nil => exact absurd hrefuse nofun
    | cons piece rest => exact absurd hrefuse nofun
  | failed hfails hnone hsome => exact absurd hrefuse nofun

/-! ## From the first step to the last -/

theorem Copying.start (c : Snapshot) (s : Store) (t : FileTree) :
    Copying s t c (c.call.program s) [] none := by
  by_cases hnamed : c.Named
  · have hprogram : c.call.program s = (s.makeDirs c.dir >>= fun _ =>
        s.snapshotFrom c.pieces c.dir c.name (lastSuffix - c.clock.toInt).toNat c.clock.toInt) >>=
          fun path => pure (.written path) := by
      rw [Snapshot.call, Call.program, Store.snapshot, Store.checkName, if_pos hnamed.2,
        Store.checkName, if_pos hnamed.1]
      rfl
    rw [hprogram]
    exact .preparing hnamed (prepares_makeDirs s c.dir) rfl
  · -- an unacceptable name ends the call at once
    have hrefused : ∃ cause, c.call.program s = .done (.error cause) := by
      rw [Snapshot.call, Call.program, Store.snapshot]
      by_cases hn : acceptable c.name = true
      · have hd : ¬ acceptable c.directory = true := fun hd => hnamed ⟨hd, hn⟩
        rw [Store.checkName, if_pos hn, Store.checkName, if_neg hd]
        exact ⟨_, rfl⟩
      · rw [Store.checkName, if_neg hn]
        exact ⟨_, rfl⟩
    obtain ⟨cause, hprogram⟩ := hrefused
    rw [hprogram]
    exact .failed (by simp) (fun _ => rfl) fun hyes => absurd hyes hnamed

/-- A snapshot that has ended well has made its copy, and nothing is missing from it. -/
theorem Copying.of_written {path : Bytes}
    (h : Copying s t c (.done (.ok (.written path))) taken number) :
    ∃ suffix m, number = some m ∧ path = s.pathText (c.spot suffix) ∧ c.Named ∧
      c.Copied s t taken suffix m ∧ t.content m = c.pieces.flatten := by
  generalize hprogram : Program.done (.ok (Answer.written path)) = program at h
  cases h with
  | preparing hnamed hprepares htries =>
    cases hprepares with
    | done outcome =>
      cases outcome with
      | ok value =>
        have hcopying := copying_eq c s (lastSuffix - c.clock.toInt).toNat c.clock.toInt
        exact absurd (hprogram.trans hcopying) nofun
      | error cause => exact absurd hprogram nofun
      | fault cause => exact absurd hprogram nofun
    | makeDir _ _ => exact absurd hprogram nofun
    | isDir _ => exact absurd hprogram nofun
  | trying _ _ _ _ => exact absurd (hprogram.trans (copying_eq _ _ _ _)) nofun
  | @filling number suffix rest taken hnamed hcopied hcontent =>
    cases rest with
    | nil =>
      have hpath : Program.done (.ok (Answer.written path))
          = .done (.ok (Answer.written (s.pathText (c.spot suffix)))) := hprogram
      have hsame : path = s.pathText (c.spot suffix) := by simpa using hpath
      exact ⟨suffix, number, rfl, hsame, hnamed, hcopied, by simpa using hcontent⟩
    | cons piece rest => exact absurd hprogram nofun
  | failed hfails _ _ => exact absurd (Program.done.inj hprogram).symm (hfails _)

/-! ## Tries and entries -/

theorem Store.FileAt.list {area : Area} {directory : String} {file : Name} {m : Nat}
    (h : s.FileAt t (spot area directory file) m) :
    ∃ entries, t.list (s.path [area.name, Text.utf8 directory]) = .ok entries ∧
      file ∈ entries.map Prod.fst := by
  obtain ⟨base, q, hhoused, hitem⟩ := h
  have hplain := (hhoused.belongs _ _ (by simp) hitem).plain
  have hdir : t.item? (q ++ [area.name, Text.utf8 directory]) = some .dir :=
    hhoused.rooted.closed [area.name, Text.utf8 directory] file (by simp [hitem])
  have hplainDir : ∀ name ∈ [area.name, Text.utf8 directory], Plain name :=
    fun name hname => hplain name (List.mem_append_left [file] hname)
  obtain ⟨entries, hlist, -, hentries⟩ := hhoused.list (p := [area.name]) hplainDir hdir
  exact ⟨entries, hlist, List.mem_map_of_mem ((hentries file _).mpr ⟨_, hitem, rfl⟩)⟩

/-- Every suffix that is used is that of a file of its own. -/
theorem Snapshot.UsedUpTo.le_length (h : c.UsedUpTo s t suffix) (hstanding : Standing s t)
    (hnamed : c.Named) {entries : List (Name × Bool)}
    (hlist : t.list (s.path c.dir) = .ok entries) :
    suffix - c.clock.toInt ≤ entries.length := by
  have hclock := h.from_clock
  let files := (List.range (suffix - c.clock.toInt).toNat).map fun i : Nat =>
    Text.utf8 (snapshotName c.name (c.clock.toInt + i))
  have hnodup : files.Nodup := by
    refine List.Nodup.map (fun i j hij => ?_) List.nodup_range
    have hsuffix := (snapshotName_injective (Text.utf8_injective hij)).2
    omega
  have hsubset : files ⊆ entries.map Prod.fst := by
    intro file hfile
    obtain ⟨i, hi, rfl⟩ := List.mem_map.mp hfile
    have hlt := List.mem_range.mp hi
    obtain ⟨m, hat⟩ := hstanding.fileAt_of_used hnamed.1 hnamed.2
      (h.used (c.clock.toInt + i) (by omega) (by omega))
    obtain ⟨entries', hlist', hmem⟩ := hat.list
    obtain rfl : entries' = entries := Except.ok.inj (hlist'.symm.trans hlist)
    exact hmem
  have hle := (List.subperm_of_subset hnodup hsubset).length_le
  have hlength : files.length = (suffix - c.clock.toInt).toNat := by simp [files]
  rw [hlength, List.length_map] at hle
  omega

/-- At any time all tries but one have found a file. -/
theorem Copying.tries_le (h : Copying s t c program taken number) (hstanding : Standing s t)
    {entries : List (Name × Bool)} (hlist : t.list (s.path c.dir) = .ok entries) :
    triesIn taken ≤ entries.length + 1 := by
  cases h with
  | preparing _ _ htries => omega
  | trying hnamed hused _ htries =>
    have hle := hused.le_length hstanding hnamed hlist
    omega
  | filling hnamed hcopied _ =>
    have hle := hcopied.used.le_length hstanding hnamed hlist
    have htries := hcopied.tries
    omega
  | failed _ hnone hsome =>
    by_cases hnamed : c.Named
    · obtain ⟨suffix, hused, htries⟩ := hsome hnamed
      have hle := hused.le_length hstanding hnamed hlist
      omega
    · rw [hnone hnamed]
      exact Nat.zero_le _

/-- Once the copy is there, each try has a file of its own. -/
theorem Snapshot.Copied.tries_le {m : Nat} (h : c.Copied s t taken suffix m)
    (hstanding : Standing s t) (hnamed : c.Named) :
    ∃ entries, t.list (s.path c.dir) = .ok entries ∧ triesIn taken ≤ entries.length := by
  obtain ⟨entries, hlist, -⟩ := h.file.list
  have hown : s.copyAt t c.directory c.name suffix ≠ none := by
    rw [Store.copyAt, h.file.contentAt]
    exact Option.some_ne_none _
  have hle := (h.used.succ hown).le_length hstanding hnamed hlist
  have htries := h.tries
  exact ⟨entries, hlist, by omega⟩

end

end ChainWatch.Storage
