import Mathlib.Algebra.Order.BigOperators.Group.List
import ChainWatch.HeadFollower
import ChainWatch.Proofs.Cache.Ledger
import ChainWatch.Proofs.Storage.Undisturbed
import ChainWatch.Proofs.Text.Digits
import ChainWatch.Storage.Layout

/-!
# The distinct heads are recorded

A head is recorded unless one that is known by the same was recorded within the window before it.
`recordings` says which heads those are, from the events alone: it knows neither a cache nor
sweeps. A follower agrees with it after every event (`Agrees.step`), so what it has seen, what it
answers and which saves it has made are those of the recordings (`distinct_heads_recorded`).

Readers find the number of the last head whose save went well, and every other file as it was
before the first head, also in the middle of a save.
-/

namespace ChainWatch.HeadFollower

open Storage

/-! ## What a head is known by -/

/-- Two heads are known by the same: by their hash, or by their number if neither has a hash. -/
def SameHead (h h' : Header) : Prop := h.hash = h'.hash ∧ (h.hash = none → h.number = h'.number)

instance (h h' : Header) : Decidable (SameHead h h') := inferInstanceAs (Decidable (_ ∧ _))

/-- The text that a head is known by tells a hash from a number, and one from another. -/
theorem key_eq_iff (h h' : Header) : key h = key h' ↔ SameHead h h' := by
  unfold key SameHead
  cases hhash : h.hash with
  | some hash =>
    cases hhash' : h'.hash with
    | some hash' =>
      rw [Option.some.injEq]
      exact ⟨fun heq => ⟨Hash.text_injective heq, nofun⟩, fun heq => congrArg Hash.text heq.1⟩
    | none => exact ⟨fun heq => absurd heq (hash.text_ne_decimal _), nofun⟩
  | none =>
    cases hhash' : h'.hash with
    | some hash' => exact ⟨fun heq => absurd heq.symm (hash'.text_ne_decimal _), nofun⟩
    | none =>
      refine ⟨fun heq => ⟨rfl, fun _ => ?_⟩, fun heq => ?_⟩
      · have hdigits := congrArg String.toList heq
        rw [Nat.toString_eq_repr, Nat.toString_eq_repr, Nat.toList_repr, Nat.toList_repr] at hdigits
        exact UInt64.toNat_inj.mp (decimal_injective hdigits)
      · rw [heq.2 rfl]

/-! ## The recordings -/

def Event.time : Event → Nat
  | .sweep now => now
  | .head now _ => now

/-- The clock never goes back from one event to a later one. -/
def Timely (events : List Event) : Prop :=
  events.Pairwise fun event later => event.time ≤ later.time

/-- A head that was recorded, and when. -/
structure Recording where
  time : Nat
  head : Header
deriving DecidableEq

/-- Was a head that is known by the same as `h` recorded within the window before `now`? -/
def Recent (window now : Nat) (h : Header) (log : List Recording) : Prop :=
  ∃ r ∈ log, SameHead r.head h ∧ now ≤ r.time + window

instance (window now : Nat) (h : Header) (log : List Recording) :
    Decidable (Recent window now h log) :=
  inferInstanceAs (Decidable (∃ r ∈ log, _))

/-- The recordings after one more event, the newest first. -/
def logged (window : Nat) (log : List Recording) : Event → List Recording
  | .sweep _ => log
  | .head now h => if Recent window now h log then log else ⟨now, h⟩ :: log

/-- Which heads are recorded while these events are met, the newest first. -/
def recordings (window : Nat) (events : List Event) : List Recording :=
  events.foldl (logged window) []

theorem recent_mono {window now later : Nat} {h : Header} {log : List Recording} (le : now ≤ later)
    (hrecent : Recent window later h log) : Recent window now h log := by
  obtain ⟨r, hmem, hsame, hle⟩ := hrecent
  exact ⟨r, hmem, hsame, Nat.le_trans le hle⟩

theorem recent_cons {window now time : Nat} {h h' : Header} {log : List Recording} :
    Recent window now h (⟨time, h'⟩ :: log) ↔
      SameHead h' h ∧ now ≤ time + window ∨ Recent window now h log := by
  simp only [Recent, List.mem_cons, or_and_right, exists_or, exists_eq_left]

/-! ## The saves of the recordings -/

/-- The save of a head that is recorded. -/
def saving (h : Header) : Save :=
  ⟨[Text.utf8 (toString h.number.toNat)], headsDirectory, latestName⟩

/-- The file of the recorded head. -/
def latestFile : List Name :=
  [Area.current.name, Text.utf8 headsDirectory, Text.utf8 latestName]

/-- The file that stands next to it while it is being saved. -/
def latestTemporary : List Name :=
  [Area.current.name, Text.utf8 headsDirectory, Text.utf8 (temporaryName latestName)]

section Saves

variable (store : Store) (files : FileTree)

/-- The files after the save of a head, and how it ended. -/
def saved (h : Header) : FileTree × Outcome Unit := ((saving h).program store).run files

/-- The files after the heads of the recordings were saved one after the other. -/
def savedAll : List Recording → FileTree
  | [] => files
  | r :: earlier => (saved store (savedAll earlier) r.head).1

/-- Did all of these saves go well? -/
def AllWell : List Recording → Prop
  | [] => True
  | r :: earlier => AllWell earlier ∧ (saved store (savedAll store files earlier) r.head).2 = .ok ()

/-- The last one of the recorded heads whose save went well. -/
def lastWell : List Recording → Option Header
  | [] => none
  | r :: earlier =>
    if (saved store (savedAll store files earlier) r.head).2 = .ok () then some r.head
    else lastWell earlier

/-- What readers find where `head` was saved last: its number in the file of the recorded head, and
every other file as in the tree `first`. -/
structure Shows (first t : FileTree) (head : Option Header) : Prop where
  latest : store.contentAt t latestFile =
    match head with
    | some h => some (Text.utf8 (toString h.number.toNat))
    | none => store.contentAt first latestFile
  others : ∀ names, Dotless names → names ≠ [] → names ≠ latestTemporary → names ≠ latestFile →
    store.contentAt t names = store.contentAt first names

end Saves

theorem AllWell.lastWell_eq {store : Store} {files : FileTree} {log : List Recording}
    (h : AllWell store files log) : lastWell store files log = log.head?.map Recording.head := by
  cases log with
  | nil => rfl
  | cons r earlier =>
    rw [lastWell, if_pos h.2]
    rfl

section

variable {store : Store} {q : Path} {rest : List Name} {files first t t' : FileTree}
  {head : Option Header} {h : Header} {left : Program Unit}

/-- The save of a head has one temporary file, whatever the head. -/
theorem visible_saving (h : Header) {names : List Name} (hdotless : Dotless names)
    (hne : names ≠ []) (htemporary : names ≠ latestTemporary) : Visible [saving h] names := by
  refine ⟨hdotless, hne, fun c hc => ?_⟩
  rw [List.mem_singleton.mp hc]
  exact htemporary

theorem visible_latestFile (h : Header) : Visible [saving h] latestFile := by
  have hnamed : (saving h).Named := by
    constructor
    · show acceptable latestName = true
      decide
    · show acceptable headsDirectory = true
      decide
  exact visible_saving h hnamed.dotless_record nofun (hnamed.record_ne_temporary (saving h))

theorem shows_first (store : Store) (first : FileTree) : Shows store first first none :=
  ⟨rfl, fun _ _ _ _ _ => rfl⟩

theorem Shows.placed (hshows : Shows store first t head) (hshown : (saving h).Shown store t t' left)
    (hdone : left = .done (.ok ())) : Shows store first t' (some h) := by
  refine ⟨?_, fun names hdotless hne htemporary hlatest => ?_⟩
  · rw [hshown.placed hdone _ (visible_latestFile h)]
    exact (if_pos rfl).trans (congrArg some (List.append_nil _))
  · have hvisible := visible_saving h hdotless hne htemporary
    rw [hshown.placed hdone names hvisible, ← hshows.others names hdotless hne htemporary hlatest]
    exact if_neg hlatest

theorem Shows.hidden (hshows : Shows store first t head) (hshown : (saving h).Shown store t t' left)
    (hnot : left ≠ .done (.ok ())) : Shows store first t' head := by
  refine ⟨?_, fun names hdotless hne htemporary hlatest => ?_⟩
  · rw [hshown.hidden hnot _ (visible_latestFile h)]
    exact hshows.latest
  · have hvisible := visible_saving h hdotless hne htemporary
    rw [hshown.hidden hnot names hvisible]
    exact hshows.others names hdotless hne htemporary hlatest

/-- After all the saves readers find the number of the last head whose save went well. -/
theorem shows_savedAll (hground : Ground store q rest files) (log : List Recording) :
    Ground store q rest (savedAll store files log) ∧
      Shows store files (savedAll store files log) (lastWell store files log) := by
  -- on the recordings from the first one on; a save that fails leaves the last good one showing
  induction log with
  | nil => exact ⟨hground, shows_first store files⟩
  | cons r earlier ih =>
    obtain ⟨hground', hshows⟩ := ih
    obtain ⟨hafter, hshown⟩ := Save.run hground' (saving r.head)
    refine ⟨hafter, ?_⟩
    rw [savedAll, lastWell]
    split
    · rename_i hwell
      exact hshows.placed hshown (congrArg Program.done hwell)
    · rename_i hfailed
      exact hshows.hidden hshown fun heq => hfailed (Program.done.inj heq)

end

/-! ## A follower and the recordings -/

/-- A follower at a time has seen, has recorded and has saved what the recordings say. -/
structure Agrees (store : Store) (window : Nat) (files : FileTree) (log : List Recording)
    (now : Nat) (f : Follower) : Prop where
  timespan : f.seen.timespan = window
  seen : ∃ r : Cache.Records String Unit, Cache.Keeps f.seen now r ∧
    ∀ later, now ≤ later → ∀ h, r.live window later (key h) ↔ Recent window later h log
  last : f.last = log.head?.map Recording.head
  files : f.files = savedAll store files log

section

variable {store : Store} {window now : Nat} {files : FileTree} {log : List Recording} {f : Follower}

theorem agrees_start (store : Store) (window : Nat) (files : FileTree) :
    Agrees store window files [] 0 (.start window files) := by
  refine ⟨rfl, ⟨_, .empty window 0, fun later _ h => ?_⟩, rfl, rfl⟩
  constructor
  · rintro ⟨value, time, hnone, -⟩
    exact absurd hnone nofun
  · rintro ⟨r, hmem, -⟩
    exact absurd hmem List.not_mem_nil

theorem Agrees.mono (h : Agrees store window files log now f) {later : Nat} (le : now ≤ later) :
    Agrees store window files log later f := by
  obtain ⟨r, hkeeps, hlive⟩ := h.seen
  exact ⟨h.timespan, ⟨r, hkeeps.mono le, fun after hafter => hlive after (Nat.le_trans le hafter)⟩,
    h.last, h.files⟩

theorem Agrees.sweep (h : Agrees store window files log now f) :
    Agrees store window files log now (f.step store (.sweep now)) := by
  obtain ⟨r, hkeeps, hlive⟩ := h.seen
  exact ⟨h.timespan, ⟨r, hkeeps.sweep, hlive⟩, h.last, h.files⟩

/-- A head is new to a follower exactly if it was not recorded recently. -/
theorem Agrees.isNew_iff (h : Agrees store window files log now f) (header : Header) :
    (f.seen.add now (key header) ()).2 = true ↔ ¬ Recent window now header log := by
  obtain ⟨r, hkeeps, hlive⟩ := h.seen
  rw [(hkeeps.add (key header) ()).1, h.timespan, ← hlive now (Nat.le_refl _) header,
    ← r.isSome_get?_iff, Cache.Records.add]
  cases (r.get? window now (key header)).isSome <;> simp

/-- A head that was recorded recently only lets the follower forget what has expired. -/
theorem Agrees.skipped (h : Agrees store window files log now f) {header : Header}
    (hrecent : Recent window now header log) :
    Agrees store window files log now (f.step store (.head now header)) ∧
      (f.step store (.head now header)).last = f.last ∧
      (f.step store (.head now header)).files = f.files := by
  have hold : ¬ (f.seen.add now (key header) ()).2 = true := fun hnew =>
    (h.isNew_iff header).mp hnew hrecent
  obtain ⟨r, hkeeps, hlive⟩ := h.seen
  obtain ⟨-, hadded, -⟩ := hkeeps.add (key header) ()
  have hstep : f.step store (.head now header)
      = { f with seen := (f.seen.add now (key header) ()).1 } := by
    rw [Follower.step]
    exact if_neg hold
  have hrecords : (r.add f.seen.timespan now (key header) ()).1 = r := by
    rw [Cache.Records.add, h.timespan, if_pos]
    rw [r.isSome_get?_iff, hlive now (Nat.le_refl _)]
    exact hrecent
  rw [hrecords] at hadded
  rw [hstep]
  exact ⟨⟨(Cache.Expiring.timespan_add ..).trans h.timespan, ⟨r, hadded, hlive⟩, h.last, h.files⟩,
    rfl, rfl⟩

/-- A head that was not is recorded and saved. -/
theorem Agrees.recorded (h : Agrees store window files log now f) {header : Header}
    (hnot : ¬ Recent window now header log) :
    Agrees store window files (⟨now, header⟩ :: log) now (f.step store (.head now header)) ∧
      (f.step store (.head now header)).last = some header ∧
      (f.step store (.head now header)).files = (saved store f.files header).1 := by
  have hnew := (h.isNew_iff header).mpr hnot
  obtain ⟨r, hkeeps, hlive⟩ := h.seen
  obtain ⟨-, hadded, -⟩ := hkeeps.add (key header) ()
  have hstep : f.step store (.head now header)
      = ⟨(f.seen.add now (key header) ()).1, (saved store f.files header).1, some header⟩ := by
    rw [Follower.step]
    exact if_pos hnew
  have hrecords : (r.add f.seen.timespan now (key header) ()).1
      = fun k => if k = key header then some ((), now) else r k := by
    rw [Cache.Records.add, h.timespan, if_neg]
    rw [r.isSome_get?_iff, hlive now (Nat.le_refl _)]
    exact hnot
  rw [hrecords] at hadded
  rw [hstep]
  refine ⟨⟨(Cache.Expiring.timespan_add ..).trans h.timespan, ⟨_, hadded, fun later hlater h' => ?_⟩,
    rfl, ?_⟩, rfl, rfl⟩
  · rw [recent_cons, ← key_eq_iff]
    by_cases hsame : key h' = key header
    · -- what was recorded before is out of the window by now, so only the new recording counts
      have hold : ¬ Recent window later h' log := fun hrecent => by
        have hlive' := (hlive now (Nat.le_refl _) h').mpr (recent_mono hlater hrecent)
        rw [hsame, hlive now (Nat.le_refl _)] at hlive'
        exact hnot hlive'
      simp [Cache.Records.live, hsame, hold]
    · rw [← hlive later hlater h']
      simp [Cache.Records.live, hsame, Ne.symm hsame]
  · rw [savedAll, ← h.files]

/-- One event: the follower goes on to agree with the recordings. -/
theorem Agrees.step (h : Agrees store window files log now f) {event : Event}
    (le : now ≤ event.time) :
    Agrees store window files (logged window log event) event.time (f.step store event) := by
  cases event with
  | sweep time => exact (h.mono le).sweep
  | head time header =>
    rw [logged]
    split
    · rename_i hrecent
      exact ((h.mono le).skipped hrecent).1
    · rename_i hnot
      exact ((h.mono le).recorded hnot).1

theorem getLastD_trail (f : Follower) (store : Store) (events : List Event) :
    (f.trail store events).getLastD f = events.foldl (fun f event => f.step store event) f := by
  induction events generalizing f with
  | nil => rfl
  | cons event rest ih =>
    rw [Follower.trail, List.getLastD_cons, List.foldl_cons]
    exact ih _

/-- All events: a follower that starts in agreement with the recordings ends so. -/
theorem Agrees.run (h : Agrees store window files log now f) {events : List Event}
    (hordered : Timely events) (hlater : ∀ event ∈ events, now ≤ event.time) {after : Nat}
    (le : now ≤ after) (hafter : ∀ event ∈ events, event.time ≤ after) :
    Agrees store window files (events.foldl (logged window) log) after
      (events.foldl (fun f event => f.step store event) f) := by
  induction events generalizing log now f with
  | nil => exact h.mono le
  | cons event rest ih =>
    obtain ⟨hfirst, hrest⟩ := List.pairwise_cons.mp hordered
    rw [List.forall_mem_cons] at hlater hafter
    exact ih (h.step hlater.1) hrest hfirst hafter.1 hafter.2

end

/-! ## Following heads -/

/-- A follower that has met these events answers with the head that was recorded last, whatever
became of its save, has made the saves of the recorded heads in turn and no other, and will record
the next head unless one that is known by the same was recorded within the window before it. -/
structure Follower.Records (f : Follower) (store : Store) (window : Nat) (files : FileTree)
    (events : List Event) : Prop where
  /-- There is no such head as long as none was recorded. -/
  last : f.last = (recordings window events).head?.map Recording.head
  files : f.files = savedAll store files (recordings window events)
  next : ∀ now h, (∀ event ∈ events, event.time ≤ now) →
    if Recent window now h (recordings window events) then
      (f.step store (.head now h)).last = f.last ∧ (f.step store (.head now h)).files = f.files
    else
      (f.step store (.head now h)).last = some h ∧
        (f.step store (.head now h)).files = (saved store f.files h).1

/-- What readers find when a follower has met these events: the number of its last head if all saves
went well, else of the last one whose save did, and the same still while the next head is being
saved, up to the end of that save. -/
structure Follower.Displays (f : Follower) (store : Store) (window : Nat) (files : FileTree)
    (events : List Event) : Prop where
  whole : AllWell store files (recordings window events) → Shows store files f.files f.last
  partly : Shows store files f.files (lastWell store files (recordings window events))
  placed : ∀ h count, (((saving h).program store).runSteps count f.files).2 = .done (.ok ()) →
    Shows store files (((saving h).program store).runSteps count f.files).1 (some h)
  before : ∀ h count, (((saving h).program store).runSteps count f.files).2 ≠ .done (.ok ()) →
    Shows store files (((saving h).program store).runSteps count f.files).1
      (lastWell store files (recordings window events))

/-- Whatever heads come, and whenever the window is swept in between, those are recorded that are
known by nothing that was recorded within the window before them. -/
theorem distinct_heads_recorded (store : Store) {window : Nat} (files : FileTree)
    {events : List Event} (hpos : 0 < window) (hordered : Timely events) :
    ∃ f, follow store window files events = .ok f ∧ f.Records store window files events ∧
      ∀ q rest, Ground store q rest files → f.Displays store window files events := by
  have hfollow : follow store window files events
      = .ok (events.foldl (fun f event => f.step store event) (.start window files)) := by
    rw [follow, fault?, if_neg (Nat.ne_of_gt hpos), ← getLastD_trail]
  have hagrees {now : Nat} (hnow : ∀ event ∈ events, event.time ≤ now) :
      Agrees store window files (recordings window events) now
        (events.foldl (fun f event => f.step store event) (.start window files)) :=
    (agrees_start store window files).run hordered (fun _ _ => Nat.zero_le _) (Nat.zero_le _) hnow
  -- no event comes after the sum of all times, so there is a time after which to look
  obtain ⟨now, hnow⟩ : ∃ now, ∀ event ∈ events, event.time ≤ now :=
    ⟨(events.map Event.time).sum, fun event hmem => List.le_sum_of_mem (List.mem_map_of_mem hmem)⟩
  refine ⟨_, hfollow, ⟨(hagrees hnow).last, (hagrees hnow).files, fun now h hnow => ?_⟩, ?_⟩
  · split
    · rename_i hrecent
      exact ((hagrees hnow).skipped hrecent).2
    · rename_i hnot
      exact ((hagrees hnow).recorded hnot).2
  · intro q rest hground
    obtain ⟨hground', hshows⟩ := shows_savedAll hground (recordings window events)
    rw [← (hagrees hnow).files] at hground' hshows
    refine ⟨fun hwell => ?_, hshows, fun h count hdone => ?_, fun h count hnot => ?_⟩
    · rw [(hagrees hnow).last, ← hwell.lastWell_eq]
      exact hshows
    · exact hshows.placed (Save.runSteps hground' (saving h) count).2 hdone
    · exact hshows.hidden (Save.runSteps hground' (saving h) count).2 hnot

def firstHead : Header := ⟨7, some (.ofUInt64 1), none⟩

def pendingHead : Header := ⟨7, none, none⟩

/-- A head, once more while it is in the window, its number without a hash, and the head once more
when it is out of the window. -/
def sightings : List Event :=
  [.head 1 firstHead, .sweep 2, .head 3 firstHead, .head 4 pendingHead, .sweep 5, .head 7 firstHead]

/-- Three of four heads are recorded, and all their saves go well. -/
theorem three_heads_recorded :
    0 < 5 ∧ Timely sightings ∧ Ground dataStore [] [Text.utf8 "data"] .empty ∧
      recordings 5 sightings = [⟨7, firstHead⟩, ⟨4, pendingHead⟩, ⟨1, firstHead⟩] ∧
      AllWell dataStore .empty (recordings 5 sightings) ∧
      ∃ f, follow dataStore 5 .empty sightings = .ok f ∧
        f.Records dataStore 5 .empty sightings ∧ f.Displays dataStore 5 .empty sightings := by
  have hpos : 0 < 5 := by decide
  have hordered : Timely sightings := by
    unfold Timely
    decide
  have hlog : recordings 5 sightings = [⟨7, firstHead⟩, ⟨4, pendingHead⟩, ⟨1, firstHead⟩] := by
    decide
  have hwell : AllWell dataStore .empty (recordings 5 sightings) := by
    rw [hlog]
    refine ⟨⟨⟨trivial, ?_⟩, ?_⟩, ?_⟩ <;> cbv
  obtain ⟨f, hfollow, hrecords, hdisplays⟩ :=
    distinct_heads_recorded dataStore .empty hpos hordered
  exact ⟨hpos, hordered, ground_empty, hlog, hwell, f, hfollow, hrecords,
    hdisplays _ _ ground_empty⟩

/-- Another record of the name that the recorded head has. -/
def otherLatest : Save := ⟨[[120]], "books", latestName⟩

/-- A tree with the other record and nothing else. -/
def otherOnly : FileTree :=
  FileTree.empty.withFile (dataStore.path otherLatest.record) otherLatest.data

/-- The directory of the recorded head is a link to the one of the other record. -/
def linkedHeads : FileTree :=
  otherOnly.withLink (dataStore.path (saving firstHead).dir) (Text.utf8 "books")

/-- The way to the data directory leads through a directory that is not there yet. -/
def detour : Store := ⟨[Text.utf8 "x", [46, 46], Text.utf8 "data"], Text.utf8 "x/../data"⟩

/-- If readers find something else in the other record than before, it does not stay as it was. -/
theorem not_displays {store : Store} {window : Nat} {files : FileTree} {events : List Event}
    {f : Follower} (hwell : AllWell store files (recordings window events))
    (hchanged : store.contentAt f.files otherLatest.record
      ≠ store.contentAt files otherLatest.record) :
    ¬ f.Displays store window files events := by
  have hnamed : otherLatest.Named := by
    constructor <;> decide
  have hother : otherLatest.record ≠ latestFile := fun heq => by
    have hdirectory := (List.cons.inj (List.cons.inj heq).2).1
    exact absurd (Text.utf8_injective hdirectory) (by decide)
  exact fun hdisplays => hchanged ((hdisplays.whole hwell).others otherLatest.record
    hnamed.dotless_record nofun (hnamed.record_ne_temporary (saving firstHead)) hother)

/-- Without a window nothing is followed at all. Where a link makes two records one, the save of a
head changes the other record; and where it makes the way to a data directory, records are found
that were out of reach. -/
theorem heads_not_always_recorded :
    (follow dataStore 0 .empty [.head 1 firstHead] = .fault .zeroPeriod ∧
      ¬ ∃ f, follow dataStore 0 .empty [.head 1 firstHead] = .ok f ∧
        f.Records dataStore 0 .empty [.head 1 firstHead]) ∧
    (¬ ∃ f, follow dataStore 1 linkedHeads [.head 1 firstHead] = .ok f ∧
      f.Displays dataStore 1 linkedHeads [.head 1 firstHead]) ∧
    ¬ ∃ f, follow detour 1 otherOnly [.head 1 firstHead] = .ok f ∧
      f.Displays detour 1 otherOnly [.head 1 firstHead] := by
  refine ⟨⟨rfl, fun ⟨f, hfollow, _⟩ => absurd hfollow nofun⟩, ?_, ?_⟩
  · rintro ⟨f, hfollow, hdisplays⟩
    have hbefore : dataStore.contentAt linkedHeads otherLatest.record = some [120] := by cbv
    have hafter : dataStore.contentAt f.files otherLatest.record = some [55] := by
      cases hfollow
      cbv
    have hwell : AllWell dataStore linkedHeads (recordings 1 [.head 1 firstHead]) :=
      ⟨trivial, by cbv⟩
    refine not_displays hwell ?_ hdisplays
    rw [hbefore, hafter]
    decide
  · rintro ⟨f, hfollow, hdisplays⟩
    have hbefore : detour.contentAt otherOnly otherLatest.record = none := by cbv
    have hafter : detour.contentAt f.files otherLatest.record = some [120] := by
      cases hfollow
      cbv
    have hwell : AllWell detour otherOnly (recordings 1 [.head 1 firstHead]) :=
      ⟨trivial, by cbv⟩
    refine not_displays hwell ?_ hdisplays
    rw [hbefore, hafter]
    decide

end ChainWatch.HeadFollower
