import Mathlib
import ChainWatch.Proofs.Storage.Refinement
import ChainWatch.Proofs.Storage.Turns

/-!
# Saves that take turns

Saves of one store may run at the same time, and then their steps come in any order. As long as
the temporary file of a record serves one save at a time, they behave as if each were a single
step: `Store.saves_linear` says that readers find whole records at every moment, that a save puts
its record in place with its last turn if it ends well, and that no other turn changes what readers
find. Saves of different records never meet, so nothing is asked of those.

Two saves of the same record do meet, since the name of the temporary file depends on the record
only.
-/

namespace ChainWatch.Storage

open FileTree Program

/-! ## What readers find while saves take turns -/

/-- Names that readers may ask for, the temporary files of the saves apart. -/
structure Visible (saves : List Save) (names : List Name) : Prop where
  dotless : Dotless names
  nonempty : names ≠ []
  settled : ∀ c ∈ saves, names ≠ c.temporary

/-- Readers find what they found first, or the whole data of a save that has ended well. -/
def Store.Complete (s : Store) (saves : List Save) (first : FileTree)
    (programs : List (Program Unit)) (t : FileTree) : Prop :=
  ∀ names, Visible saves names →
    s.contentAt t names = s.contentAt first names ∨
      ∃ (i : Nat) (c : Save), saves[i]? = some c ∧ programs[i]? = some (.done (.ok ())) ∧ names = c.record ∧
        s.contentAt t names = some c.data

/-- A turn ends a save well and puts its record in place, or it changes nothing that readers find
and no save has ended well by it. -/
def Store.Atomic (s : Store) (saves : List Save) (i : Nat) (programs next : List (Program Unit))
    (t t' : FileTree) : Prop :=
  (∃ c, saves[i]? = some c ∧ programs[i]? ≠ some (.done (.ok ())) ∧
      next[i]? = some (.done (.ok ())) ∧ ∀ names, Visible saves names →
        s.contentAt t' names = if names = c.record then some c.data else s.contentAt t names) ∨
    (next[i]? = some (.done (.ok ())) → programs[i]? = some (.done (.ok ()))) ∧
      ∀ names, Visible saves names → s.contentAt t' names = s.contentAt t names

/-- Readers find whole records at every moment, and every turn is atomic. -/
def Store.Linear (s : Store) (saves : List Save) (first : FileTree) :
    List Nat → List (Program Unit) → FileTree → Prop
  | [], programs, t => s.Complete saves first programs t
  | i :: later, programs, t =>
    let next := interleave [i] programs t
    s.Complete saves first programs t ∧ s.Atomic saves i programs next.2 t next.1 ∧
      s.Linear saves first later next.2 next.1

/-- The two saves write to one temporary file. -/
def SameFile (saves : List Save) (i j : Nat) : Prop :=
  ∃ c c', saves[i]? = some c ∧ saves[j]? = some c' ∧ c.temporary = c'.temporary

/-- Whenever a save opens its temporary file, no other save that goes on later is in the middle of
writing to the same one. -/
def Store.Alone (saves : List Save) : List Nat → List (Program Unit) → FileTree → Prop
  | [], _, _ => True
  | i :: later, programs, t =>
    (∀ j ∈ later, i ≠ j → SameFile saves i j →
      ∀ program other, programs[i]? = some program → programs[j]? = some other →
        program.opens = true → other.holds = false) ∧
    Alone saves later (interleave [i] programs t).2 (interleave [i] programs t).1

/-! ## Invariants -/

/-- The saves that go on later are at their stages, and no two of them write to one file. -/
structure Underway (s : Store) (q : Path) (rest : List Name) (saves : List Save) (later : List Nat)
    (programs : List (Program Unit)) (t : FileTree) : Prop where
  ground : Ground s q rest t
  length : programs.length = saves.length
  stages : ∀ i ∈ later, ∀ c program, saves[i]? = some c → programs[i]? = some program →
    Stage s (reached q rest) c t program
  apart : ∀ i ∈ later, ∀ j ∈ later, i ≠ j → SameFile saves i j →
    ∀ program other, programs[i]? = some program → programs[j]? = some other →
      program.holds = true → other.holds = false

theorem SameFile.symm {saves : List Save} {i j : Nat} (h : SameFile saves i j) :
    SameFile saves j i := by
  obtain ⟨c, c', hc, hc', hsame⟩ := h
  exact ⟨c', c, hc', hc, hsame.symm⟩

section

variable {s : Store} {q : Path} {rest : List Name} {saves : List Save} {first t t' : FileTree}
  {i j : Nat} {later : List Nat} {programs next : List (Program Unit)} {c c' : Save}
  {program program' : Program Unit}

theorem interleave_cons (i : Nat) (later : List Nat) (programs : List (Program Unit))
    (t : FileTree) :
    interleave (i :: later) programs t
      = interleave later (interleave [i] programs t).2 (interleave [i] programs t).1 := by
  cases hprogram : programs[i]? <;> simp only [interleave, hprogram]

theorem interleave_of_getElem? (h : programs[i]? = some program) (t : FileTree) :
    interleave [i] programs t
      = ((program.runSteps 1 t).1, programs.set i (program.runSteps 1 t).2) := by
  simp only [interleave, h]

theorem interleave_of_none (h : programs[i]? = none) (t : FileTree) :
    interleave [i] programs t = (t, programs) := by
  simp only [interleave, h]

theorem Stage.holds_of_writing {number offset : Nat} {pieces : List Bytes} :
    (c.filling s number offset pieces).holds = true := by
  cases pieces <;> rfl

/-- A save whose names are refused does nothing. -/
theorem Stage.quiet (h : Stage s (reached q rest) c t program) (hnamed : ¬ c.Named) :
    program.opens = false ∧ program.holds = false := by
  cases h with
  | ended outcome => exact ⟨rfl, rfl⟩
  | preparing hnamed' _ => exact absurd hnamed' hnamed
  | writing hnamed' _ _ => exact absurd hnamed' hnamed

/-- The stage of another save outlasts a turn, unless both write to one file. -/
theorem Turned.other (h : Turned s q rest c t t' program program')
    (hstage : Stage s (reached q rest) c t program) {other : Program Unit}
    (hother : Stage s (reached q rest) c' t other)
    (hfree : c'.temporary = c.temporary → other.holds = true →
      program.opens = false ∧ program.holds = false) :
    Stage s (reached q rest) c' t' other := by
  cases hother with
  | ended outcome => exact .ended outcome
  | preparing hnamed hprepares => exact .preparing hnamed hprepares
  | writing hnamed hwritten hdata =>
    refine .writing hnamed (h.keeps _ _ _ ?_ hwritten) hdata
    by_cases hsame : c'.temporary = c.temporary
    · exact .inl (hfree hsame Stage.holds_of_writing)
    · by_cases hnamed' : c.Named
      · exact .inr ⟨hsame, (hnamed'.record_ne_temporary c').symm⟩
      · exact .inl (hstage.quiet hnamed')

/-! ## One turn -/

/-- What a turn does to the places of files shows in what readers find. -/
theorem Turned.atomic (h : Turned s q rest c t t' program program') (hground : Ground s q rest t)
    (hc : saves[i]? = some c) (hprogram : programs[i]? = some program)
    (hnext : next[i]? = some program') : s.Atomic saves i programs next t t' := by
  have hmem : c ∈ saves := List.mem_of_getElem? hc
  rcases h.shown with hplaced | ⟨hended, hsame⟩
  · refine .inl ⟨c, hc, ?_, ?_, fun names hvisible => ?_⟩
    · rw [hprogram]
      exact fun heq => hplaced.before (Option.some.inj heq)
    · rw [hnext, hplaced.after]
    · have hdata := hplaced.data names (hvisible.settled c hmem)
      split
      · rename_i hrecord
        rw [hrecord, if_pos rfl] at hdata
        rw [hrecord, h.ground.contentAt_eq (hrecord ▸ hvisible.dotless) (hrecord ▸ hvisible.nonempty),
          if_pos hplaced.short, hdata]
      · rename_i hother
        rw [if_neg hother] at hdata
        exact hground.contentAt_congr h.ground hvisible.dotless hvisible.nonempty hdata
  · refine .inr ⟨fun heq => ?_, fun names hvisible => ?_⟩
    · rw [hnext, Option.some.injEq] at heq
      rw [hprogram, hended heq]
    · exact hground.contentAt_congr h.ground hvisible.dotless hvisible.nonempty
        (hsame names (hvisible.settled c hmem))

/-- A turn leaves the saves that go on at their stages, and apart. -/
theorem Underway.turn (h : Underway s q rest saves (i :: later) programs t)
    (halone : ∀ j ∈ later, i ≠ j → SameFile saves i j →
      ∀ program other, programs[i]? = some program → programs[j]? = some other →
        program.opens = true → other.holds = false) :
    s.Atomic saves i programs (interleave [i] programs t).2 t (interleave [i] programs t).1 ∧
      Underway s q rest saves later (interleave [i] programs t).2 (interleave [i] programs t).1 := by
  have hi : i ∈ i :: later := List.mem_cons_self
  have hlater : ∀ {j}, j ∈ later → j ∈ i :: later := fun hj => List.mem_cons_of_mem _ hj
  cases hprogram : programs[i]? with
  | none =>
    rw [interleave_of_none hprogram]
    refine ⟨.inr ⟨id, fun _ _ => rfl⟩, h.ground, h.length, fun j hj => h.stages j (hlater hj), ?_⟩
    exact fun j hj k hk => h.apart j (hlater hj) k (hlater hk)
  | some program =>
    have hlength : i < programs.length := (List.getElem?_eq_some_iff.mp hprogram).1
    obtain ⟨c, hc⟩ : ∃ c, saves[i]? = some c :=
      ⟨_, List.getElem?_eq_getElem (h.length ▸ hlength)⟩
    have hstage := h.stages i hi c program hc hprogram
    have hturned := hstage.turn h.ground
    rw [interleave_of_getElem? hprogram]
    have hself : (programs.set i (program.runSteps 1 t).2)[i]? = some (program.runSteps 1 t).2 :=
      List.getElem?_set_self hlength
    have hothers : ∀ {j}, i ≠ j → (programs.set i (program.runSteps 1 t).2)[j]? = programs[j]? :=
      fun hne => List.getElem?_set_ne hne
    refine ⟨hturned.atomic h.ground hc hprogram hself, hturned.ground, ?_, ?_, ?_⟩
    · rw [List.length_set, h.length]
    · -- the save that had its turn is at its next stage, the others stay at theirs
      intro j hj c' other hc' hother
      by_cases hne : i = j
      · subst hne
        rw [hself, Option.some.injEq] at hother
        rw [hc, Option.some.injEq] at hc'
        rw [← hother, ← hc']
        exact hturned.stage
      · rw [hothers hne] at hother
        refine hturned.other hstage (h.stages j (hlater hj) c' other hc' hother) fun hsame hholds => ?_
        have htemporary : SameFile saves i j := ⟨c, c', hc, hc', hsame.symm⟩
        constructor
        · rw [← Bool.not_eq_true]
          intro hopens
          have hnot := halone j hj hne htemporary program other hprogram hother hopens
          exact Bool.false_ne_true (hnot.symm.trans hholds)
        · exact h.apart j (hlater hj) i hi (Ne.symm hne) htemporary.symm other program hother
            hprogram hholds
    · -- whoever holds a file after the turn held it before, or has just opened it
      have hopener : ∀ j ∈ later, i ≠ j → SameFile saves i j → ∀ other,
          programs[j]? = some other → (program.runSteps 1 t).2.holds = true →
            other.holds = false := by
        intro j hj hne hsame other hother hholds
        rcases hturned.holds hholds with hopens | hheld
        · exact halone j hj hne hsame program other hprogram hother hopens
        · exact h.apart i hi j (hlater hj) hne hsame program other hprogram hother hheld
      intro j hj k hk hne hsame one other hone hother hholds
      by_cases hij : i = j
      · subst hij
        rw [hself, Option.some.injEq] at hone
        rw [hothers hne] at hother
        exact hopener k hk hne hsame other hother (hone ▸ hholds)
      · rw [hothers hij] at hone
        by_cases hik : i = k
        · subst hik
          rw [hself, Option.some.injEq] at hother
          rw [← hother, ← Bool.not_eq_true]
          intro hholds'
          have hnot := hopener j hj hij hsame.symm one hone hholds'
          exact Bool.false_ne_true (hnot.symm.trans hholds)
        · rw [hothers hik] at hother
          exact h.apart j (hlater hj) k (hlater hk) hne hsame one other hone hother hholds

theorem Store.Atomic.complete (h : s.Atomic saves i programs (interleave [i] programs t).2 t
      (interleave [i] programs t).1) (hcomplete : s.Complete saves first programs t) :
    s.Complete saves first (interleave [i] programs t).2 (interleave [i] programs t).1 := by
  -- a save that has ended well stays so
  have hdone : ∀ j : Nat, programs[j]? = some (.done (.ok ())) →
      (interleave [i] programs t).2[j]? = some (.done (.ok ())) := by
    intro j hj
    cases hprogram : programs[i]? with
    | none => rwa [interleave_of_none hprogram]
    | some program =>
      rw [interleave_of_getElem? hprogram]
      by_cases hne : i = j
      · subst hne
        rw [hprogram, Option.some.injEq] at hj
        rw [List.getElem?_set_self (List.getElem?_eq_some_iff.mp hprogram).1, hj]
        rfl
      · rw [List.getElem?_set_ne hne, hj]
  intro names hvisible
  rcases h with ⟨c, hc, -, hended, hplaced⟩ | ⟨-, hsame⟩
  · rw [hplaced names hvisible]
    split
    · rename_i hrecord
      exact .inr ⟨i, c, hc, hended, hrecord, rfl⟩
    · rcases hcomplete names hvisible with hfirst | ⟨j, c', hc', hj, hnames, hcontent⟩
      · exact .inl hfirst
      · exact .inr ⟨j, c', hc', hdone j hj, hnames, hcontent⟩
  · rw [hsame names hvisible]
    rcases hcomplete names hvisible with hfirst | ⟨j, c', hc', hj, hnames, hcontent⟩
    · exact .inl hfirst
    · exact .inr ⟨j, c', hc', hdone j hj, hnames, hcontent⟩

/-! ## All turns -/

theorem Underway.linear (h : Underway s q rest saves later programs t)
    (halone : Store.Alone saves later programs t) (hcomplete : s.Complete saves first programs t) :
    s.Linear saves first later programs t := by
  induction later generalizing programs t with
  | nil => exact hcomplete
  | cons i later ih =>
    obtain ⟨hatomic, hnext⟩ := h.turn halone.1
    exact ⟨hcomplete, hatomic, ih hnext halone.2 (hatomic.complete hcomplete)⟩

theorem underway_start (hground : Ground s q rest t) (saves : List Save) (later : List Nat) :
    Underway s q rest saves later (saves.map fun c => c.program s) t := by
  have hholds : ∀ {k : Nat} {program : Program Unit},
      (saves.map fun c => c.program s)[k]? = some program → program.holds = false := by
    intro k program hprogram
    rw [List.getElem?_map, Option.map_eq_some_iff] at hprogram
    obtain ⟨c, -, rfl⟩ := hprogram
    exact (c.early s).holds
  refine ⟨hground, List.length_map _, fun i _ c program hc hprogram => ?_, ?_⟩
  · rw [List.getElem?_map, hc, Option.map_some, Option.some.injEq] at hprogram
    rw [← hprogram]
    exact stage_start s _ c t
  · intro i _ j _ _ _ program other hprogram hother hheld
    exact hholds hother

end

/-- At every moment of such turns readers find whole records. -/
theorem Store.Linear.complete {s : Store} {saves : List Save} {first t : FileTree}
    {turns : List Nat} {programs : List (Program Unit)} (h : s.Linear saves first turns programs t)
    (count : Nat) :
    s.Complete saves first (interleave (turns.take count) programs t).2
      (interleave (turns.take count) programs t).1 := by
  induction turns generalizing programs t count with
  | nil =>
    rw [List.take_nil]
    exact h
  | cons i later ih =>
    cases count with
    | zero => exact h.1
    | succ count =>
      rw [List.take_succ_cons, interleave_cons]
      exact ih h.2.2 count

/-- Saves that take turns in any order, the temporary file of each record serving one of them at a
time, behave as if each were a single step. -/
theorem Store.saves_linear {s : Store} {q : Path} {rest : List Name} {t : FileTree}
    (hground : Ground s q rest t) (saves : List Save) (turns : List Nat)
    (halone : Store.Alone saves turns (saves.map fun c => c.program s) t) :
    (∀ c ∈ saves, c.program s ≠ .done (.ok ())) ∧
      s.Linear saves t turns (saves.map fun c => c.program s) t := by
  have hfirst : s.Complete saves t (saves.map fun c => c.program s) t := fun names _ => .inl rfl
  exact ⟨fun c _ => c.program_ne s, (underway_start hground saves turns).linear halone hfirst⟩

/-- Saves of different records never meet. -/
theorem alone_of_nodup {saves : List Save} (hdistinct : (saves.map Save.temporary).Nodup)
    (later : List Nat) (programs : List (Program Unit)) (t : FileTree) :
    Store.Alone saves later programs t := by
  induction later generalizing programs t with
  | nil => trivial
  | cons i later ih =>
    refine ⟨?_, ih _ _⟩
    rintro j - hne ⟨c, c', hc, hc', hsame⟩
    have hi : (saves.map Save.temporary)[i]? = some c.temporary := by
      rw [List.getElem?_map, hc, Option.map_some]
    have hj : (saves.map Save.temporary)[j]? = some c'.temporary := by
      rw [List.getElem?_map, hc', Option.map_some]
    have hlength := (List.getElem?_eq_some_iff.mp hi).1
    exact absurd ((List.getElem?_inj hlength hdistinct).mp (by rw [hi, hj, hsame])) hne

theorem ground_empty : Ground dataStore [] [Text.utf8 "data"] .empty where
  way := ⟨[], mostLinks, rfl, .arrive⟩
  level name hname := by
    rw [List.mem_singleton.mp hname, Text.utf8_eq_flatMap]
    decide
  dir := rfl
  keyed := List.nodup_nil
  closed p name hitem := absurd (by simp [item?, FileTree.empty]) hitem
  linkless p target hitem := by
    by_cases hp : p = [] <;> simp [item?, FileTree.empty, hp] at hitem
  held p number hitem := by
    by_cases hp : p = [] <;> simp [item?, FileTree.empty, hp] at hitem
  apart p p' number hitem := by
    by_cases hp : p = [] <;> simp [item?, FileTree.empty, hp] at hitem

/-- Whether turns leave each save alone with its temporary file can be computed. -/
def Store.keptApart (saves : List Save) : List Nat → List (Program Unit) → FileTree → Bool
  | [], _, _ => true
  | i :: later, programs, t =>
    (later.all fun j => i == j || saves[i]?.map Save.temporary != saves[j]?.map Save.temporary
      || !(programs[i]?.any Program.opens && programs[j]?.any Program.holds)) &&
    match interleave [i] programs t with
    | (after, next) => Store.keptApart saves later next after

theorem alone_of_keptApart {saves : List Save} {turns : List Nat} {programs : List (Program Unit)}
    {t : FileTree} (h : Store.keptApart saves turns programs t = true) :
    Store.Alone saves turns programs t := by
  induction turns generalizing programs t with
  | nil => trivial
  | cons i later ih =>
    rw [Store.keptApart, Bool.and_eq_true] at h
    refine ⟨?_, ih h.2⟩
    intro j hj hne ⟨c, c', hc, hc', hsame⟩ program other hprogram hother hopens
    have hcheck := List.all_eq_true.mp h.1 j hj
    simpa [hne, hc, hc', hsame, hprogram, hother, hopens] using hcheck

def firstPage : Save := ⟨[[65, 65]], "books", "a"⟩

def otherPage : Save := ⟨[[66]], "books", "b"⟩

/-- The record of the first page once more. -/
def secondPage : Save := ⟨[[66]], "books", "a"⟩

def pages : List Save := [firstPage, otherPage, secondPage]

/-- The second page makes its directories while the first one is being written, and waits with its
temporary file until that has its place; the other page goes on all the time. -/
def inTurn : List Nat :=
  [0, 1, 0, 1, 0, 0, 1, 0, 1, 1, 1, 2, 0, 2, 1, 0, 0, 2, 1, 2, 1, 2, 1, 1]

/-- A record is saved twice, and another one of its directory meanwhile. -/
theorem saves_linear_pages :
    Ground dataStore [] [Text.utf8 "data"] .empty ∧
      Store.Alone pages inTurn (pages.map fun c => c.program dataStore) .empty ∧
      dataStore.Linear pages .empty inTurn (pages.map fun c => c.program dataStore) .empty ∧
      dataStore.contentAt (interleave inTurn (pages.map fun c => c.program dataStore) .empty).1
        secondPage.record = some [66] := by
  have halone : Store.Alone pages inTurn (pages.map fun c => c.program dataStore) .empty := by
    apply alone_of_keptApart
    cbv
  have hlinear := (Store.saves_linear ground_empty pages inTurn halone).2
  exact ⟨ground_empty, halone, hlinear, by cbv⟩

/-! ## Two saves of the same record -/

/-- The first save has made the directories and opened the temporary file when the second one opens
it again; after that each of them writes, and then gives the file its place. -/
def overlapping : List Nat := [0, 0, 0, 0, 0, 0, 1, 1, 1, 0, 1, 0, 1]

/-- The two saves after some of these turns. -/
def afterTurns (count : Nat) : FileTree × List (Program Unit) :=
  interleave (overlapping.take count) [firstPage.program dataStore, secondPage.program dataStore]
    .empty

/-- Two saves of the same record mix their data in one temporary file: the first of them ends well
with a record that holds neither data, and the second one fails though its data shows. -/
theorem saves_torn :
    ((afterTurns 12).2[0]? = some (.done (.ok ())) ∧
      dataStore.contentAt (afterTurns 12).1 firstPage.record = some [66, 65] ∧
      (afterTurns 13).2[1]?
        = some (.done (.error (dataStore.failure secondPage.record .noEntry)))) ∧
    ¬ dataStore.Linear [firstPage, secondPage] .empty overlapping
      [firstPage.program dataStore, secondPage.program dataStore] .empty := by
  have htorn : dataStore.contentAt (afterTurns 12).1 firstPage.record = some [66, 65] := by cbv
  refine ⟨⟨by cbv, htorn, by cbv⟩, fun hlinear => ?_⟩
  have hnamed : firstPage.Named := by
    constructor <;> decide
  have hvisible : Visible [firstPage, secondPage] firstPage.record :=
    ⟨hnamed.dotless_record, List.cons_ne_nil _ _, fun c _ => hnamed.record_ne_temporary c⟩
  rcases hlinear.complete 12 firstPage.record hvisible with hfirst | ⟨i, c, hc, -, -, hwhole⟩
  · have hnothing : dataStore.contentAt .empty firstPage.record = none := by cbv
    have hsame := htorn.symm.trans (hfirst.trans hnothing)
    exact absurd hsame (by simp)
  · have hdata : c.data = [66, 65] := Option.some.inj (hwhole.symm.trans htorn)
    have hmem : c ∈ [firstPage, secondPage] := List.mem_of_getElem? hc
    rcases List.mem_cons.mp hmem with rfl | hmem
    · exact absurd hdata (by decide)
    · rw [List.mem_singleton.mp hmem] at hdata
      exact absurd hdata (by decide)

end ChainWatch.Storage
