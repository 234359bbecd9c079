import ChainWatch.Proofs.Storage.Reading
import ChainWatch.Proofs.Storage.Retiring
import ChainWatch.Proofs.Storage.Saving
import ChainWatch.Storage.Reference

/-!
# Calls to a store and what they do to its maps

`Reference.Serves` says what each call may do to the three maps of a store and end with. Where the
files below a data directory are those of the maps, a call to the store does just that.
-/

namespace ChainWatch.Storage

open FileTree Program

/-- A call to a store. A record's content comes in pieces, and a clock is read in nanoseconds. -/
inductive Call where
  | save (pieces : List Bytes) (directory name : String)
  | delete (directory name : String)
  | archive (directory : String)
  | snapshot (clock : Int64) (pieces : List Bytes) (directory name : String)
  | readAll

/-- What a call ends with. -/
inductive Answer where
  | done
  | written (path : Bytes)
  | records (found : List Record)

namespace Call

/-- The program of a call. -/
def program (s : Store) : Call → Program Answer
  | save pieces directory name => do
    s.save pieces directory name
    pure .done
  | delete directory name => do
    s.delete directory name
    pure .done
  | archive directory => do
    s.archive directory
    pure .done
  | snapshot clock pieces directory name => do
    let path ← s.snapshot clock.toInt pieces directory name
    pure (.written path)
  | readAll => do
    let records ← s.readAll
    pure (.records records)

/-- Are the names in a call acceptable, and short enough for what is added to them? -/
def Fits : Call → Prop
  | save _ directory name => Fitting directory ∧ Fitting name
  | delete directory name => Fitting directory ∧ Fitting name
  | archive directory => Fitting directory
  | snapshot _ _ directory name => Fitting directory ∧ Fitting name
  | readAll => True

end Call

/-- What a call ends with and does to the maps of a store. -/
def Reference.Serves (s : Store) (r : Reference) : Call → Outcome Answer → Reference → Prop
  | .save pieces directory name, outcome, r' =>
    outcome = .ok .done ∧ r' = r.save pieces.flatten directory name
  | .delete directory name, outcome, r' =>
    if r.current directory name = none then
      outcome = .error (s.failure (spot .current directory (Text.utf8 name)) .noEntry) ∧ r' = r
    else outcome = .ok .done ∧ r' = r.delete directory name
  | .archive directory, outcome, r' => outcome = .ok .done ∧ r' = r.archive directory
  | .snapshot clock pieces directory name, outcome, r' =>
    (∃ free, FirstFree (r.snapshots directory name) clock.toInt free ∧ free < 2 ^ 63 ∧
      outcome = .ok (.written
        (s.pathText (spot .snapshot directory (Text.utf8 (snapshotName name free))))) ∧
      r' = r.snapshot pieces.flatten directory name free) ∨
    (∀ k, clock.toInt ≤ k → k < 2 ^ 63 → r.snapshots directory name k ≠ none) ∧
      outcome = .fault .sumOverflow ∧ r' = r
  | .readAll, outcome, r' =>
    r' = r ∧ ∃ records, outcome = .ok (.records records) ∧ records.Nodup ∧
      ∀ record, record ∈ records ↔ r.current record.directory record.name = some record.content

/-- The files below a data directory are those of the maps. -/
structure Holds (base : FileTree) (q : Path) (t : FileTree) (r : Reference) : Prop where
  stocked : Stocked base q t
  current : ∀ directory name,
    t.dataAt (q ++ spot .current directory (Text.utf8 name)) = r.current directory name
  archived : ∀ directory name,
    t.dataAt (q ++ spot .archive directory (Text.utf8 name)) = r.archived directory name
  snapshots : ∀ directory name suffix,
    t.dataAt (q ++ spot .snapshot directory (Text.utf8 (snapshotName name suffix)))
      = r.snapshots directory name suffix
  tidy : ∀ area directory name, area ≠ .snapshot →
    t.dataAt (q ++ spot area directory (Text.utf8 (temporaryName name))) = none

section

variable {s : Store} {base t : FileTree} {q : Path} {r : Reference} {directory name : String}

theorem Home.holds (hhome : Home s base q) (hkeyed : base.Keyed) : Holds base q base .empty := by
  have hnone : ∀ p, p ≠ [] → base.dataAt (q ++ p) = none :=
    fun p hp => dataAt_none (hhome.bare p hp)
  exact ⟨hhome.stocked hkeyed, fun _ _ => hnone _ (by simp), fun _ _ => hnone _ (by simp),
    fun _ _ _ => hnone _ (by simp), fun _ _ _ _ => hnone _ (by simp)⟩

/-! ## Changes of one file -/

/-- A record that is written or deleted. -/
theorem Holds.update (h : Holds base q t r) (hn : Fitting name) {after : FileTree}
    {v : Option Bytes} (hstocked : Stocked base q after)
    (hdata : ∀ p, after.dataAt (q ++ p) =
      if p = spot .current directory (Text.utf8 name) then v else t.dataAt (q ++ p)) :
    Holds base q after { r with current := Reference.update r.current directory name v } where
  stocked := hstocked
  current directory' name' := by
    have hsame : spot .current directory' (Text.utf8 name')
          = spot .current directory (Text.utf8 name)
        ↔ directory' = directory ∧ name' = name := by
      rw [spot_inj]
      exact ⟨fun heq => ⟨heq.2.1, Text.utf8_injective heq.2.2⟩, fun heq => by simp [heq]⟩
    rw [hdata]
    dsimp only [Reference.update]
    by_cases heq : directory' = directory ∧ name' = name
    · rw [if_pos (hsame.mpr heq), if_pos heq]
    · rw [if_neg (heq ∘ hsame.mp), if_neg heq, h.current]
  archived directory' name' := by
    rw [hdata, if_neg, h.archived]
    intro heq
    exact absurd (spot_inj.mp heq).1 (by decide)
  snapshots directory' name' suffix := by
    rw [hdata, if_neg, h.snapshots]
    intro heq
    exact absurd (spot_inj.mp heq).1 (by decide)
  tidy area directory' name' harea := by
    rw [hdata, if_neg, h.tidy area directory' name' harea]
    intro heq
    exact temporaryName_ne hn.acceptable (Text.utf8_injective (spot_inj.mp heq).2.2)

/-- A copy that is written. -/
theorem Holds.copied (h : Holds base q t r) {after : FileTree} {suffix : Int}
    {data : Bytes} (hstocked : Stocked base q after)
    (hdata : ∀ p, after.dataAt (q ++ p) =
      if p = spot .snapshot directory (Text.utf8 (snapshotName name suffix)) then some data
      else t.dataAt (q ++ p)) :
    Holds base q after (r.snapshot data directory name suffix) where
  stocked := hstocked
  current directory' name' := by
    rw [hdata, if_neg, h.current]
    · rfl
    · intro heq
      exact absurd (spot_inj.mp heq).1 (by decide)
  archived directory' name' := by
    rw [hdata, if_neg, h.archived]
    · rfl
    · intro heq
      exact absurd (spot_inj.mp heq).1 (by decide)
  snapshots directory' name' suffix' := by
    have hsame : spot .snapshot directory' (Text.utf8 (snapshotName name' suffix'))
          = spot .snapshot directory (Text.utf8 (snapshotName name suffix))
        ↔ directory' = directory ∧ name' = name ∧ suffix' = suffix := by
      rw [spot_inj]
      exact ⟨fun heq => ⟨heq.2.1, snapshotName_injective (Text.utf8_injective heq.2.2)⟩,
        fun heq => by simp [heq]⟩
    rw [hdata]
    dsimp only [Reference.snapshot]
    by_cases heq : directory' = directory ∧ name' = name ∧ suffix' = suffix
    · rw [if_pos (hsame.mpr heq), if_pos heq]
    · rw [if_neg (heq ∘ hsame.mp), if_neg heq, h.snapshots]
  tidy area directory' name' harea := by
    rw [hdata, if_neg, h.tidy area directory' name' harea]
    intro heq
    exact harea (spot_inj.mp heq).1

/-- Records that are retired. -/
theorem Holds.retired (h : Holds base q t r) {after : FileTree} (hstocked : Stocked base q after)
    (hretired : Retired t q directory after) : Holds base q after (r.archive directory) where
  stocked := hstocked
  current directory' name' := by
    dsimp only [Reference.archive]
    by_cases heq : directory' = directory
    · rw [if_pos heq, heq, hretired.live]
    · rw [if_neg heq, hretired.others _ _ _ (.inr heq), h.current]
  archived directory' name' := by
    dsimp only [Reference.archive]
    by_cases heq : directory' = directory
    · rw [if_pos heq, heq, hretired.retired, h.current, h.archived]
    · rw [if_neg heq, hretired.others _ _ _ (.inr heq), h.archived]
  snapshots directory' name' suffix := by
    rw [hretired.others _ _ _ (.inl rfl), h.snapshots]
    rfl
  tidy area directory' name' harea := by
    by_cases heq : directory' = directory
    · rw [heq]
      cases area with
      | current => exact hretired.live _
      | snapshot => exact absurd rfl harea
      | archive => rw [hretired.retired, h.tidy _ _ _ (by decide), h.tidy _ _ _ (by decide)]; rfl
    · rw [hretired.others _ _ _ (.inr heq), h.tidy _ _ _ harea]

/-- The name of a live record is not that of a temporary file. -/
theorem Holds.current_isTemporary (h : Holds base q t r) {data : Bytes}
    (hdata : r.current directory name = some data) : isTemporary name = false := by
  rw [← h.current] at hdata
  rcases h.stocked.spot_cases .current directory (Text.utf8 name) with
    ⟨-, hnone⟩ | ⟨number, -, -, hname⟩
  · rw [hnone] at hdata
    exact absurd hdata (by simp)
  · generalize hfile : Text.utf8 name = file at hname
    cases hname with
    | record _ hn =>
      rw [Text.utf8_injective hfile]
      exact isTemporary_of_acceptable hn.acceptable
    | temporary _ hn =>
      rw [hfile, h.tidy _ _ _ (by decide)] at hdata
      exact absurd hdata (by simp)

/-! ## The steps -/

section Steps

variable (hhome : Home s base q) (h : Holds base q t r)
include hhome h

/-- A call does to the files below a data directory what it does to the maps; where it fails,
nothing has changed. -/
theorem Holds.serve (call : Call) (hfits : call.Fits) :
    ∃ after outcome r', (call.program s).run t = (after, outcome) ∧
      (∀ cause, outcome = .error cause → after = t) ∧ r.Serves s call outcome r' ∧
      Holds base q after r' := by
  cases call with
  | save pieces directory name =>
    obtain ⟨hd, hn⟩ := hfits
    obtain ⟨saved, hrun, hstocked, hdata⟩ := hhome.run_save h.stocked hd hn pieces
    refine ⟨saved, .ok .done, _, ?_, fun _ hcause => absurd hcause (by simp), ⟨rfl, rfl⟩,
      h.update hn hstocked fun p => ?_⟩
    · rw [Call.program, run_bind_of_ok hrun, run_pure]
    · -- the temporary file is gone, and it was not there before
      rw [hdata]
      by_cases htemporary : p = spot .current directory (Text.utf8 (temporaryName name))
      · rw [htemporary, if_pos rfl, h.tidy _ _ _ (by decide)]
      · rw [if_neg htemporary]
  | delete directory name =>
    obtain ⟨hd, hn⟩ := hfits
    rcases hhome.run_delete h.stocked hd hn with
      ⟨hnone, hrun⟩ | ⟨hsome, deleted, hrun, hstocked, hdata⟩
    · rw [h.current] at hnone
      refine ⟨t, _, r, run_bind_of_error hrun _, fun _ _ => rfl, ?_, h⟩
      rw [Reference.Serves, if_pos hnone]
      exact ⟨rfl, rfl⟩
    · rw [h.current] at hsome
      refine ⟨deleted, .ok .done, r.delete directory name, ?_,
        fun _ hcause => absurd hcause (by simp), ?_, h.update hn hstocked hdata⟩
      · rw [Call.program, run_bind_of_ok hrun, run_pure]
      · rw [Reference.Serves, if_neg hsome]
        exact ⟨rfl, rfl⟩
  | archive directory =>
    obtain ⟨archived, hrun, hstocked, hretired⟩ := hhome.run_archive h.stocked hfits
    refine ⟨archived, .ok .done, r.archive directory, ?_, fun _ hcause => absurd hcause (by simp),
      ⟨rfl, rfl⟩, ?_⟩
    · rw [Call.program, run_bind_of_ok hrun, run_pure]
    · exact h.retired hstocked hretired
  | snapshot clock pieces directory name =>
    obtain ⟨hd, hn⟩ := hfits
    have hcopies : copies t q directory name = r.snapshots directory name :=
      funext fun suffix => h.snapshots directory name suffix
    have hruns := hhome.run_snapshot h.stocked hd hn pieces clock.le_toInt clock.toInt_lt
    rw [hcopies] at hruns
    rcases hruns with ⟨free, hfirst, hfree, hcopied⟩ | ⟨hused, made, hrun, hstocked, hdata⟩
    · have hrun : (s.snapshot clock.toInt pieces directory name).run t
          = (((s.snapshot clock.toInt pieces directory name).run t).1, .ok _) :=
        Prod.ext rfl hcopied.answer
      refine ⟨_, .ok (.written _), _, ?_, fun _ hcause => absurd hcause (by simp),
        .inl ⟨free, hfirst, hfree, rfl, rfl⟩, h.copied hcopied.stocked hcopied.data⟩
      rw [Call.program, run_bind_of_ok hrun, run_pure]
    · refine ⟨made, .fault .sumOverflow, r, run_bind_of_fault hrun _,
        fun _ hcause => absurd hcause (by simp), .inr ⟨hused, rfl, rfl⟩, ?_⟩
      exact ⟨hstocked, fun _ _ => by rw [hdata, h.current], fun _ _ => by rw [hdata, h.archived],
        fun _ _ _ => by rw [hdata, h.snapshots],
        fun _ _ _ harea => by rw [hdata, h.tidy _ _ _ harea]⟩
  | readAll =>
    obtain ⟨records, hrun, hnodup, hmem⟩ := (h.stocked.housed hhome).run_readAll
    refine ⟨t, .ok (.records records), r, ?_, fun _ _ => rfl,
      ⟨rfl, records, rfl, hnodup, fun record => ?_⟩, h⟩
    · rw [Call.program, run_bind_of_ok hrun, run_pure]
    · rw [hmem, h.current]
      exact ⟨fun hrecord => hrecord.2, fun hrecord => ⟨h.current_isTemporary hrecord, hrecord⟩⟩

end Steps

end

end ChainWatch.Storage
