import ChainWatch.Proofs.Storage.Interleaving

/-!
# A save by itself

While nothing else changes the files, readers find what they found before a save until its last
step, and the whole record from then on, if it ends well. A save that fails shows nowhere, whether
the system refuses a step of it or it is not gone on with.
-/

namespace ChainWatch.Storage

open FileTree Program

/-- What readers find while a save is at work by itself: `left` is what it has yet to do. -/
structure Save.Shown (c : Save) (s : Store) (t t' : FileTree) (left : Program Unit) : Prop where
  placed : left = .done (.ok ()) → ∀ names, Visible [c] names →
    s.contentAt t' names = if names = c.record then some c.data else s.contentAt t names
  hidden : left ≠ .done (.ok ()) → ∀ names, Visible [c] names →
    s.contentAt t' names = s.contentAt t names

section

variable {s : Store} {q : Path} {rest : List Name} {c : Save} {t : FileTree}
  {program next : Program Unit}

/-- A save shows as it did from another tree in which readers find the same. -/
theorem Save.Shown.congr {t' t'' : FileTree} {left : Program Unit} (h : c.Shown s t' t'' left)
    (hsame : ∀ names, Visible [c] names → s.contentAt t' names = s.contentAt t names) :
    c.Shown s t t'' left where
  placed hdone names hvisible := by rw [h.placed hdone names hvisible, hsame names hvisible]
  hidden hnot names hvisible := by rw [h.hidden hnot names hvisible, hsame names hvisible]

/-! ## Steps that are refused -/

/-- A refused step leaves a save at its beginning. -/
theorem Early.refuse (h : Early s c program) {cause : OsError}
    (hrefuse : program.refuse cause = some next) : Early s c next := by
  cases h with
  | failed _ => exact absurd hrefuse nofun
  | preparing hnamed hprepares =>
    cases hprepares with
    | done outcome =>
      cases outcome with
      | ok value =>
        obtain rfl := Option.some.inj hrefuse
        exact .failed nofun
      | error _ => exact absurd hrefuse nofun
      | fault _ => exact absurd hrefuse nofun
    | makeDir _ hnext =>
      obtain rfl := Option.some.inj hrefuse
      exact .preparing hnamed (hnext _)
    | isDir hnext =>
      obtain rfl := Option.some.inj hrefuse
      exact .preparing hnamed (hnext _)

/-- A refused step leaves a save at its beginning or ends it. -/
theorem Stage.refuse (hground : Ground s q rest t) (hstage : Stage s (reached q rest) c t program)
    {cause : OsError} (hrefuse : program.refuse cause = some next) :
    Turned s q rest c t t program next := by
  cases hstage with
  | ended outcome => exact absurd hrefuse nofun
  | preparing hnamed hprepares =>
    have hearly : Early s c next := (Early.preparing hnamed hprepares).refuse hrefuse
    exact turned_same hground (hearly.stage _ t) hearly.holds fun heq => absurd heq hearly.ne
  | @writing number written pieces hnamed hwritten hdata =>
    -- nothing is left to be written, since a write is never refused
    cases pieces with
    | nil =>
      obtain rfl := Option.some.inj hrefuse
      exact turned_same hground (.ended _) rfl nofun
    | cons piece more => exact absurd hrefuse nofun

/-! ## Wherever a save stops -/

theorem Stage.advance (hground : Ground s q rest t) (hstage : Stage s (reached q rest) c t program)
    {program' : Program Unit} {t' : FileTree} (hadvances : program.Advances t program' t') :
    Turned s q rest c t t' program program' := by
  cases hadvances with
  | performed => exact hstage.turn hground
  | refused hrefuse => exact hstage.refuse hground hrefuse

theorem Stage.course (hground : Ground s q rest t) (hstage : Stage s (reached q rest) c t program)
    (hgoing : program ≠ .done (.ok ())) {left : Program Unit} {t' : FileTree}
    (hcourse : program.Course t left t') : Ground s q rest t' ∧ c.Shown s t t' left := by
  induction hcourse with
  | stop => exact ⟨hground, fun hdone => absurd hdone hgoing, fun _ _ _ => rfl⟩
  | @step program next left t t' t'' hadvances hrest ih =>
    have hturned := hstage.advance hground hadvances
    have hatomic : s.Atomic [c] 0 [program] [next] t t' := hturned.atomic hground rfl rfl rfl
    rcases hatomic with ⟨c', hc', -, hdone, hplaced⟩ | ⟨hended, hsame⟩
    · -- the record is in place, so the save has ended
      obtain rfl : next = .done (.ok ()) := Option.some.inj hdone
      obtain ⟨rfl, rfl⟩ := hrest.of_done
      rw [← Option.some.inj hc'] at hplaced
      exact ⟨hturned.ground, fun _ => hplaced, fun hnot => absurd rfl hnot⟩
    · have hgoing' : next ≠ .done (.ok ()) := fun hdone =>
        hgoing (Option.some.inj (hended (congrArg some hdone)))
      obtain ⟨hground', hshown⟩ := ih hturned.ground hturned.stage hgoing'
      exact ⟨hground', hshown.congr hsame⟩

/-- Wherever a save is interrupted, it has put its whole record in place or it does not show. -/
theorem Save.course (hground : Ground s q rest t) (c : Save) {left : Program Unit} {t' : FileTree}
    (hcourse : (c.program s).Course t left t') : Ground s q rest t' ∧ c.Shown s t t' left :=
  (stage_start s _ c t).course hground (c.program_ne s) hcourse

/-- After any number of its steps a save has put its whole record in place, or it does not show. -/
theorem Save.runSteps (hground : Ground s q rest t) (c : Save) (count : Nat) :
    Ground s q rest ((c.program s).runSteps count t).1 ∧
      c.Shown s t ((c.program s).runSteps count t).1 ((c.program s).runSteps count t).2 :=
  c.course hground (course_runSteps _ t count)

/-- At its end a save has put its whole record in place, or it has failed and does not show. -/
theorem Save.run (hground : Ground s q rest t) (c : Save) :
    Ground s q rest ((c.program s).run t).1 ∧
      c.Shown s t ((c.program s).run t).1 (.done ((c.program s).run t).2) :=
  c.course hground (course_run _ t)

end

end ChainWatch.Storage
