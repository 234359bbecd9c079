import ChainWatch.Resubscription.Supervisor

/-!
# The course of a supervisor

What a happening does to a supervisor is one of ten things. `Stepped` lists them with their
guards, and `step_cases` says that every step is one of them; what holds of supervisors is proved
from this list, and no later proof opens `step` again.

`trail` lists what happened to a supervisor, each happening with the supervisor that it met.
-/

namespace ChainWatch.Resubscription

/-- An attempt or a subscription comes to nothing: what is done about it at once, what the clock
shows, and how long the next pause would be. -/
inductive Fails : Phase → Happening → (acts : List Act) → (clock pause : Nat) → Prop where
  | refused {error : ChainError} {clock pause : Nat} :
      Fails .subscribing (.refused error clock pause)
        [.count .subscribeFailure, .notify (.failure error)] clock pause
  | lost {error : Option ChainError} {clock pause : Nat} :
      Fails .live (.lost error clock pause) [.unsubscribe] clock pause

namespace Supervisor

/-- The happening does not concern the supervisor as it is. -/
def Ignores (s : Supervisor) : Happening → Prop
  | .turn _ => s.phase ≠ .ready
  | .refused .. | .established _ => s.phase ≠ .subscribing
  | .lost .. => s.phase ≠ .live
  | .rested => ∀ length wasTold, s.phase = .pausing length wasTold → wasTold ∧ 0 < length
  | .told => False
  | .heeded => s.told = false ∨ s.phase = .ready ∨ s.phase = .closing ∨ ∃ e, s.phase = .ended e
  | .closed => s.phase ≠ .closing

/-- The ways a happening can change a supervisor. -/
inductive Stepped (s : Supervisor) : Happening → Supervisor → Prop where
  | ignored {h : Happening} (ignores : s.Ignores h) : Stepped s h s
  | told : Stepped s .told { s with told := true }
  | asked {time : Nat} (phase : s.phase = .ready) :
      Stepped s (.turn time)
        { s.act (s.alertActs time ++ [.ask]) with phase := .subscribing, lastAttempt := some time }
  | established {clock : Nat} (phase : s.phase = .subscribing) :
      Stepped s (.established clock) { s with phase := .live, backoff := .start s.policy clock }
  | paused {h : Happening} {acts : List Act} {clock pause : Nat}
      (fails : Fails s.phase h acts clock pause)
      (allowed : s.backoff.allows s.policy clock pause = true) :
      Stepped s h
        (act { s.act acts with phase := .pausing pause s.told, backoff := s.backoff.grow s.policy }
          [.count .resubscription])
  | gaveUp {h : Happening} {acts : List Act} {clock pause : Nat}
      (fails : Fails s.phase h acts clock pause)
      (exceeded : s.backoff.allows s.policy clock pause = false) :
      Stepped s h { s.act acts with phase := .ended (some .resubscriptionExhausted) }
  | rested {length : Nat} {wasTold : Bool} (phase : s.phase = .pausing length wasTold)
      (free : ¬ (wasTold ∧ 0 < length)) : Stepped s .rested { s with phase := .ready }
  | stopped (told : s.told = true)
      (phase : s.phase = .subscribing ∨ ∃ length wasTold, s.phase = .pausing length wasTold) :
      Stepped s .heeded { s with phase := .ended none }
  | unsubscribed (told : s.told = true) (phase : s.phase = .live) :
      Stepped s .heeded { s.act [.unsubscribe] with phase := .closing }
  | closed (phase : s.phase = .closing) : Stepped s .closed { s with phase := .ended none }

/-- After a failure the supervisor pauses or gives up. -/
theorem Stepped.ofFails {s : Supervisor} {h : Happening} {acts : List Act} {clock pause : Nat}
    (fails : Fails s.phase h acts clock pause) :
    Stepped s h ((s.act acts).pauseOrEnd clock pause) := by
  unfold pauseOrEnd
  split
  next allowed => exact .paused fails allowed
  next exceeded => exact .gaveUp fails (Bool.eq_false_iff.mpr exceeded)

/-- A supervisor heeds that it was told to stop unless it is not waiting for anything. -/
theorem Stepped.ofHeed {s : Supervisor} (told : s.told = true) : Stepped s .heeded s.heed := by
  unfold heed
  split
  next phase => exact .stopped told (.inl phase)
  next length wasTold phase => exact .stopped told (.inr ⟨length, wasTold, phase⟩)
  next phase => exact .unsubscribed told phase
  next hsubscribing hpausing hlive =>
    refine .ignored (.inr ?_)
    cases hphase : s.phase with
    | ready => exact .inl rfl
    | subscribing => exact absurd hphase hsubscribing
    | live => exact absurd hphase hlive
    | pausing length wasTold => exact absurd hphase (hpausing length wasTold)
    | closing => exact .inr (.inl rfl)
    | ended error => exact .inr (.inr ⟨error, rfl⟩)

/-- What a supervisor does when an attempt or a subscription comes to nothing. -/
theorem step_of_fails {s : Supervisor} {h : Happening} {acts : List Act} {clock pause : Nat}
    (fails : Fails s.phase h acts clock pause) :
    s.step h = (s.act acts).pauseOrEnd clock pause := by
  generalize hphase : s.phase = phase at fails
  cases fails <;> simp only [step, hphase]

/-- Every step is one of the listed ones. -/
theorem step_cases (s : Supervisor) (h : Happening) : Stepped s h (s.step h) := by
  unfold step
  split
  next => exact .told
  next =>
    split
    next told => exact .ofHeed told
    next untold => exact .ignored (.inl (Bool.eq_false_iff.mpr untold))
  next time phase => exact .asked phase
  next error clock pause phase => exact .ofFails (phase ▸ .refused)
  next clock phase => exact .established phase
  next error clock pause phase => exact .ofFails (phase ▸ .lost)
  next phase => exact .closed phase
  next length wasTold phase =>
    split
    next asleep =>
      refine .ignored ?_
      intro length' wasTold' phase'
      rw [phase] at phase'
      cases phase'
      exact asleep
    next free => exact .rested phase free
  next h _ _ hTold hHeeded hTurn hRefused hEstablished hLost hClosed hRested =>
    -- nothing is left that could concern the supervisor in its phase
    apply Stepped.ignored
    cases h with
    | turn time => exact hTurn time rfl
    | refused error clock pause => exact hRefused error clock pause rfl
    | established clock => exact hEstablished clock rfl
    | lost error clock pause => exact hLost error clock pause rfl
    | rested => exact fun length wasTold phase => (hRested length wasTold rfl phase).elim
    | told => exact hTold rfl
    | heeded => exact (hHeeded rfl).elim
    | closed => exact hClosed rfl

/-! ## Runs -/

/-- What happened to a supervisor, each happening with the supervisor that it met. -/
def trail (s : Supervisor) : List Happening → List (Supervisor × Happening)
  | [] => []
  | h :: rest => (s, h) :: (s.step h).trail rest

theorem run_append (s : Supervisor) (before after : List Happening) :
    s.run (before ++ after) = (s.run before).run after := List.foldl_append

theorem run_snoc (s : Supervisor) (hs : List Happening) (h : Happening) :
    s.run (hs ++ [h]) = (s.run hs).step h := s.run_append hs [h]

theorem trail_snoc (s : Supervisor) (hs : List Happening) (h : Happening) :
    s.trail (hs ++ [h]) = s.trail hs ++ [(s.run hs, h)] := by
  induction hs generalizing s with
  | nil => rfl
  | cons first rest ih =>
    rw [List.cons_append, trail, ih, trail]
    rfl

/-- No happening changes what a supervisor goes by. -/
theorem policy_step (s : Supervisor) (h : Happening) : (s.step h).policy = s.policy := by
  have hcases := step_cases s h
  generalize s.step h = next at hcases
  cases hcases <;> rfl

theorem policy_run (s : Supervisor) (hs : List Happening) : (s.run hs).policy = s.policy := by
  induction hs generalizing s with
  | nil => rfl
  | cons h rest ih =>
    show ((s.step h).run rest).policy = _
    rw [ih, policy_step]

/-- A supervisor that has ended stays as it ended. -/
theorem phase_step_of_ended {s : Supervisor} {error : Option ChainError}
    (ended : s.phase = .ended error) (h : Happening) : (s.step h).phase = .ended error := by
  have hcases := step_cases s h
  generalize s.step h = next at hcases
  cases hcases with
  | ignored ignores => exact ended
  | told => exact ended
  | asked phase => exact absurd (ended.symm.trans phase) (by simp)
  | established phase => exact absurd (ended.symm.trans phase) (by simp)
  | paused fails allowed => rw [ended] at fails; cases fails
  | gaveUp fails exceeded => rw [ended] at fails; cases fails
  | rested phase free => exact absurd (ended.symm.trans phase) (by simp)
  | stopped told phase =>
    rcases phase with phase | ⟨length, wasTold, phase⟩
    · exact absurd (ended.symm.trans phase) (by simp)
    · exact absurd (ended.symm.trans phase) (by simp)
  | unsubscribed told phase => exact absurd (ended.symm.trans phase) (by simp)
  | closed phase => exact absurd (ended.symm.trans phase) (by simp)

theorem phase_run_of_ended {s : Supervisor} {error : Option ChainError}
    (ended : s.phase = .ended error) (hs : List Happening) : (s.run hs).phase = .ended error := by
  induction hs generalizing s with
  | nil => exact ended
  | cons h rest ih => exact ih (phase_step_of_ended ended h)

end Supervisor

end ChainWatch.Resubscription
