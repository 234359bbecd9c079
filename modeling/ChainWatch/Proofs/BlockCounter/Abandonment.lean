import ChainWatch.Proofs.BlockCounter.Settling

/-!
# Pollers that nobody wants

When the counter is gone and nobody watches or listens any more, a poller should ask at most once
more and stop. Errands keep it from that: as long as one has not been told anything the poller goes
on. `abandoned_poller_stops_iff` says when it stops as it should, which is when all errands that
are left have their heights reached by the next answer, and that it goes on for ever if a height
does not come.
-/

namespace ChainWatch.BlockCounter

variable {heights : Nat → Node.Timed UInt64} {first : UInt64} {period : Nat} {c : Company}

namespace Company

/-! ## What can be done -/

/-- A poller that is due and has no reason to stop asks. -/
theorem act_due {p : Poller} {due : Nat} (hresting : p.activity = .resting due)
    (heights : Nat → Node.Timed UInt64) :
    ∃ next, p.act heights false due = some next ∧ next.questions = p.questions + 1 := by
  rw [Poller.act, hresting]
  dsimp only
  rw [if_neg Bool.false_ne_true, if_pos (Nat.le_refl due)]
  split
  · exact ⟨_, rfl, rfl⟩
  · exact ⟨_, rfl, rfl⟩

namespace Sound

/-- A poller that has not stopped can come to rest while the errands look at the height, without
asking anything more. -/
theorem exists_rest (hc : c.Sound heights first period) (hquick : ∀ n, (heights n).delay < period)
    (hactive : c.poller.activity ≠ .stopped) :
    ∃ turns due, (c.run turns).poller.activity = .resting due ∧
      (c.run turns).poller.questions = c.poller.questions ∧ (c.run turns).Looked := by
  cases hactivity : c.poller.activity with
  | fresh =>
    have hpositive : c.poller.period ≠ 0 := by
      rw [hc.pace]
      exact Nat.ne_of_gt (Nat.zero_lt_of_lt (hquick 0))
    -- its first tick is due at once
    have hact : c.poller.act c.heights (false && c.deserted) c.now
        = some { c.poller with activity := .resting c.now } := by
      rw [Poller.act, hactivity]
      exact if_neg hpositive
    refine ⟨.poll false :: (c.step (.poll false)).lookTurns, c.now, ?_⟩
    rw [run_cons, run_lookTurns]
    refine ⟨?_, ?_, looked_lookAll _⟩
    · rw [step_poll hact]
      rfl
    · rw [step_poll hact]
      rfl
  | resting due =>
    refine ⟨c.lookTurns, due, ?_⟩
    rw [run_lookTurns]
    exact ⟨hactivity, rfl, looked_lookAll c⟩
  | asking arrival due answer =>
    have hsound := hc.asking _ _ _ hactivity
    -- the errands look before time goes on, and again when the answer is there
    have hpass : c.lookAll.step (.pass arrival) = { c.lookAll with now := arrival } := by
      refine step_pass c.looked_lookAll hsound.1 (fun hlt => ?_) fun next hnext => ?_
      · show c.poller.act _ _ _ = none
        rw [Poller.act, hactivity]
        exact if_neg (Nat.not_le_of_gt hlt)
      · rw [show c.lookAll.poller = c.poller from rfl, Poller.nextTime?, hactivity] at hnext
        exact Nat.le_of_eq (Option.some.inj hnext)
    have hhear : Company.step { c.lookAll with now := arrival } (.poll false)
        = { c.lookAll with now := arrival, poller := c.poller.hear answer due } := by
      refine step_poll ?_
      show c.poller.act _ _ _ = _
      rw [Poller.act, hactivity]
      exact if_pos (Nat.le_refl arrival)
    let heard : Company := { c.lookAll with now := arrival, poller := c.poller.hear answer due }
    refine ⟨c.lookTurns ++ [.pass arrival, .poll false] ++ heard.lookTurns, due, ?_⟩
    have hrun : c.run (c.lookTurns ++ [.pass arrival, .poll false] ++ heard.lookTurns)
        = heard.lookAll := by
      rw [run_append, run_append, run_lookTurns, run_cons, hpass, run_cons, hhear, run_nil,
        run_lookTurns]
    rw [hrun]
    exact ⟨rfl, rfl, heard.looked_lookAll⟩
  | stopped => exact absurd hactivity hactive

/-- An errand whose height none of the answers so far reaches is not done. -/
theorem not_done (hc : c.Sound heights first period) {e : Errand} (hmem : e ∈ c.errands)
    (hnot : ¬ Told heights c.poller.questions e.target) : e.done = false := by
  refine Bool.eq_false_iff.mpr fun hdone => ?_
  exact hnot ((hc.told e hmem hdone).mono c.poller.answered_le)

theorem not_deserted (hc : c.Sound heights first period) {e : Errand} (hmem : e ∈ c.errands)
    (hnot : ¬ Told heights c.poller.questions e.target) : c.deserted = false := by
  refine Bool.eq_false_iff.mpr fun hdeserted => ?_
  have hdone := (deserted_iff.mp hdeserted).2.2 e hmem
  rw [hc.not_done hmem hnot] at hdone
  cases hdone

/-- At rest an errand is left only if none of the answers so far reaches its height. -/
theorem not_told (hc : c.Sound heights first period) {due : Nat}
    (hresting : c.poller.activity = .resting due) (hlooked : c.Looked) {e : Errand}
    (hmem : e ∈ c.errands) (hleft : e.done = false) :
    ¬ Told heights c.poller.questions e.target := by
  intro htold
  have hanswered : c.poller.answered = c.poller.questions := by rw [Poller.answered, hresting]
  have hrunning := hc.running (by rw [hresting]; simp)
  rw [← hanswered, ← hc.le_height_iff, ← Errand.isSome_verdict? hrunning] at htold
  have hdone := Errand.look_eq_iff.mp (hlooked e hmem) htold
  rw [hleft] at hdone
  cases hdone

/-- For an errand whose height has not been reached the poller can ask again. -/
theorem exists_question (hc : c.Sound heights first period)
    (hquick : ∀ n, (heights n).delay < period) {i : Nat} {e : Errand}
    (he : c.errands[i]? = some e) (hnot : ¬ Told heights c.poller.questions e.target) :
    ∃ turns, (c.run turns).poller.questions = c.poller.questions + 1 := by
  have hactive : c.poller.activity ≠ .stopped := by
    intro hstopped
    have hdeserted := hc.stopped hstopped
    rw [hc.not_deserted (List.mem_of_getElem? he) hnot] at hdeserted
    cases hdeserted
  obtain ⟨turns, due, hresting, hquestions, hlooked⟩ := hc.exists_rest hquick hactive
  obtain ⟨e', he', htarget⟩ := run_errand he turns
  have hsound := hc.run hquick turns
  -- the errand is still there, so the poller does not stop at its next tick
  have hleft : (c.run turns).deserted = false := by
    refine hsound.not_deserted (List.mem_of_getElem? he') ?_
    rwa [htarget, hquestions]
  have hpass : (c.run turns).step (.pass due) = { c.run turns with now := due } := by
    refine step_pass hlooked (hsound.resting due hresting).1 (fun hlt => ?_) fun next hnext => ?_
    · rw [Poller.act, hresting, hleft]
      exact if_neg (Nat.not_le_of_gt hlt)
    · rw [Poller.nextTime?, hresting] at hnext
      exact Nat.le_of_eq (Option.some.inj hnext)
  obtain ⟨next, hact, hnext⟩ := act_due hresting (c.run turns).heights
  refine ⟨turns ++ [.pass due, .poll false], ?_⟩
  have hask : Company.step { c.run turns with now := due } (.poll false)
      = { c.run turns with now := due, poller := next } := step_poll hact
  rw [run_append, run_cons, hpass, run_cons, hask, run_nil]
  exact hnext.trans (congrArg (· + 1) hquestions)

end Sound

/-- A poller at rest can stop when nobody is left. -/
theorem stop_at_rest {turns : List Turn} {due : Nat}
    (hresting : (c.run turns).poller.activity = .resting due)
    (hdeserted : (c.run turns).deserted = true) :
    (c.run (turns ++ [.poll true])).poller.activity = .stopped := by
  have hact : (c.run turns).poller.act (c.run turns).heights (true && (c.run turns).deserted)
      (c.run turns).now = some { (c.run turns).poller with
        height := (c.run turns).poller.height.stop, activity := .stopped } := by
    rw [Poller.act, hresting, hdeserted]
    rfl
  rw [run_append, run_cons, run_nil, step_poll hact]

theorem Abandoned.exists_left (habandoned : c.Abandoned) (hdeserted : ¬ c.deserted = true) :
    ∃ e ∈ c.errands, e.done = false := by
  obtain ⟨hheld, hwatches, -⟩ := habandoned
  rw [deserted_iff] at hdeserted
  simpa [hheld, hwatches] using hdeserted

/-! ## The last question -/

/-- Until when a poller can go on with its last question, from a time at which it had put so many
questions. -/
def closingTime (since period asked questions : Nat) : Nat :=
  if questions = asked then since + period else since + 2 * period

/-- A company that was given up at a time when so many questions had been put, and that needs no
more than one further answer. -/
structure Winding (c : Company) (heights : Nat → Node.Timed UInt64) (first : UInt64)
    (period since asked : Nat) : Prop where
  sound : c.Sound heights first period
  abandoned : c.Abandoned
  told : ∀ e ∈ c.errands, e.done = false → Told heights (asked + 1) e.target
  begun : asked ≤ c.poller.questions
  bound : c.poller.questions ≤ asked + 1
  fresh : c.poller.activity = .fresh → c.poller.questions = asked ∧ c.now ≤ since
  /-- With the last answer there is always some time left before the next tick. -/
  resting : ∀ due, c.poller.activity = .resting due →
    due ≤ closingTime since period asked c.poller.questions ∧
      (c.poller.questions = asked + 1 → c.now < due)
  asking : ∀ arrival due answer, c.poller.activity = .asking arrival due answer →
    due ≤ closingTime since period asked c.poller.questions

namespace Winding

variable {since asked : Nat}

/-- When all errands have looked at the last height, nobody is left. -/
theorem deserted (hc : c.Winding heights first period since asked) (hlooked : c.Looked)
    (hquestions : c.poller.questions = asked + 1) {due : Nat}
    (hresting : c.poller.activity = .resting due) : c.deserted = true := by
  obtain ⟨hheld, hwatches, -⟩ := hc.abandoned
  refine deserted_iff.mpr ⟨hheld, hwatches, fun e hmem => ?_⟩
  refine Decidable.byContradiction fun hnot => ?_
  have hleft : e.done = false := Bool.eq_false_iff.mpr hnot
  have htold := hc.told e hmem hleft
  rw [← hquestions] at htold
  exact hc.sound.not_told hresting hlooked hmem hleft htold

/-- When the last answer is there the poller stops before time goes on. -/
theorem not_still (hc : c.Winding heights first period since asked)
    (hquestions : c.poller.questions = asked + 1) {due : Nat}
    (hresting : c.poller.activity = .resting due) : c.still = false := by
  refine Bool.eq_false_iff.mpr fun hstill => ?_
  obtain ⟨hnothing, hlooked⟩ := still_iff.mp hstill
  rw [hc.deserted hlooked hquestions hresting, Poller.act, hresting] at hnothing
  cases hnothing

theorem poll (hc : c.Winding heights first period since asked)
    (hquick : ∀ n, (heights n).delay < period) {looks : Bool} {next : Poller}
    (hact : c.poller.act c.heights (looks && c.deserted) c.now = some next) :
    Winding { c with poller := next } heights first period since asked := by
  have hsound := hc.sound.poll hquick hact
  have hbound := hc.bound
  have hbegun := hc.begun
  have hpositive : 0 < period := Nat.zero_lt_of_lt (hquick 0)
  rcases hc.sound.act_cases hquick hact with ⟨hfresh, rfl⟩ | ⟨-, rfl⟩ |
    ⟨-, hresting, hquestions, -, hnext⟩ | ⟨due, answer, hasking, rfl⟩
  · -- a fresh poller has not asked since the company was given up
    obtain ⟨hfirst, hnow⟩ := hc.fresh hfresh
    refine ⟨hsound, hc.abandoned, hc.told, hbegun, hbound, nofun, ?_, nofun⟩
    rintro _ ⟨⟩
    refine ⟨?_, fun hlast => ?_⟩
    · show c.now ≤ closingTime since period asked c.poller.questions
      rw [closingTime, if_pos hfirst]
      omega
    · exact absurd (hfirst.symm.trans hlast) (Nat.ne_of_lt (Nat.lt_succ_self asked))
  · exact ⟨hsound, hc.abandoned, hc.told, hbegun, hbound, nofun, nofun, nofun⟩
  · -- a poller that asks has not put its last question yet
    obtain ⟨hdue, hearly⟩ := hc.resting _ hresting
    have hfirst : c.poller.questions = asked := by
      have hnot : c.poller.questions ≠ asked + 1 := fun hlast => Nat.lt_irrefl _ (hearly hlast)
      omega
    have hclosing : c.now + period ≤ closingTime since period asked next.questions := by
      rw [closingTime, if_pos hfirst] at hdue
      rw [closingTime, if_neg (by omega)]
      omega
    refine ⟨hsound, hc.abandoned, hc.told, ?_, ?_, ?_, ?_, ?_⟩
    · show asked ≤ next.questions
      omega
    · show next.questions ≤ asked + 1
      omega
    · intro hfresh
      rcases hnext with hnext | ⟨_, _, -, hnext⟩
      · exact nomatch hnext.symm.trans hfresh
      · exact nomatch hnext.symm.trans hfresh
    · intro due hdue
      rcases hnext with hnext | ⟨_, _, -, hnext⟩
      · obtain rfl := Activity.resting.inj (hnext.symm.trans hdue)
        exact ⟨hclosing, fun _ => Nat.lt_add_of_pos_right hpositive⟩
      · exact nomatch hnext.symm.trans hdue
    · intro arrival due answer hasking
      rcases hnext with hnext | ⟨_, _, -, hnext⟩
      · exact nomatch hnext.symm.trans hasking
      · obtain ⟨-, rfl, -⟩ := Activity.asking.inj (hnext.symm.trans hasking)
        exact hclosing
  · -- an answer arrives before the next tick
    have hlast := hc.asking _ _ _ hasking
    have hlater := (hc.sound.asking _ _ _ hasking).2.1
    refine ⟨hsound, hc.abandoned, hc.told, hbegun, hbound, nofun, ?_, nofun⟩
    rintro _ ⟨⟩
    exact ⟨hlast, fun _ => hlater⟩

theorem pass (hc : c.Winding heights first period since asked) {time : Nat}
    (hstill : c.still = true) (hsound : Sound { c with now := time } heights first period) :
    Winding { c with now := time } heights first period since asked := by
  refine ⟨hsound, hc.abandoned, hc.told, hc.begun, hc.bound, ?_, ?_, hc.asking⟩
  · intro hfresh
    have hnothing := (still_iff.mp hstill).1
    rw [Poller.act_fresh hfresh] at hnothing
    cases hnothing
  · intro due hresting
    refine ⟨(hc.resting due hresting).1, fun hlast => ?_⟩
    have hnot := hc.not_still hlast hresting
    rw [hstill] at hnot
    cases hnot

/-- What the others do does not concern the poller. -/
theorem others (hc : c.Winding heights first period since asked) {next : Company}
    (hsame : next.poller = c.poller ∧ next.now = c.now)
    (hsound : next.Sound heights first period) (habandoned : next.Abandoned)
    (htold : ∀ e ∈ next.errands, e.done = false → Told heights (asked + 1) e.target) :
    next.Winding heights first period since asked := by
  obtain ⟨hpoller, hnow⟩ := hsame
  refine ⟨hsound, habandoned, htold, ?_, ?_, ?_, ?_, ?_⟩
  · rw [hpoller]
    exact hc.begun
  · rw [hpoller]
    exact hc.bound
  · rw [hpoller, hnow]
    exact hc.fresh
  · rw [hpoller, hnow]
    exact hc.resting
  · rw [hpoller]
    exact hc.asking

theorem step (hc : c.Winding heights first period since asked)
    (hquick : ∀ n, (heights n).delay < period) (turn : Turn) :
    (c.step turn).Winding heights first period since asked := by
  have hsound := hc.sound.step hquick turn
  have habandoned := hc.abandoned.step turn
  have htold : ∀ e ∈ (c.step turn).errands, e.done = false → Told heights (asked + 1) e.target := by
    refine forall_errands_step hc.told turn (fun e he hdone => he ?_) (fun _ h => h) ?_
    · exact (Bool.or_eq_false_iff.mp hdone).1
    · intro hheld
      exact absurd (hc.abandoned.1.symm.trans hheld) Bool.false_ne_true
  cases turn with
  | poll looks =>
    unfold Company.step
    dsimp only
    split
    · next hact => exact hc.poll hquick hact
    · exact hc
  | pass time =>
    unfold Company.step at hsound ⊢
    dsimp only at hsound ⊢
    split
    · next hpass =>
      rw [if_pos hpass] at hsound
      exact hc.pass hpass.1 hsound
    · exact hc
  | watch | send =>
    refine hc.others ?_ hsound habandoned htold
    unfold Company.step
    dsimp only
    split
    · exact ⟨rfl, rfl⟩
    · exact ⟨rfl, rfl⟩
  | _ => exact hc.others ⟨rfl, rfl⟩ hsound habandoned htold

theorem run (hc : c.Winding heights first period since asked)
    (hquick : ∀ n, (heights n).delay < period) (turns : List Turn) :
    (c.run turns).Winding heights first period since asked := by
  induction turns generalizing c with
  | nil => exact hc
  | cons turn rest ih => exact ih (hc.step hquick turn)

/-- As long as it has not stopped two periods have not passed. -/
theorem now_lt (hc : c.Winding heights first period since asked)
    (hpositive : 0 < period) (hactive : c.poller.activity ≠ .stopped) :
    c.now < since + 2 * period := by
  have hbegun := hc.begun
  have hbound := hc.bound
  have hclosing : closingTime since period asked c.poller.questions ≤ since + 2 * period := by
    rw [closingTime]
    split <;> omega
  cases hactivity : c.poller.activity with
  | fresh =>
    have hnow := (hc.fresh hactivity).2
    omega
  | resting due =>
    obtain ⟨hdue, hearly⟩ := hc.resting due hactivity
    have hnow := (hc.sound.resting due hactivity).1
    rcases Nat.lt_or_ge c.poller.questions (asked + 1) with hfirst | hlast
    · rw [closingTime, if_pos (by omega)] at hdue
      omega
    · have hlater := hearly (by omega)
      omega
  | asking arrival due answer =>
    have hdue := hc.asking _ _ _ hactivity
    have hsound := hc.sound.asking _ _ _ hactivity
    omega
  | stopped => exact absurd hactivity hactive

/-- When the last answer is there the poller can stop. -/
theorem exists_stop_of_last (hc : c.Winding heights first period since asked)
    (hquick : ∀ n, (heights n).delay < period) (hlast : c.poller.questions = asked + 1) :
    ∃ turns, (c.run turns).poller.activity = .stopped := by
  by_cases hactive : c.poller.activity = .stopped
  · exact ⟨[], hactive⟩
  · obtain ⟨turns, due, hresting, hquestions, hlooked⟩ := hc.sound.exists_rest hquick hactive
    have hdeserted := (hc.run hquick turns).deserted hlooked (hquestions.trans hlast) hresting
    exact ⟨turns ++ [.poll true], stop_at_rest hresting hdeserted⟩

theorem exists_stop (hc : c.Winding heights first period since asked)
    (hquick : ∀ n, (heights n).delay < period) :
    ∃ turns, (c.run turns).poller.activity = .stopped := by
  by_cases hactive : c.poller.activity = .stopped
  · exact ⟨[], hactive⟩
  obtain ⟨turns, due, hresting, hquestions, hlooked⟩ := hc.sound.exists_rest hquick hactive
  have hrest := hc.run hquick turns
  by_cases hdeserted : (c.run turns).deserted = true
  · exact ⟨turns ++ [.poll true], stop_at_rest hresting hdeserted⟩
  · -- somebody is left, for whom the poller asks its last question
    obtain ⟨e, hmem, hleft⟩ := hrest.abandoned.exists_left hdeserted
    obtain ⟨i, hi⟩ := List.mem_iff_getElem?.mp hmem
    have hnot := hrest.sound.not_told hresting hlooked hmem hleft
    obtain ⟨more, hmore⟩ := hrest.sound.exists_question hquick hi hnot
    have hasked := hrest.run hquick more
    have hlast : ((c.run turns).run more).poller.questions = asked + 1 := by
      have hbegun := hrest.begun
      have hbound := hasked.bound
      omega
    obtain ⟨last, hstopped⟩ := hasked.exists_stop_of_last hquick hlast
    exact ⟨turns ++ (more ++ last), by rwa [run_append, run_append]⟩

end Winding

/-- Without a further answer that reaches the height of an errand the poller asks again and
again. -/
theorem Sound.exists_questions (hc : c.Sound heights first period)
    (hquick : ∀ n, (heights n).delay < period) {i : Nat} {e : Errand}
    (he : c.errands[i]? = some e) {more : Nat}
    (hnot : ¬ Told heights (c.poller.questions + more) e.target) :
    ∃ turns, (c.run turns).poller.questions = c.poller.questions + more + 1 := by
  induction more generalizing c e with
  | zero => exact hc.exists_question hquick he hnot
  | succ more ih =>
    obtain ⟨turns, hturns⟩ := hc.exists_question hquick he
      fun htold => hnot (htold.mono (Nat.le_add_right _ _))
    obtain ⟨e', he', htarget⟩ := run_errand he turns
    obtain ⟨last, hlast⟩ := ih (hc.run hquick turns) he' (by
      rwa [htarget, hturns, Nat.add_assoc, Nat.add_comm 1])
    refine ⟨turns ++ last, ?_⟩
    rw [run_append, hlast, hturns]
    omega

theorem Sound.winding (hc : c.Sound heights first period) (habandoned : c.Abandoned)
    (htold : ∀ e ∈ c.errands, e.done = false → Told heights (c.poller.questions + 1) e.target) :
    c.Winding heights first period c.now c.poller.questions := by
  refine ⟨hc, habandoned, htold, Nat.le_refl _, Nat.le_succ _, fun _ => ⟨rfl, Nat.le_refl _⟩,
    fun due hresting => ⟨?_, fun hlast => absurd hlast (Nat.ne_of_lt (Nat.lt_succ_self _))⟩,
    fun arrival due answer hasking => ?_⟩
  · rw [closingTime, if_pos rfl]
    exact (hc.resting due hresting).2
  · rw [closingTime, if_pos rfl]
    exact (hc.asking _ _ _ hasking).2.2

end Company

/-- Once the counter is gone and nobody watches or listens any more, a poller whose node is quicker
than its ticks asks at most once more and stops, exactly if each errand that is left has its
height reached by the next answer. If no answer ever reaches the height of an errand the poller
never stops. A session that nobody cancels is one of the runs of its company. -/
theorem abandoned_poller_stops_iff {session : Session}
    (hstart : Session.start heights period = .ok session)
    (hquick : ∀ n, (heights n).delay < period) (turns : List Turn)
    (habandoned : ((Company.ofSession session).run turns).Abandoned) :
    let company := (Company.ofSession session).run turns
    ((∀ more, (company.run more).poller.questions ≤ company.poller.questions + 1 ∧
        (company.now + 2 * period ≤ (company.run more).now →
          (company.run more).poller.activity = .stopped) ∧
        ∃ last, ((company.run more).run last).poller.activity = .stopped) ↔
      ∀ e ∈ company.errands, e.done = false →
        Told heights (company.poller.questions + 1) e.target) ∧
    (∀ e ∈ company.errands, (∀ n, ¬ Told heights n e.target) →
      ∀ more, (company.run more).poller.activity ≠ .stopped ∧
        ∀ n, ∃ last, n ≤ ((company.run more).run last).poller.questions) ∧
    ∀ steps, session.AllowsAll steps → ∀ (i : Nat) answer after,
      (session.trail steps)[i]? = some (answer, after) →
        ∃ turns, Company.ofSession after = (Company.ofSession session).run turns := by
  intro company
  obtain ⟨first, hfirst⟩ := Company.sound_start hstart
  have hsound : company.Sound heights first period := hfirst.run hquick turns
  have hpositive : 0 < period := Nat.zero_lt_of_lt (hquick 0)
  refine ⟨⟨fun hstops e hmem hleft => ?_, fun htold more => ?_⟩, fun e hmem hnever more => ?_, ?_⟩
  · -- for an errand that the next answer does not help the poller can ask twice
    refine Classical.byContradiction fun hnot => ?_
    obtain ⟨i, hi⟩ := List.mem_iff_getElem?.mp hmem
    obtain ⟨more, hmore⟩ := hsound.exists_questions hquick hi hnot
    have hbound := (hstops more).1
    omega
  · have hwinding := (hsound.winding habandoned htold).run hquick more
    refine ⟨hwinding.bound, fun hlater => ?_, hwinding.exists_stop hquick⟩
    refine Classical.byContradiction fun hactive => ?_
    have hnow := hwinding.now_lt hpositive hactive
    omega
  · obtain ⟨i, hi⟩ := List.mem_iff_getElem?.mp hmem
    obtain ⟨e', he', htarget⟩ := Company.run_errand hi more
    have hlater := hsound.run hquick more
    have hnot : ∀ n, ¬ Told heights n e'.target := fun n => htarget ▸ hnever n
    refine ⟨fun hstopped => ?_, fun n => ?_⟩
    · have hleft := hlater.not_deserted (List.mem_of_getElem? he') (hnot _)
      rw [hlater.stopped hstopped] at hleft
      cases hleft
    · obtain ⟨last, hlast⟩ := hlater.exists_questions hquick he' (hnot (_ + n))
      exact ⟨last, by omega⟩
  · exact fun steps hallows i answer after hafter =>
      (Session.plain_start hpositive hstart).trail hallows hafter

/-- A node that tells one and the same height at once. -/
def steady : Nat → Node.Timed UInt64 := fun _ => ⟨0, .ok 5⟩

/-- A session with a counter of this height. -/
def steadySession : Session := ⟨steady, ⟨10, .start 5, .fresh, 1, [0]⟩, 0, false, true, [], []⟩

/-- An errand that nobody listens to does not keep the poller going when its height has been
reached. -/
theorem reached_errand_stops :
    Session.start steady 10 = .ok steadySession ∧ (∀ n, (steady n).delay < 10) ∧
      ((Company.ofSession steadySession).run [.send 5, .dropCounter, .ignore 0]).Abandoned ∧
      ∀ more, (((Company.ofSession steadySession).run
        [.send 5, .dropCounter, .ignore 0]).run more).poller.questions ≤ 2 := by
  have hstart : Session.start steady 10 = .ok steadySession := rfl
  have hquick : ∀ n, (steady n).delay < 10 := fun _ => (by decide : 0 < 10)
  have habandoned : ((Company.ofSession steadySession).run
      [.send 5, .dropCounter, .ignore 0]).Abandoned := by decide
  refine ⟨hstart, hquick, habandoned, fun more => ?_⟩
  refine (((abandoned_poller_stops_iff hstart hquick _ habandoned).1.mpr ?_) more).1
  intro e hmem _
  obtain rfl := List.mem_singleton.mp hmem
  exact ⟨0, by decide, 5, rfl, by decide⟩

/-- One that waits for a height that does not come keeps it asking, with every tick. -/
theorem orphan_keeps_asking :
    ((Company.ofSession steadySession).run [.send 100, .dropCounter, .ignore 0]).Abandoned ∧
      ((Company.ofSession steadySession).run
        [.send 100, .dropCounter, .ignore 0]).poller.questions = 1 ∧
      ((Company.ofSession steadySession).run
        ([.send 100, .dropCounter, .ignore 0] ++ [.poll true, .poll true, .errand 0,
          .pass 10, .poll true, .errand 0, .pass 20, .poll true])).poller.questions = 4 := by
  decide +kernel

end ChainWatch.BlockCounter
