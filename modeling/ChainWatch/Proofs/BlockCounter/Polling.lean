import ChainWatch.BlockCounter.Poller
import ChainWatch.Proofs.BlockCounter.Lookouts

/-!
# Polling before a display

A poller is the one who moves the height of a display: whatever it does by itself, it hears an
answer of the node, it stops, or nobody notices (`Poller.Follows.act`). What it has heard are the
heights that were told before the display.

Answers and the end leave every lookout alone, save that they wake it.
-/

namespace ChainWatch.BlockCounter

variable {heights : Nat → Node.Timed UInt64} {first : UInt64} {happenings more : List Happening}

/-! ## Lookouts left alone -/

/-- A happening is neither the turn of a lookout nor its end. -/
def Happening.Spares (i : Nat) : Happening → Prop
  | .turn j => j ≠ i
  | .leave j => j ≠ i
  | _ => True

/-- Happenings that leave everybody alone but those who came first. -/
def Sparing (limit : Nat) (happenings : List Happening) : Prop :=
  ∀ happening ∈ happenings, ∀ i, limit ≤ i → happening.Spares i

theorem Sparing.append {limit : Nat} (hsparing : Sparing limit happenings)
    (hmore : Sparing limit more) : Sparing limit (happenings ++ more) :=
  fun happening hmem => (List.mem_append.mp hmem).elim (hsparing happening) (hmore happening)

theorem Sparing.mono {limit wider : Nat} (hsparing : Sparing limit happenings)
    (hle : limit ≤ wider) : Sparing wider happenings :=
  fun happening hmem i hi => hsparing happening hmem i (Nat.le_trans hle hi)

theorem sparing_nil (limit : Nat) : Sparing limit [] :=
  fun _ hmem => absurd hmem List.not_mem_nil

theorem sparing_turns (limit : Nat) : Sparing limit ((List.range limit).map .turn) := by
  intro happening hmem i hi
  obtain ⟨j, hj, rfl⟩ := List.mem_map.mp hmem
  exact Nat.ne_of_lt (Nat.lt_of_lt_of_le (List.mem_range.mp hj) hi)

/-- A lookout waits for a height, or was told something, and has not been dropped. -/
structure Lookout.Stands (l : Lookout) (target : UInt64) (verdict : Option Verdict) : Prop where
  target : l.target = target
  told : l.told? = verdict
  here : l.stage ≠ .gone

section Stands

variable {h : Height} {l : Lookout} {target : UInt64} {verdict : Option Verdict}

theorem Lookout.Stands.wake (hl : l.Stands target verdict) : l.wake.Stands target verdict := by
  refine ⟨l.target_wake.trans hl.target, l.told?_wake.trans hl.told, ?_⟩
  unfold Lookout.wake
  split
  · exact nofun
  · exact hl.here

/-- A lookout that has a turn is told what anybody would be told. -/
theorem Lookout.Stands.turn (hl : l.Stands target verdict) (hm : l.Minds h) :
    (l.turn h).Stands target (verdict.or (verdict? h target)) := by
  refine ⟨(l.target_turn h).trans hl.target, ?_, ?_⟩
  · rw [hm.told?_turn hl.here, hl.told, hl.target]
  · unfold Lookout.turn
    split
    · dsimp only
      unfold Lookout.sight
      split
      · exact nofun
      · split <;> exact nofun
    · exact hl.here

/-- Nothing becomes of a lookout that is left alone; at most it is woken. -/
theorem Display.run_spared {d : Display} {i : Nat} (hget : d.lookouts[i]? = some l)
    (hl : l.Stands target verdict) (hspared : ∀ happening ∈ happenings, happening.Spares i) :
    ∃ l', (d.run happenings).lookouts[i]? = some l' ∧ l'.Stands target verdict := by
  induction happenings generalizing d l with
  | nil => exact ⟨l, hget, hl⟩
  | cons happening rest ih =>
    obtain ⟨next, hnext, hfate⟩ := step_lookout hget happening
    have hrest := fun h hmem => hspared h (List.mem_cons_of_mem _ hmem)
    have hnot := hspared happening List.mem_cons_self
    rcases hfate with rfl | rfl | ⟨rfl, -⟩ | ⟨rfl, -⟩
    · exact ih hnext hl hrest
    · exact ih hnext hl.wake hrest
    · exact absurd rfl hnot
    · exact absurd rfl hnot

/-- A newcomer's first turn. -/
theorem Display.arrive (d : Display) (target : UInt64) :
    ∃ l, (d.run [.join target, .turn d.lookouts.length]).lookouts[d.lookouts.length]? = some l ∧
      l.Stands target (verdict? d.height target) := by
  have hjoin : (d.step (.join target)).lookouts[d.lookouts.length]? = some (.fresh target) :=
    List.getElem?_concat_length
  have hfresh : (Lookout.fresh target).Stands target none := ⟨rfl, rfl, nofun⟩
  exact ⟨_, getElem?_turn hjoin, hfresh.turn (.fresh target _)⟩

/-- The last turn of a lookout that is dropped. -/
theorem Display.Minded.depart {d : Display} (hm : d.Minded) {i : Nat}
    (hget : d.lookouts[i]? = some l) (hl : l.Stands target verdict) :
    ∃ l' ∈ (d.run [.turn i, .leave i]).lookouts, l'.target = target ∧
      l'.told? = verdict.or (verdict? d.height target) := by
  have hturned := hl.turn (hm l (List.mem_of_getElem? hget))
  refine ⟨_, List.mem_of_getElem? (getElem?_leave (getElem?_turn hget)), ?_, ?_⟩
  · rw [Lookout.target_leave, hturned.target]
  · rw [Lookout.told?_leave, hturned.told]

/-- The first few lookouts have a turn, one after the other. -/
theorem Display.run_turns (d : Display) (limit : Nat) :
    (d.run ((List.range limit).map .turn)).height = d.height ∧
      ∀ i, (d.run ((List.range limit).map .turn)).lookouts[i]? =
        d.lookouts[i]?.map fun l => if i < limit then l.turn d.height else l := by
  induction limit with
  | zero =>
    refine ⟨rfl, fun i => ?_⟩
    simp [run]
  | succ limit ih =>
    obtain ⟨hheight, hlookouts⟩ := ih
    rw [List.range_succ, List.map_append, run_append]
    refine ⟨hheight, fun i => ?_⟩
    show ((Display.run _ _).lookouts.modify limit _)[i]? = _
    rw [List.getElem?_modify, hlookouts, hheight]
    cases d.lookouts[i]? with
    | none => rfl
    | some l => grind

end Stands

/-! ## What the node told -/

theorem polled_append_of_polled_nil (hnil : polled more = []) :
    polled (happenings ++ more) = polled happenings := by
  fun_induction polled happenings with
  | case1 => exact hnil
  | case2 value rest ih => rw [List.cons_append, polled, ih]
  | case3 rest => rfl
  | case4 happening rest hheard hended ih =>
    rw [List.cons_append, polled, ih]
    · exact hheard
    · exact hended

theorem polled_turns (turns : List Nat) : polled (turns.map .turn) = [] := by
  induction turns with
  | nil => rfl
  | cons i rest ih => exact ih

/-- Somebody listens as long as the height moves. -/
theorem polled_append {d : Display} (hrunning : (d.run happenings).height.running = true) :
    polled (happenings ++ more) = polled happenings ++ polled more := by
  fun_induction polled happenings generalizing d with
  | case1 => rfl
  | case2 value rest ih => rw [List.cons_append, polled, ih hrunning, List.cons_append]
  | case3 rest =>
    rw [d.height_run_ended] at hrunning
    cases hrunning
  | case4 happening rest hheard hended ih =>
    rw [List.cons_append, polled, ih hrunning]
    · exact hheard
    · exact hended

/-! ## Pollers -/

namespace Poller

variable {p next : Poller} {unwanted : Bool} {now : Nat}

/-- How many questions the node has answered; another one may be on its way. -/
def answered (p : Poller) : Nat :=
  match p.activity with
  | .asking .. => p.questions - 1
  | _ => p.questions

/-- The heights among the answers that a poller has heard, from the first one on. -/
def heard (p : Poller) (heights : Nat → Node.Timed UInt64) : List UInt64 :=
  (List.range p.answered).filterMap fun n => (heights n).answer.toOption

/-- A poller is where these happenings lead that follow a first height. -/
structure Follows (p : Poller) (heights : Nat → Node.Timed UInt64) (first : UInt64)
    (happenings : List Happening) : Prop where
  height : ((Display.start first).run happenings).height = p.height
  heard : first :: polled happenings = p.heard heights
  /-- The answer on its way is the one that the node gives. -/
  asking : ∀ arrival due answer, p.activity = .asking arrival due answer →
    answer = (heights p.answered).answer
  questions : 0 < p.questions
  running : p.activity = .stopped ∨ p.height.running = true

namespace Follows

theorem running_run (hp : p.Follows heights first happenings)
    (hrunning : p.height.running = true) :
    ((Display.start first).run happenings).height.running = true := by
  rwa [hp.height]

/-- As long as a poller hears nothing new and does not stop, nobody notices what it does. -/
theorem unnoticed (hp : p.Follows heights first happenings) (hrunning : p.height.running = true)
    {q : Poller} (hheight : q.height = p.height) (hanswered : q.answered = p.answered)
    (hasking : ∀ arrival due answer, q.activity = .asking arrival due answer →
      answer = (heights p.answered).answer)
    (hquestions : 0 < q.questions) : q.Follows heights first happenings := by
  refine ⟨hp.height.trans hheight.symm, ?_, ?_, hquestions, .inr (hheight ▸ hrunning)⟩
  · rw [hp.heard, Poller.heard, Poller.heard, hanswered]
  · rwa [hanswered]

/-- A poller that stops leaves no answer unheard. -/
theorem stop (hp : p.Follows heights first happenings) (hnone : p.answered = p.questions)
    (hrunning : p.height.running = true) :
    Follows { p with height := p.height.stop, activity := .stopped } heights first
      (happenings ++ [.ended]) := by
  refine ⟨?_, ?_, nofun, hp.questions, .inl rfl⟩
  · rw [Display.run_concat]
    exact congrArg Height.stop hp.height
  · rw [polled_append (hp.running_run hrunning), polled, List.append_nil, hp.heard, Poller.heard,
      Poller.heard, hnone]
    rfl

/-- A poller hears the next answer. -/
theorem hear (hp : p.Follows heights first happenings) (hrunning : p.height.running = true)
    {q : Poller} (hheight : q.height = p.height) (hquestions : q.questions = p.answered + 1)
    (due : Nat) :
    (q.hear (heights p.answered).answer due).Follows heights first
      (happenings ++ [.heard (heights p.answered).answer]) := by
  have hrun := hp.running_run hrunning
  refine ⟨?_, ?_, nofun, by rw [Poller.hear, hquestions]; exact Nat.succ_pos _, .inr ?_⟩
  · rw [Display.run_concat, Display.height_step, Poller.hear, hheight, ← hp.height]
    exact if_pos hrun
  · have hanswered : (q.hear (heights p.answered).answer due).answered = p.answered + 1 := hquestions
    rw [polled_append hrun, ← List.cons_append, hp.heard, Poller.heard, Poller.heard, hanswered,
      List.range_succ, List.filterMap_append]
    congr 1
    rw [List.filterMap_cons]
    cases (heights p.answered).answer <;> rfl
  · show (q.height.learn _).running = true
    rw [hheight]
    rcases p.height.learn_cases (heights p.answered).answer with ⟨hsame, -⟩ | ⟨value, -, -, hlearn⟩
    · rwa [hsame]
    · rwa [hlearn]

/-- Whatever a poller does by itself, it hears the node, it stops, or nobody notices. -/
theorem act (hp : p.Follows heights first happenings)
    (hact : p.act heights unwanted now = some next) :
    ∃ more, Sparing 0 more ∧ next.Follows heights first (happenings ++ more) := by
  have hending : Sparing 0 [.ended] := fun _ hmem _ _ => by rw [List.mem_singleton.mp hmem]; trivial
  have hhearing (answer : Except ChainError UInt64) : Sparing 0 [.heard answer] :=
    fun _ hmem _ _ => by rw [List.mem_singleton.mp hmem]; trivial
  cases hactivity : p.activity with
  | fresh =>
    have hrunning := hp.running.resolve_left (by simp [hactivity])
    have hnone : p.answered = p.questions := by rw [answered, hactivity]
    rw [act_fresh hactivity] at hact
    obtain ⟨rfl⟩ := hact
    split
    · exact ⟨_, hending, hp.stop hnone hrunning⟩
    · refine ⟨[], sparing_nil 0, ?_⟩
      rw [List.append_nil]
      exact hp.unnoticed hrunning rfl hnone.symm nofun hp.questions
  | resting due =>
    have hrunning := hp.running.resolve_left (by simp [hactivity])
    have hnone : p.answered = p.questions := by rw [answered, hactivity]
    rw [Poller.act, hactivity] at hact
    dsimp only at hact
    split at hact
    · obtain ⟨rfl⟩ := hact
      exact ⟨_, hending, hp.stop hnone hrunning⟩
    · split at hact
      · split at hact
        · obtain ⟨rfl⟩ := hact
          rw [← hnone]
          refine ⟨[.heard (heights p.answered).answer], hhearing _, hp.hear hrunning ?_ ?_ _⟩
          · rfl
          · rfl
        · obtain ⟨rfl⟩ := hact
          refine ⟨[], sparing_nil 0, ?_⟩
          rw [List.append_nil]
          refine hp.unnoticed hrunning rfl hnone.symm ?_ (Nat.succ_pos _)
          rintro arrival due answer ⟨⟩
          rw [hnone]
      · cases hact
  | asking arrival due answer =>
    -- a question counts from when it is put, its answer from when it is heard
    have hrunning := hp.running.resolve_left (by simp [hactivity])
    have hquestions : p.questions = p.answered + 1 := by
      rw [answered, hactivity]
      exact (Nat.sub_add_cancel hp.questions).symm
    rw [Poller.act, hactivity] at hact
    dsimp only at hact
    split at hact
    · obtain ⟨rfl⟩ := hact
      rw [hp.asking arrival due answer hactivity]
      exact ⟨_, hhearing _, hp.hear hrunning rfl hquestions _⟩
    · cases hact
  | stopped =>
    rw [Poller.act, hactivity] at hact
    cases hact

theorem settle (hp : p.Follows heights first happenings) (unwanted : Bool) (now fuel : Nat) :
    ∃ more, Sparing 0 more ∧
      (p.settle heights unwanted now fuel).Follows heights first (happenings ++ more) := by
  induction fuel generalizing p happenings with
  | zero => exact ⟨[], sparing_nil 0, by rwa [List.append_nil]⟩
  | succ fuel ih =>
    rw [Poller.settle]
    split
    · next next hact =>
      obtain ⟨early, hearly, hnext⟩ := hp.act hact
      obtain ⟨late, hlate, hsettled⟩ := ih hnext
      exact ⟨early ++ late, hearly.append hlate, by rwa [← List.append_assoc]⟩
    · exact ⟨[], sparing_nil 0, by rwa [List.append_nil]⟩

/-- Happenings that only concern the lookouts do not concern the poller. -/
theorem past (hp : p.Follows heights first happenings) (hnil : polled more = [])
    (hsame : (((Display.start first).run happenings).run more).height =
      ((Display.start first).run happenings).height) :
    p.Follows heights first (happenings ++ more) :=
  ⟨by rw [Display.run_append, hsame, hp.height],
    by rw [polled_append_of_polled_nil hnil, hp.heard], hp.asking, hp.questions, hp.running⟩

end Follows

end Poller

end ChainWatch.BlockCounter
