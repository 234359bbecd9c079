import ChainWatch.BlockCounter.Display

/-!
# Nobody waits in vain before a display

A lookout sleeps only while its height has not been reached and may still come: that is what
`Minds` says of a single lookout, and every happening keeps it for all of them (`Minded.step`). The
critical case is the one in which the height moves and then ends before anybody has a turn. The
lookout then still judges the last height, since it has not judged it since the move.

`Attended` collects what everybody before a display can rely on at every moment, and
`attended_run` shows it for every order of happenings.
-/

namespace ChainWatch.BlockCounter

variable {h : Height} {l : Lookout} {d : Display}

/-! ## The largest height -/

/-- A height is the largest of a list. -/
def Highest (value : UInt64) (heights : List UInt64) : Prop :=
  value ∈ heights ∧ ∀ other ∈ heights, other ≤ value

theorem highest_singleton (value : UInt64) : Highest value [value] := by
  refine ⟨List.mem_singleton_self _, fun other hmem => ?_⟩
  rw [List.mem_singleton.mp hmem]
  exact UInt64.le_refl _

/-- The largest of a list is the largest with a smaller height in front. -/
theorem Highest.cons_of_le {value first second : UInt64} {rest : List UInt64}
    (hhigh : Highest value (first :: rest)) (hle : second ≤ first) :
    Highest value (second :: first :: rest) := by
  refine ⟨List.mem_cons_of_mem _ hhigh.1, fun other hmem => ?_⟩
  rcases List.mem_cons.mp hmem with rfl | hmem
  · exact UInt64.le_trans hle (hhigh.2 first List.mem_cons_self)
  · exact hhigh.2 other hmem

theorem Highest.swap {value first second : UInt64} {rest : List UInt64}
    (hhigh : Highest value (first :: second :: rest)) :
    Highest value (second :: first :: rest) :=
  ⟨(List.Perm.swap second first rest).mem_iff.mp hhigh.1,
    fun other hmem => hhigh.2 other ((List.Perm.swap second first rest).mem_iff.mpr hmem)⟩

/-- An answer moves the height up to a larger value, or leaves it as it is. -/
theorem Height.learn_cases (h : Height) (answer : Except ChainError UInt64) :
    (h.learn answer = h ∧ ∀ value, answer = .ok value → value ≤ h.value) ∨
      ∃ value, answer = .ok value ∧ h.value < value ∧
        h.learn answer = ⟨value, h.moves + 1, h.running⟩ := by
  match answer with
  | .error _ => exact .inl ⟨rfl, nofun⟩
  | .ok value =>
    rw [learn]
    split
    · next hlt => exact .inr ⟨value, rfl, hlt, rfl⟩
    · next hle =>
      refine .inl ⟨rfl, ?_⟩
      rintro value ⟨rfl⟩
      exact UInt64.not_lt.mp hle

theorem Height.le_learn (h : Height) (answer : Except ChainError UInt64) :
    h.value ≤ (h.learn answer).value := by
  rcases h.learn_cases answer with ⟨hsame, -⟩ | ⟨value, -, hlt, hlearn⟩
  · rw [hsame]
    exact UInt64.le_refl _
  · rw [hlearn]
    exact UInt64.le_of_lt hlt

/-! ## Verdicts -/

section Verdicts

variable {target : UInt64}

theorem verdict?_eq_none_iff : verdict? h target = none ↔ h.value < target ∧ h.running = true := by
  rw [← UInt64.not_le, verdict?]
  by_cases hreached : target ≤ h.value <;> cases hrunning : h.running <;> simp [hreached]

theorem verdict?_eq_reached_iff {r : UInt64} :
    verdict? h target = some (.reached r) ↔ target ≤ h.value ∧ h.value = r := by
  rw [verdict?]
  by_cases hreached : target ≤ h.value <;> cases hrunning : h.running <;> simp [hreached]

theorem verdict?_eq_stopped_iff :
    verdict? h target = some .stopped ↔ h.value < target ∧ h.running = false := by
  rw [← UInt64.not_le, verdict?]
  by_cases hreached : target ≤ h.value <;> cases hrunning : h.running <;> simp [hreached]

end Verdicts

/-! ## Single lookouts -/

namespace Lookout

/-- What a lookout knows agrees with the height. -/
structure Minds (l : Lookout) (h : Height) : Prop where
  past : ∀ n, l.judged = some n → n ≤ h.moves
  /-- Whoever judged the present height and was told nothing waits for a larger one. -/
  low : l.judged = some h.moves → l.told? = none → h.value < l.target
  asleep : l.stage = .asleep → l.judged = some h.moves ∧ h.running = true
  reached : ∀ r, l.told? = some (.reached r) → l.target ≤ r ∧ r ≤ h.value
  stopped : l.told? = some .stopped → h.running = false ∧ h.value < l.target

theorem told?_wake (l : Lookout) : l.wake.told? = l.told? := by
  unfold wake
  split
  · next hasleep => rw [told?, told?, hasleep]
  · rfl

theorem target_wake (l : Lookout) : l.wake.target = l.target := by
  unfold wake
  split <;> rfl

theorem judged_wake (l : Lookout) : l.wake.judged = l.judged := by
  unfold wake
  split <;> rfl

theorem not_asleep_wake (l : Lookout) : l.wake.stage ≠ .asleep := by
  unfold wake
  split
  · exact nofun
  · assumption

theorem told?_leave (l : Lookout) : l.leave.told? = l.told? := by
  unfold leave
  split
  · rfl
  · next htold => exact (Option.not_isSome_iff_eq_none.mp htold).symm

theorem target_leave (l : Lookout) : l.leave.target = l.target := by
  unfold leave
  split <;> rfl

theorem target_turn (l : Lookout) (h : Height) : (l.turn h).target = l.target := by
  unfold turn
  split <;> rfl

/-- Whoever has been told has no more turns. -/
theorem turn_of_told {verdict : Verdict} (htold : l.told? = some verdict) (h : Height) :
    l.turn h = l := by
  refine if_neg fun hawake => ?_
  rw [told?, hawake] at htold
  cases htold

namespace Minds

theorem fresh (target : UInt64) (h : Height) : (Lookout.fresh target).Minds h :=
  ⟨nofun, nofun, nofun, nofun, nofun⟩

/-- What a lookout sees is what anybody would be told who looked for the first time: it does not
look again only where there is nothing new to be seen. -/
theorem sight_eq (hm : l.Minds h) (hnone : l.told? = none) :
    l.sight h = ((verdict? h l.target).elim .asleep .told) := by
  unfold sight verdict?
  by_cases hreached : l.target ≤ h.value
  · -- had it judged the present height already, it would have been told
    have hnew : l.judged ≠ some h.moves := fun hjudged => by
      have hlow := hm.low hjudged hnone
      exact UInt64.not_lt.mpr hreached hlow
    rw [if_pos ⟨hnew, hreached⟩, if_pos hreached]
    rfl
  · rw [if_neg fun hboth => hreached hboth.2, if_neg hreached]
    cases h.running <;> rfl

/-- A turn tells a lookout what anybody would be told now, unless it has been told before. -/
theorem told?_turn (hm : l.Minds h) (hhere : l.stage ≠ .gone) :
    (l.turn h).told? = l.told?.or (verdict? h l.target) := by
  cases hstage : l.stage with
  | awake =>
    have hnone : l.told? = none := by rw [told?, hstage]
    rw [turn, if_pos hstage, hnone, Option.none_or, hm.sight_eq hnone, told?]
    cases verdict? h l.target <;> rfl
  | asleep =>
    have hnone : l.told? = none := by rw [told?, hstage]
    obtain ⟨hjudged, hrunning⟩ := hm.asleep hstage
    have hnothing : verdict? h l.target = none :=
      verdict?_eq_none_iff.mpr ⟨hm.low hjudged hnone, hrunning⟩
    rw [turn, if_neg (by rw [hstage]; exact nofun), hnone, hnothing, Option.none_or]
  | told verdict =>
    have htold : l.told? = some verdict := by rw [told?, hstage]
    rw [turn_of_told htold, htold, Option.some_or]
  | gone => exact absurd hstage hhere

theorem turn (hm : l.Minds h) : (l.turn h).Minds h := by
  by_cases hawake : l.stage = .awake
  · have hnone : l.told? = none := by rw [told?, hawake]
    have hhere : l.stage ≠ .gone := by rw [hawake]; exact nofun
    have htold := hm.told?_turn hhere
    rw [hnone, Option.none_or] at htold
    have hturn : l.turn h = { l with judged := some h.moves, stage := l.sight h } := if_pos hawake
    refine ⟨fun n hn => ?_, fun _ hstill => ?_, fun hasleep => ?_, fun r hr => ?_, fun hend => ?_⟩
    · rw [hturn] at hn
      exact Nat.le_of_eq (Option.some.inj hn).symm
    · rw [htold, verdict?_eq_none_iff] at hstill
      rw [target_turn]
      exact hstill.1
    · have hnothing : verdict? h l.target = none := by
        rw [← htold, told?, hasleep]
      exact ⟨by rw [hturn], (verdict?_eq_none_iff.mp hnothing).2⟩
    · rw [htold, verdict?_eq_reached_iff] at hr
      obtain ⟨hreached, rfl⟩ := hr
      rw [target_turn]
      exact ⟨hreached, UInt64.le_refl _⟩
    · rw [htold, verdict?_eq_stopped_iff] at hend
      rw [target_turn]
      exact hend.symm
  · rwa [Lookout.turn, if_neg hawake]

/-- A move of the height is new to everybody. -/
theorem moved (hm : l.Minds h) (hrunning : h.running = true) {value : UInt64}
    (hlt : h.value < value) : l.wake.Minds ⟨value, h.moves + 1, h.running⟩ := by
  refine ⟨fun n hn => ?_, fun hjudged _ => ?_, fun hasleep => ?_, fun r hr => ?_, fun hend => ?_⟩
  · rw [judged_wake] at hn
    exact Nat.le_succ_of_le (hm.past n hn)
  · -- what was judged before the move is not the present height
    rw [judged_wake] at hjudged
    exact absurd (hm.past _ hjudged) (Nat.not_succ_le_self _)
  · exact absurd hasleep l.not_asleep_wake
  · rw [told?_wake] at hr
    rw [target_wake]
    obtain ⟨htarget, hle⟩ := hm.reached r hr
    exact ⟨htarget, UInt64.le_trans hle (UInt64.le_of_lt hlt)⟩
  · rw [told?_wake] at hend
    rw [(hm.stopped hend).1] at hrunning
    cases hrunning

theorem stop (hm : l.Minds h) : l.wake.Minds h.stop := by
  refine ⟨fun n hn => ?_, fun hjudged hnone => ?_, fun hasleep => ?_, fun r hr => ?_, fun hend => ?_⟩
  · rw [judged_wake] at hn
    exact hm.past n hn
  · rw [judged_wake] at hjudged
    rw [told?_wake] at hnone
    rw [target_wake]
    exact hm.low hjudged hnone
  · exact absurd hasleep l.not_asleep_wake
  · rw [told?_wake] at hr
    rw [target_wake]
    exact hm.reached r hr
  · rw [told?_wake] at hend
    rw [target_wake]
    exact ⟨rfl, (hm.stopped hend).2⟩

theorem leave (hm : l.Minds h) : l.leave.Minds h := by
  unfold Lookout.leave
  split
  · exact hm
  · next htold =>
    have hnone : l.told? = none := Option.not_isSome_iff_eq_none.mp htold
    exact ⟨hm.past, fun hjudged _ => hm.low hjudged hnone, nofun, nofun, nofun⟩

end Minds

end Lookout

/-! ## The display -/

namespace Display

/-- What all lookouts know agrees with the height. -/
def Minded (d : Display) : Prop := ∀ l ∈ d.lookouts, l.Minds d.height

theorem minded_start (value : UInt64) : (start value).Minded :=
  fun _ hmem => absurd hmem List.not_mem_nil

/-- An answer of the node moves the height and wakes everybody, or does nothing at all. -/
theorem hear_cases (d : Display) (answer : Except ChainError UInt64) :
    (d.hear answer = d ∧ ∀ value, answer = .ok value → value ≤ d.height.value) ∨
      ∃ value, answer = .ok value ∧ d.height.value < value ∧
        d.hear answer = d.wakeAll ⟨value, d.height.moves + 1, d.height.running⟩ := by
  unfold hear
  rcases d.height.learn_cases answer with ⟨hsame, hle⟩ | ⟨value, hok, hlt, hlearn⟩
  · exact .inl ⟨by rw [hsame, if_pos rfl], hle⟩
  · refine .inr ⟨value, hok, hlt, ?_⟩
    rw [hlearn, if_neg (Nat.succ_ne_self _)]

theorem height_hear (d : Display) (answer : Except ChainError UInt64) :
    (d.hear answer).height = d.height.learn answer := by
  unfold hear
  split
  · next hsame =>
    rcases d.height.learn_cases answer with ⟨hlearn, -⟩ | ⟨value, -, -, hlearn⟩
    · exact hlearn.symm
    · rw [hlearn] at hsame
      exact absurd hsame (Nat.succ_ne_self _)
  · rfl

theorem getElem?_turn {i : Nat} (hl : d.lookouts[i]? = some l) :
    (d.step (.turn i)).lookouts[i]? = some (l.turn d.height) := by
  rw [step, List.getElem?_modify_eq, hl, Option.map_eq_map, Option.map_some]

theorem getElem?_leave {i : Nat} (hl : d.lookouts[i]? = some l) :
    (d.step (.leave i)).lookouts[i]? = some l.leave := by
  rw [step, List.getElem?_modify_eq, hl, Option.map_eq_map, Option.map_some]

/-- What becomes of one lookout in one step: nothing, it is woken, it has its turn, or it is
dropped. -/
theorem step_lookout {i : Nat} (hl : d.lookouts[i]? = some l) (happening : Happening) :
    ∃ l', (d.step happening).lookouts[i]? = some l' ∧
      (l' = l ∨ l' = l.wake ∨ happening = .turn i ∧ l' = l.turn d.height ∨
        happening = .leave i ∧ l' = l.leave) := by
  have hwoken (height : Height) : (d.wakeAll height).lookouts[i]? = some l.wake := by
    rw [wakeAll, List.getElem?_map, hl, Option.map_some]
  cases happening with
  | heard answer =>
    rw [step]
    split
    · rcases d.hear_cases answer with ⟨hsame, -⟩ | ⟨value, -, -, hmoved⟩
      · rw [hsame]
        exact ⟨l, hl, .inl rfl⟩
      · rw [hmoved]
        exact ⟨_, hwoken _, .inr (.inl rfl)⟩
    · exact ⟨l, hl, .inl rfl⟩
  | ended => exact ⟨_, hwoken _, .inr (.inl rfl)⟩
  | join target =>
    have hlt : i < d.lookouts.length := (List.getElem?_eq_some_iff.mp hl).1
    exact ⟨l, by rw [step, List.getElem?_append_left hlt, hl], .inl rfl⟩
  | turn j =>
    by_cases hij : j = i
    · subst hij
      exact ⟨_, getElem?_turn hl, .inr (.inr (.inl ⟨rfl, rfl⟩))⟩
    · exact ⟨l, (List.getElem?_modify_ne _ _ hij).trans hl, .inl rfl⟩
  | leave j =>
    by_cases hij : j = i
    · subst hij
      exact ⟨_, getElem?_leave hl, .inr (.inr (.inr ⟨rfl, rfl⟩))⟩
    · exact ⟨l, (List.getElem?_modify_ne _ _ hij).trans hl, .inl rfl⟩

theorem Minded.step (hm : d.Minded) (happening : Happening) : (d.step happening).Minded := by
  have hwoken {height : Height} (hall : ∀ l ∈ d.lookouts, l.wake.Minds height) :
      (d.wakeAll height).Minded := by
    intro l hmem
    obtain ⟨old, hold, rfl⟩ := List.mem_map.mp hmem
    exact hall old hold
  have hmodify (i : Nat) (f : Lookout → Lookout) (hf : ∀ l, l.Minds d.height → (f l).Minds d.height) :
      Display.Minded { d with lookouts := d.lookouts.modify i f } := by
    intro l hmem
    obtain ⟨j, hj⟩ := List.mem_iff_getElem?.mp hmem
    rw [List.getElem?_modify] at hj
    obtain ⟨old, hold, rfl⟩ := Option.map_eq_some_iff.mp hj
    have hminds := hm old (List.mem_of_getElem? hold)
    split
    · exact hf old hminds
    · exact hminds
  cases happening with
  | heard answer =>
    rw [Display.step]
    split
    · next hrunning =>
      rcases d.hear_cases answer with ⟨hsame, -⟩ | ⟨value, -, hlt, hmoved⟩
      · rwa [hsame]
      · rw [hmoved]
        exact hwoken fun l hmem => (hm l hmem).moved hrunning hlt
    · exact hm
  | ended => exact hwoken fun l hmem => (hm l hmem).stop
  | join target =>
    intro l hmem
    rcases List.mem_append.mp hmem with hmem | hmem
    · exact hm l hmem
    · rw [List.mem_singleton.mp hmem]
      exact .fresh target _
  | turn i => exact hmodify i _ fun _ hminds => hminds.turn
  | leave i => exact hmodify i _ fun _ hminds => hminds.leave

theorem Minded.run (hm : d.Minded) (happenings : List Happening) : (d.run happenings).Minded := by
  induction happenings generalizing d with
  | nil => exact hm
  | cons happening rest ih => exact ih (hm.step happening)

/-! ## What many steps keep -/

theorem run_append (d : Display) (happenings more : List Happening) :
    d.run (happenings ++ more) = (d.run happenings).run more :=
  List.foldl_append

theorem run_concat (d : Display) (happenings : List Happening) (happening : Happening) :
    d.run (happenings ++ [happening]) = (d.run happenings).step happening :=
  d.run_append happenings [happening]

theorem height_step (d : Display) (happening : Happening) :
    (d.step happening).height =
      match happening with
      | .heard answer => if d.height.running then d.height.learn answer else d.height
      | .ended => d.height.stop
      | _ => d.height := by
  cases happening with
  | heard answer =>
    rw [step]
    split
    · exact d.height_hear answer
    · rfl
  | _ => rfl

theorem le_step (d : Display) (happening : Happening) :
    d.height.value ≤ (d.step happening).height.value := by
  rw [height_step]
  cases happening with
  | heard answer =>
    dsimp only
    split
    · exact Height.le_learn _ _
    · exact UInt64.le_refl _
  | _ => exact UInt64.le_refl _

theorem le_run (d : Display) (happenings : List Happening) :
    d.height.value ≤ (d.run happenings).height.value := by
  induction happenings generalizing d with
  | nil => exact UInt64.le_refl _
  | cons happening rest ih => exact UInt64.le_trans (d.le_step happening) (ih _)

/-- Once nobody moves the height it stays. -/
theorem height_run_of_ended (hended : d.height.running = false) (happenings : List Happening) :
    (d.run happenings).height = d.height := by
  induction happenings generalizing d with
  | nil => rfl
  | cons happening rest ih =>
    have hsame : (d.step happening).height = d.height := by
      rw [height_step]
      cases happening with
      | heard answer => exact if_neg (by rw [hended]; exact Bool.false_ne_true)
      | ended => exact congrArg (Height.mk _ _) hended.symm
      | _ => rfl
    have hrest := ih (d := d.step happening) (by rw [hsame, hended])
    exact hrest.trans hsame

theorem height_run_ended (d : Display) (rest : List Happening) :
    (d.run (.ended :: rest)).height = d.height.stop :=
  height_run_of_ended (d := d.step .ended) rfl rest

/-- The height is the largest of the first one and those that the node told while somebody
listened. -/
theorem highest_run (hrunning : d.height.running = true) (happenings : List Happening) :
    Highest (d.run happenings).height.value (d.height.value :: polled happenings) := by
  induction happenings generalizing d with
  | nil => exact highest_singleton _
  | cons happening rest ih =>
    have hsame (heq : (d.step happening).height = d.height) :
        Highest (d.run (happening :: rest)).height.value (d.height.value :: polled rest) := by
      have hrest := ih (d := d.step happening) (by rw [heq, hrunning])
      rwa [heq] at hrest
    cases happening with
    | heard answer =>
      have hstep : (d.step (.heard answer)).height = d.height.learn answer := by
        rw [height_step]
        exact if_pos hrunning
      rcases d.height.learn_cases answer with ⟨hlearn, hle⟩ | ⟨value, rfl, hlt, hlearn⟩
      · -- an answer that is not larger, or none, does not change which height is the largest
        have hrest := hsame (hstep.trans hlearn)
        match answer with
        | .error _ => exact hrest
        | .ok value => exact (hrest.cons_of_le (hle value rfl)).swap
      · have hrest := ih (d := d.step (.heard (.ok value))) (by rw [hstep, hlearn]; exact hrunning)
        rw [hstep, hlearn] at hrest
        exact hrest.cons_of_le (UInt64.le_of_lt hlt)
    | ended =>
      rw [height_run_ended]
      exact highest_singleton _
    | join target => exact hsame rfl
    | turn i => exact hsame rfl
    | leave i => exact hsame rfl

/-- A lookout keeps its target, and what it was told stays told. -/
theorem run_lookout {i : Nat} (hl : d.lookouts[i]? = some l) (happenings : List Happening) :
    ∃ l', (d.run happenings).lookouts[i]? = some l' ∧ l'.target = l.target ∧
      ∀ verdict, l.told? = some verdict → l'.told? = some verdict := by
  induction happenings generalizing d l with
  | nil => exact ⟨l, hl, rfl, fun _ => id⟩
  | cons happening rest ih =>
    obtain ⟨next, hnext, hfate⟩ := step_lookout hl happening
    have hkept : next.target = l.target ∧ ∀ verdict, l.told? = some verdict →
        next.told? = some verdict := by
      rcases hfate with rfl | rfl | ⟨-, rfl⟩ | ⟨-, rfl⟩
      · exact ⟨rfl, fun _ => id⟩
      · exact ⟨l.target_wake, fun _ htold => l.told?_wake.trans htold⟩
      · exact ⟨l.target_turn _, fun _ htold => by rw [Lookout.turn_of_told htold, htold]⟩
      · exact ⟨l.target_leave, fun _ htold => l.told?_leave.trans htold⟩
    obtain ⟨l', hl', htarget, htold⟩ := ih hnext
    exact ⟨l', hl', htarget.trans hkept.1, fun verdict hverdict => htold verdict (hkept.2 verdict hverdict)⟩

end Display

/-! ## What everybody can rely on -/

/-- What everybody before a display can rely on once these happenings have followed its first
height. -/
structure Attended (first : UInt64) (happenings : List Happening) (d : Display) : Prop where
  /-- The height is the largest that was told so far. -/
  highest : Highest d.height.value (first :: polled happenings)
  /-- It never goes down. -/
  forward : ∀ more, d.height.value ≤ (d.run more).height.value
  /-- Once nobody moves it, it stays where it is. -/
  final : d.height.running = false → ∀ more, (d.run more).height = d.height
  /-- Whoever is told a height is told that of the moment, in a turn of its own. -/
  told : ∀ happening (i : Nat) l l' height, d.lookouts[i]? = some l → l.told? = none →
    (d.step happening).lookouts[i]? = some l' → l'.told? = some (.reached height) →
      happening = .turn i ∧ height = d.height.value ∧ l.target ≤ height
  /-- Nobody sleeps whose height has been reached or cannot come any more. -/
  asleep : ∀ l ∈ d.lookouts, l.stage = .asleep →
    d.height.running = true ∧ d.height.value < l.target
  /-- A turn settles the waiting of everybody whose height has been reached, though nobody may move
  the height any more. -/
  served : ∀ (i : Nat) l, d.lookouts[i]? = some l → l.stage = .awake → l.target ≤ d.height.value →
    ∃ l', (d.step (.turn i)).lookouts[i]? = some l' ∧ l'.told? = some (.reached d.height.value)
  /-- Whoever waits when its height has been reached is never told anything else, whatever happens
  before its turn, and does not fall asleep again. -/
  kept : ∀ (i : Nat) l, d.lookouts[i]? = some l → l.told? = none → l.target ≤ d.height.value →
    ∀ more, ∃ l', (d.run more).lookouts[i]? = some l' ∧ l'.target = l.target ∧
      l'.stage ≠ .asleep ∧ l'.told? ≠ some .stopped ∧ l'.target ≤ (d.run more).height.value
  /-- Who fails does so because nobody is left to move a height that is too low. -/
  failed : ∀ l ∈ d.lookouts, l.told? = some .stopped →
    d.height.running = false ∧ d.height.value < l.target
  /-- Once nobody moves the height, a turn settles the waiting of everybody. -/
  settled : d.height.running = false → ∀ (i : Nat) l, d.lookouts[i]? = some l → l.stage = .awake →
    ∃ l', (d.step (.turn i)).lookouts[i]? = some l' ∧ l'.told?.isSome = true

namespace Display

/-- A turn of a lookout that is awake tells it what anybody would be told now. -/
theorem Minded.turn_told? (hm : d.Minded) {i : Nat} (hl : d.lookouts[i]? = some l)
    (hawake : l.stage = .awake) :
    ∃ l', (d.step (.turn i)).lookouts[i]? = some l' ∧ l'.told? = verdict? d.height l.target := by
  have hnone : l.told? = none := by rw [Lookout.told?, hawake]
  have hhere : l.stage ≠ .gone := by rw [hawake]; exact nofun
  refine ⟨l.turn d.height, getElem?_turn hl, ?_⟩
  rw [(hm l (List.mem_of_getElem? hl)).told?_turn hhere, hnone, Option.none_or]

/-- Whatever happens before a display, and in whatever order, everybody can rely on it. -/
theorem attended_run (first : UInt64) (happenings : List Happening) :
    Attended first happenings ((start first).run happenings) := by
  have hhighest : Highest ((start first).run happenings).height.value (first :: polled happenings) :=
    highest_run rfl happenings
  have hm : ((start first).run happenings).Minded := (minded_start first).run happenings
  revert hhighest hm
  generalize (start first).run happenings = d
  intro hhighest hm
  have hasleep : ∀ {d : Display}, d.Minded → ∀ l ∈ d.lookouts, l.stage = .asleep →
      d.height.running = true ∧ d.height.value < l.target := by
    intro d hm l hmem hstage
    obtain ⟨hjudged, hrunning⟩ := (hm l hmem).asleep hstage
    exact ⟨hrunning, (hm l hmem).low hjudged (by rw [Lookout.told?, hstage])⟩
  refine ⟨hhighest, d.le_run, fun hended => height_run_of_ended hended, ?_, hasleep hm, ?_, ?_,
    fun l hmem => (hm l hmem).stopped, ?_⟩
  · -- of all that can become of a lookout only a turn tells it anything
    intro happening i l l' height hl hnone hl' hreached
    obtain ⟨next, hnext, hfate⟩ := step_lookout hl happening
    obtain rfl : l' = next := Option.some.inj (hl'.symm.trans hnext)
    rcases hfate with rfl | rfl | ⟨rfl, rfl⟩ | ⟨-, rfl⟩
    · rw [hnone] at hreached
      cases hreached
    · rw [Lookout.told?_wake, hnone] at hreached
      cases hreached
    · have hhere : l.stage ≠ .gone := fun hgone => by
        rw [Lookout.turn, if_neg (by rw [hgone]; exact nofun), hnone] at hreached
        cases hreached
      rw [(hm l (List.mem_of_getElem? hl)).told?_turn hhere, hnone, Option.none_or,
        verdict?_eq_reached_iff] at hreached
      obtain ⟨hle, rfl⟩ := hreached
      exact ⟨rfl, rfl, hle⟩
    · rw [Lookout.told?_leave, hnone] at hreached
      cases hreached
  · intro i l hl hawake hle
    obtain ⟨l', hl', htold⟩ := hm.turn_told? hl hawake
    exact ⟨l', hl', htold.trans (verdict?_eq_reached_iff.mpr ⟨hle, rfl⟩)⟩
  · intro i l hl hnone hle more
    obtain ⟨l', hl', htarget, -⟩ := run_lookout hl more
    have hmem' := List.mem_of_getElem? hl'
    have hreached : l'.target ≤ (d.run more).height.value := by
      rw [htarget]
      exact UInt64.le_trans hle (d.le_run more)
    -- sleep and failure both need a height that is too low, and the height does not go down
    refine ⟨l', hl', htarget, fun hstage => ?_, fun hstopped => ?_, hreached⟩
    · exact UInt64.not_lt.mpr hreached (hasleep (hm.run more) l' hmem' hstage).2
    · exact UInt64.not_lt.mpr hreached ((hm.run more l' hmem').stopped hstopped).2
  · intro hended i l hl hawake
    obtain ⟨l', hl', htold⟩ := hm.turn_told? hl hawake
    refine ⟨l', hl', Option.isSome_iff_ne_none.mpr fun hnothing => ?_⟩
    rw [htold, verdict?_eq_none_iff, hended] at hnothing
    exact Bool.false_ne_true hnothing.2

end Display

end ChainWatch.BlockCounter
