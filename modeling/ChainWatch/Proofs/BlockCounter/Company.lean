import ChainWatch.BlockCounter.Company
import ChainWatch.Proofs.BlockCounter.Sessions

/-!
# Pollers in company

What a company keeps, whatever happens in it, as long as the node answers more quickly than the
poller asks: the poller is never late, its height is the largest that it heard, no errand is done
before its height has been reached, and the poller stops only when nobody is left
(`Company.Sound.run`). Nobody comes back once all have gone, and an errand keeps its target.
-/

namespace ChainWatch.BlockCounter

variable {heights : Nat → Node.Timed UInt64} {first : UInt64} {c : Company}

/-- One of the first so many answers of the node reaches a height. -/
def Told (heights : Nat → Node.Timed UInt64) (count : Nat) (target : UInt64) : Prop :=
  ∃ n < count, ∃ value, (heights n).answer = .ok value ∧ target ≤ value

theorem Told.mono {count more : Nat} {target : UInt64} (htold : Told heights count target)
    (hle : count ≤ more) : Told heights more target := by
  obtain ⟨n, hn, hanswer⟩ := htold
  exact ⟨n, Nat.lt_of_lt_of_le hn hle, hanswer⟩

theorem mem_heard_iff {p : Poller} {value : UInt64} :
    value ∈ p.heard heights ↔ ∃ n < p.answered, (heights n).answer = .ok value := by
  simp only [Poller.heard, List.mem_filterMap, List.mem_range]
  refine exists_congr fun n => and_congr_right fun _ => ?_
  cases (heights n).answer <;> simp [Except.toOption]

/-- A poller's height is at least another exactly if one of the answers that it heard was. -/
theorem Poller.Follows.le_height_iff {p : Poller} {happenings : List Happening}
    (hp : p.Follows heights first happenings) (target : UInt64) :
    target ≤ p.height.value ↔ Told heights p.answered target := by
  have hhighest := Display.highest_run (d := .start first) rfl happenings
  rw [hp.height, show (Display.start first).height.value = first from rfl, hp.heard] at hhighest
  constructor
  · intro hle
    obtain ⟨n, hn, hanswer⟩ := mem_heard_iff.mp hhighest.1
    exact ⟨n, hn, _, hanswer, hle⟩
  · rintro ⟨n, hn, value, hanswer, hle⟩
    exact UInt64.le_trans hle (hhighest.2 value (mem_heard_iff.mpr ⟨n, hn, hanswer⟩))

theorem Poller.answered_le (p : Poller) : p.answered ≤ p.questions := by
  rw [answered]
  split
  · exact Nat.sub_le _ _
  · exact Nat.le_refl _

/-! ## Errands -/

namespace Errand

theorem look_look (e : Errand) (h : Height) : (e.look h).look h = e.look h := by
  simp [look]

theorem look_eq_iff {e : Errand} {h : Height} :
    e.look h = e ↔ ((verdict? h e.target).isSome = true → e.done = true) := by
  cases e with
  | mk target done awaited =>
    simp only [look, Errand.mk.injEq, true_and, and_true]
    cases done <;> simp

/-- An errand that is told something while the height moves is told that it has been reached. -/
theorem isSome_verdict? {h : Height} (hrunning : h.running = true) (target : UInt64) :
    (verdict? h target).isSome = true ↔ target ≤ h.value := by
  rw [verdict?]
  by_cases hle : target ≤ h.value <;> simp [hle, hrunning]

end Errand

namespace Company

theorem run_nil (c : Company) : c.run [] = c := rfl

theorem run_cons (c : Company) (turn : Turn) (rest : List Turn) :
    c.run (turn :: rest) = (c.step turn).run rest := rfl

theorem run_append (c : Company) (turns more : List Turn) :
    c.run (turns ++ more) = (c.run turns).run more :=
  List.foldl_append

theorem deserted_iff : c.deserted = true ↔
    c.held = false ∧ c.watches = 0 ∧ ∀ e ∈ c.errands, e.done = true := by
  simp [deserted, and_assoc]

theorem still_iff : c.still = true ↔
    c.poller.act c.heights c.deserted c.now = none ∧
      ∀ e ∈ c.errands, e.look c.poller.height = e := by
  simp [still]

/-- A turn keeps what holds of all errands if it can be said of new ones, and if neither a look at
the height nor being ignored changes it. -/
theorem forall_errands_step {P : Errand → Prop} (hall : ∀ e ∈ c.errands, P e) (turn : Turn)
    (hlook : ∀ e, P e → P (e.look c.poller.height))
    (hignore : ∀ e, P e → P { e with awaited := false })
    (hsend : c.held = true → ∀ target, P ⟨target, false, true⟩) :
    ∀ e ∈ (c.step turn).errands, P e := by
  have hmodify (i : Nat) (f : Errand → Errand) (hf : ∀ e, P e → P (f e)) :
      ∀ e ∈ c.errands.modify i f, P e := by
    intro e hmem
    obtain ⟨j, hj⟩ := List.mem_iff_getElem?.mp hmem
    rw [List.getElem?_modify] at hj
    obtain ⟨old, hold, rfl⟩ := Option.map_eq_some_iff.mp hj
    have hP := hall old (List.mem_of_getElem? hold)
    split
    · exact hf old hP
    · exact hP
  unfold step
  split
  · split
    · exact hall
    · exact hall
  · exact hmodify _ _ hlook
  · split
    · exact hall
    · exact hall
  · exact hall
  · split
    · exact hall
    · exact hall
  · exact hall
  · split
    · next hheld =>
      intro e hmem
      rcases List.mem_append.mp hmem with hmem | hmem
      · exact hall e hmem
      · exact List.mem_singleton.mp hmem ▸ hsend hheld _
    · exact hall
  · exact hmodify _ _ hignore

/-! ## Looking around and waiting -/

/-- All errands look at the height. -/
def lookAll (c : Company) : Company :=
  { c with errands := c.errands.map fun e => e.look c.poller.height }

/-- The turns of all errands. -/
def lookTurns (c : Company) : List Turn := (List.range c.errands.length).map .errand

theorem run_errands (c : Company) (limit : Nat) :
    ∃ errands, c.run ((List.range limit).map .errand) = { c with errands := errands } ∧
      ∀ i : Nat, errands[i]? =
        c.errands[i]?.map fun e => if i < limit then e.look c.poller.height else e := by
  induction limit with
  | zero => exact ⟨c.errands, rfl, fun i => by simp⟩
  | succ limit ih =>
    obtain ⟨errands, hrun, hget⟩ := ih
    refine ⟨errands.modify limit fun e => e.look c.poller.height, ?_, fun i => ?_⟩
    · rw [List.range_succ, List.map_append, run_append, hrun]
      rfl
    · rw [List.getElem?_modify, hget]
      cases c.errands[i]? with
      | none => rfl
      | some e => grind

theorem run_lookTurns (c : Company) : c.run c.lookTurns = c.lookAll := by
  obtain ⟨errands, hrun, hget⟩ := c.run_errands c.errands.length
  rw [lookTurns, hrun, lookAll]
  congr 1
  refine List.ext_getElem? fun i => ?_
  rw [hget, List.getElem?_map]
  cases he : c.errands[i]? with
  | none => rfl
  | some e => simp [(List.getElem?_eq_some_iff.mp he).1]

/-- No errand has anything to see. -/
def Looked (c : Company) : Prop := ∀ e ∈ c.errands, e.look c.poller.height = e

theorem looked_lookAll (c : Company) : c.lookAll.Looked := by
  intro e hmem
  obtain ⟨old, -, rfl⟩ := List.mem_map.mp hmem
  exact old.look_look c.poller.height

theorem step_poll {looks : Bool} {next : Poller}
    (hact : c.poller.act c.heights (looks && c.deserted) c.now = some next) :
    c.step (.poll looks) = { c with poller := next } := by
  rw [step, hact]

/-- Time can go on when there is nothing to do before. -/
theorem step_pass {time : Nat} (hlooked : c.Looked) (hle : c.now ≤ time)
    (hact : c.now < time → c.poller.act c.heights c.deserted c.now = none)
    (hnext : ∀ next ∈ c.poller.nextTime?, time ≤ next) :
    c.step (.pass time) = { c with now := time } := by
  rcases Nat.lt_or_eq_of_le hle with hlt | rfl
  · exact if_pos ⟨still_iff.mpr ⟨hact hlt, hlooked⟩, hle, hnext⟩
  · exact ite_self c

/-! ## What a company keeps -/

/-- What can be relied on in a company whose poller has begun with a first height. -/
structure Sound (c : Company) (heights : Nat → Node.Timed UInt64) (first : UInt64) (period : Nat) :
    Prop where
  source : c.heights = heights
  pace : c.poller.period = period
  follows : ∃ happenings, c.poller.Follows heights first happenings
  /-- The poller is never late, and its ticks are no more than a period away. -/
  resting : ∀ due, c.poller.activity = .resting due → c.now ≤ due ∧ due ≤ c.now + period
  asking : ∀ arrival due answer, c.poller.activity = .asking arrival due answer →
    c.now ≤ arrival ∧ arrival < due ∧ due ≤ c.now + period
  /-- No errand is done before its height has been reached. -/
  told : ∀ e ∈ c.errands, e.done = true → Told heights c.poller.answered e.target
  /-- The poller stops only when nobody is left. -/
  stopped : c.poller.activity = .stopped → c.deserted = true

variable {period : Nat}

namespace Sound

/-- What a poller can do that is never late: set up its ticker, stop, ask at its tick, or hear an
answer when it comes. -/
theorem act_cases (hc : c.Sound heights first period) (hquick : ∀ n, (heights n).delay < period)
    {unwanted : Bool} {next : Poller}
    (hact : c.poller.act c.heights unwanted c.now = some next) :
    (c.poller.activity = .fresh ∧ next = { c.poller with activity := .resting c.now }) ∨
    (unwanted = true ∧ next = { c.poller with height := c.poller.height.stop, activity := .stopped }) ∨
    (unwanted = false ∧ c.poller.activity = .resting c.now ∧
      next.questions = c.poller.questions + 1 ∧ next.period = c.poller.period ∧
      (next.activity = .resting (c.now + period) ∨ ∃ delay answer, delay < period ∧
        next.activity = .asking (c.now + delay) (c.now + period) answer)) ∨
    ∃ due answer, c.poller.activity = .asking c.now due answer ∧ next = c.poller.hear answer due := by
  have hpositive : c.poller.period ≠ 0 := by
    rw [hc.pace]
    exact Nat.ne_of_gt (Nat.zero_lt_of_lt (hquick 0))
  unfold Poller.act at hact
  split at hact
  · next hfresh =>
    rw [if_neg hpositive] at hact
    exact .inl ⟨hfresh, (Option.some.inj hact).symm⟩
  · next due hresting =>
    have hdue := hc.resting due hresting
    split at hact
    · next hunwanted => exact .inr (.inl ⟨hunwanted, (Option.some.inj hact).symm⟩)
    · next hunwanted =>
      split at hact
      · next hlate =>
        obtain rfl : due = c.now := Nat.le_antisymm hlate hdue.1
        have hnext : Poller.nextTick c.poller.period c.now c.now = c.now + period := by
          rw [Poller.nextTick, if_neg (by omega), hc.pace]
        refine .inr (.inr (.inl ⟨Bool.eq_false_iff.mpr hunwanted, hresting, ?_⟩))
        dsimp only at hact
        rw [hnext, hc.source] at hact
        split at hact
        · obtain rfl := Option.some.inj hact
          exact ⟨rfl, rfl, .inl rfl⟩
        · obtain rfl := Option.some.inj hact
          exact ⟨rfl, rfl, .inr ⟨_, _, hquick _, rfl⟩⟩
      · cases hact
  · next arrival due answer hasking =>
    split at hact
    · next harrived =>
      obtain rfl : arrival = c.now := Nat.le_antisymm harrived (hc.asking _ _ _ hasking).1
      exact .inr (.inr (.inr ⟨due, answer, hasking, (Option.some.inj hact).symm⟩))
    · cases hact
  · cases hact

theorem running (hc : c.Sound heights first period) (hactive : c.poller.activity ≠ .stopped) :
    c.poller.height.running = true := by
  obtain ⟨happenings, hfollows⟩ := hc.follows
  exact hfollows.running.resolve_left hactive

theorem le_height_iff (hc : c.Sound heights first period) (target : UInt64) :
    target ≤ c.poller.height.value ↔ Told heights c.poller.answered target := by
  obtain ⟨happenings, hfollows⟩ := hc.follows
  exact hfollows.le_height_iff target

end Sound

/-- Once nobody is left nobody comes. -/
theorem deserted_step (hdeserted : c.deserted = true) (turn : Turn) :
    (c.step turn).deserted = true := by
  rw [deserted_iff] at hdeserted ⊢
  obtain ⟨hheld, hwatches, hdone⟩ := hdeserted
  have hall := forall_errands_step hdone turn (fun e he => by simp [Errand.look, he])
    (fun e he => he) (fun hyes => absurd (hheld.symm.trans hyes) Bool.false_ne_true)
  refine ⟨?_, ?_, hall⟩
  · unfold step
    grind
  · unfold step
    grind

/-- Nobody takes up again what all have given up. -/
theorem Abandoned.step (habandoned : c.Abandoned) (turn : Turn) : (c.step turn).Abandoned := by
  obtain ⟨hheld, hwatches, hnobody⟩ := habandoned
  have hall := forall_errands_step hnobody turn (fun e he => he) (fun e _ => rfl)
    (fun hyes => absurd (hheld.symm.trans hyes) Bool.false_ne_true)
  refine ⟨?_, ?_, hall⟩
  · unfold Company.step
    grind
  · unfold Company.step
    grind

/-- An errand keeps its target. -/
theorem step_errand {i : Nat} {e : Errand} (he : c.errands[i]? = some e) (turn : Turn) :
    ∃ e', (c.step turn).errands[i]? = some e' ∧ e'.target = e.target := by
  have hmodify (j : Nat) (f : Errand → Errand) (hf : ∀ e, (f e).target = e.target) :
      ∃ e', (c.errands.modify j f)[i]? = some e' ∧ e'.target = e.target := by
    rw [List.getElem?_modify, he]
    refine ⟨_, rfl, ?_⟩
    dsimp only
    split
    · exact hf e
    · rfl
  have hlt : i < c.errands.length := (List.getElem?_eq_some_iff.mp he).1
  unfold step
  split
  · split
    · exact ⟨e, he, rfl⟩
    · exact ⟨e, he, rfl⟩
  · exact hmodify _ _ fun _ => rfl
  · split
    · exact ⟨e, he, rfl⟩
    · exact ⟨e, he, rfl⟩
  · exact ⟨e, he, rfl⟩
  · split
    · exact ⟨e, he, rfl⟩
    · exact ⟨e, he, rfl⟩
  · exact ⟨e, he, rfl⟩
  · split
    · exact ⟨e, (List.getElem?_append_left hlt).trans he, rfl⟩
    · exact ⟨e, he, rfl⟩
  · exact hmodify _ _ fun _ => rfl

theorem run_errand {i : Nat} {e : Errand} (he : c.errands[i]? = some e) (turns : List Turn) :
    ∃ e', (c.run turns).errands[i]? = some e' ∧ e'.target = e.target := by
  induction turns generalizing c e with
  | nil => exact ⟨e, he, rfl⟩
  | cons turn rest ih =>
    obtain ⟨next, hnext, htarget⟩ := step_errand he turn
    obtain ⟨last, hlast, hlastTarget⟩ := ih hnext
    exact ⟨last, hlast, hlastTarget.trans htarget⟩

namespace Sound

/-- Whatever the poller does by itself is sound. -/
theorem poll (hc : c.Sound heights first period) (hquick : ∀ n, (heights n).delay < period)
    {looks : Bool} {next : Poller}
    (hact : c.poller.act c.heights (looks && c.deserted) c.now = some next) :
    Sound { c with poller := next } heights first period := by
  have hfollows : ∃ happenings, next.Follows heights first happenings := by
    obtain ⟨happenings, hp⟩ := hc.follows
    rw [hc.source] at hact
    obtain ⟨more, -, hnext⟩ := hp.act hact
    exact ⟨_, hnext⟩
  have hmore (later : Poller) (hle : c.poller.answered ≤ later.answered) :
      ∀ e ∈ c.errands, e.done = true → Told heights later.answered e.target :=
    fun e hmem hdone => (hc.told e hmem hdone).mono hle
  have hpace := hc.pace
  have hpositive : 0 < period := Nat.zero_lt_of_lt (hquick 0)
  rcases hc.act_cases hquick hact with ⟨hfresh, rfl⟩ | ⟨hunwanted, rfl⟩ |
    ⟨-, hresting, hquestions, hsame, hnext⟩ | ⟨due, answer, hasking, rfl⟩
  · refine ⟨hc.source, hpace, hfollows, ?_, by simp, hmore _ c.poller.answered_le, by simp⟩
    rintro due ⟨⟩
    exact ⟨Nat.le_refl _, Nat.le_add_right _ _⟩
  · rw [Bool.and_eq_true] at hunwanted
    exact ⟨hc.source, hpace, hfollows, by simp, by simp, hmore _ c.poller.answered_le,
      fun _ => hunwanted.2⟩
  · have hbefore : c.poller.answered = c.poller.questions := by rw [Poller.answered, hresting]
    rcases hnext with hnext | ⟨delay, answer, hdelay, hnext⟩
    · have hanswered : next.answered = next.questions := by rw [Poller.answered, hnext]
      refine ⟨hc.source, hsame.trans hpace, hfollows, ?_, ?_, hmore next (by omega), ?_⟩
      · intro due hdue
        obtain rfl := Activity.resting.inj (hnext.symm.trans hdue)
        show c.now ≤ c.now + period ∧ c.now + period ≤ c.now + period
        omega
      · intro _ _ _ hasking
        exact absurd (hnext.symm.trans hasking) (by simp)
      · intro hstopped
        exact absurd (hnext.symm.trans hstopped) (by simp)
    · have hanswered : next.answered = next.questions - 1 := by rw [Poller.answered, hnext]
      refine ⟨hc.source, hsame.trans hpace, hfollows, ?_, ?_, hmore next (by omega), ?_⟩
      · intro _ hdue
        exact absurd (hnext.symm.trans hdue) (by simp)
      · intro arrival due answer' hasking
        obtain ⟨rfl, rfl, -⟩ := Activity.asking.inj (hnext.symm.trans hasking)
        show c.now ≤ c.now + delay ∧ c.now + delay < c.now + period ∧
          c.now + period ≤ c.now + period
        omega
      · intro hstopped
        exact absurd (hnext.symm.trans hstopped) (by simp)
  · obtain ⟨-, hlt, hdue⟩ := hc.asking _ _ _ hasking
    refine ⟨hc.source, hpace, hfollows, ?_, ?_, hmore _ c.poller.answered_le, ?_⟩
    · rintro _ ⟨⟩
      exact ⟨Nat.le_of_lt hlt, hdue⟩
    · rintro _ _ _ ⟨⟩
    · rintro ⟨⟩

theorem told_step (hc : c.Sound heights first period) (turn : Turn) :
    ∀ e ∈ (c.step turn).errands, e.done = true → Told heights c.poller.answered e.target := by
  by_cases hstopped : c.poller.activity = .stopped
  · -- those who are told that the height stopped have been told something before
    obtain ⟨hheld, -, hdone⟩ := deserted_iff.mp (hc.stopped hstopped)
    have hall := forall_errands_step (P := fun e => Told heights c.poller.answered e.target)
      (fun e hmem => hc.told e hmem (hdone e hmem)) turn (fun _ h => h) (fun _ h => h)
      fun hyes => absurd (hheld.symm.trans hyes) Bool.false_ne_true
    exact fun e hmem _ => hall e hmem
  · refine forall_errands_step hc.told turn (fun e he hdone => ?_) (fun _ h => h) fun _ _ => nofun
    rw [Errand.look, Bool.or_eq_true] at hdone
    rcases hdone with hdone | hsome
    · exact he hdone
    · rw [Errand.isSome_verdict? (hc.running hstopped)] at hsome
      exact (hc.le_height_iff e.target).mp hsome

/-- What the others do does not concern the poller. -/
theorem others (hc : c.Sound heights first period) {next : Company}
    (hsame : next.heights = c.heights ∧ next.poller = c.poller ∧ next.now = c.now)
    (htold : ∀ e ∈ next.errands, e.done = true → Told heights c.poller.answered e.target)
    (hdeserted : c.poller.activity = .stopped → next.deserted = true) :
    next.Sound heights first period := by
  obtain ⟨hheights, hpoller, hnow⟩ := hsame
  refine ⟨hheights.trans hc.source, ?_, ?_, ?_, ?_, ?_, ?_⟩
  · rw [hpoller]
    exact hc.pace
  · rw [hpoller]
    exact hc.follows
  · rw [hpoller, hnow]
    exact hc.resting
  · rw [hpoller, hnow]
    exact hc.asking
  · rw [hpoller]
    exact htold
  · rw [hpoller]
    exact hdeserted

theorem step (hc : c.Sound heights first period) (hquick : ∀ n, (heights n).delay < period)
    (turn : Turn) : (c.step turn).Sound heights first period := by
  have htold := hc.told_step turn
  have hdeserted : c.poller.activity = .stopped → (c.step turn).deserted = true :=
    fun hstopped => deserted_step (hc.stopped hstopped) turn
  cases turn with
  | poll looks =>
    unfold Company.step
    dsimp only
    split
    · next hact => exact hc.poll hquick hact
    · exact hc
  | pass time =>
    unfold Company.step
    dsimp only
    split
    · next hpass =>
      obtain ⟨-, hlater, hnext⟩ := hpass
      refine ⟨hc.source, hc.pace, hc.follows, fun due hdue => ?_, fun arrival due answer hask => ?_,
        hc.told, hc.stopped⟩
      · have hsound := hc.resting due hdue
        have htime := hnext due (by rw [Poller.nextTime?, hdue, Option.mem_some])
        show time ≤ due ∧ due ≤ time + period
        omega
      · have hsound := hc.asking arrival due answer hask
        have htime := hnext arrival (by rw [Poller.nextTime?, hask, Option.mem_some])
        show time ≤ arrival ∧ arrival < due ∧ due ≤ time + period
        omega
    · exact hc
  | watch | send =>
    -- whether or not anybody may come, the poller is the same
    refine hc.others ?_ htold hdeserted
    unfold Company.step
    dsimp only
    split
    · exact ⟨rfl, rfl, rfl⟩
    · exact ⟨rfl, rfl, rfl⟩
  | _ => exact hc.others ⟨rfl, rfl, rfl⟩ htold hdeserted

theorem run (hc : c.Sound heights first period) (hquick : ∀ n, (heights n).delay < period)
    (turns : List Turn) : (c.run turns).Sound heights first period := by
  induction turns generalizing c with
  | nil => exact hc
  | cons turn rest ih => exact ih (hc.step hquick turn)

end Sound

theorem sound_start {s : Session} (hstart : Session.start heights period = .ok s) :
    ∃ first, (ofSession s).Sound heights first period := by
  obtain ⟨first, -, hfollows⟩ := Session.follows_start hstart
  unfold Session.start at hstart
  dsimp only at hstart
  split at hstart
  · cases hstart
  · obtain rfl := Except.ok.inj hstart
    exact ⟨first, rfl, rfl, ⟨_, hfollows.poller⟩, nofun, nofun, nofun, nofun⟩

end Company

end ChainWatch.BlockCounter
