import ChainWatch.BlockCounter.Session
import ChainWatch.Proofs.BlockCounter.Polling

/-!
# Sessions before a display

A session with a block counter is one of the runs of a display. Its poller is the one that hears
the node, those who wait in the background are lookouts that have their turns whenever the session
waits, and the session itself, when it waits for a height, is a lookout that has a turn when it
comes and another before it leaves.

`Session.Follows` says so of a session at a moment. It is kept by every step, so that everything
that can be relied on before a display can be relied on in a session.
-/

namespace ChainWatch.BlockCounter

variable {heights : Nat → Node.Timed UInt64} {first : UInt64} {happenings more : List Happening}

namespace Session

variable {s : Session} {limit : Nat}

/-- A session is where these happenings lead that follow a first height. Its waiters are among the
lookouts that came first. -/
structure Follows (s : Session) (heights : Nat → Node.Timed UInt64) (first : UInt64) (limit : Nat)
    (happenings : List Happening) : Prop where
  source : s.heights = heights
  poller : s.poller.Follows heights first happenings
  waiters : ∀ w ∈ s.waiters, ∃ i < limit, ∃ l,
    ((Display.start first).run happenings).lookouts[i]? = some l ∧ l.Stands w.target w.verdict

namespace Follows

theorem later (hs : s.Follows heights first limit happenings) (time : Nat) :
    Follows { s with now := time } heights first limit happenings :=
  ⟨hs.source, hs.poller, hs.waiters⟩

/-- The waiters are among all lookouts. -/
theorem everybody (hs : s.Follows heights first limit happenings) :
    s.Follows heights first ((Display.start first).run happenings).lookouts.length happenings := by
  refine ⟨hs.source, hs.poller, fun w hw => ?_⟩
  obtain ⟨i, -, l, hget, hl⟩ := hs.waiters w hw
  exact ⟨i, (List.getElem?_eq_some_iff.mp hget).1, l, hget, hl⟩

/-- Happenings that leave the height and the waiters alone go unnoticed. -/
theorem unnoticed (hs : s.Follows heights first limit happenings) (hnil : polled more = [])
    (hsame : (((Display.start first).run happenings).run more).height =
      ((Display.start first).run happenings).height)
    (hspared : ∀ happening ∈ more, ∀ i < limit, happening.Spares i) :
    s.Follows heights first limit (happenings ++ more) := by
  refine ⟨hs.source, hs.poller.past hnil hsame, fun w hw => ?_⟩
  obtain ⟨i, hlt, l, hget, hl⟩ := hs.waiters w hw
  obtain ⟨l', hget', hl'⟩ := Display.run_spared hget hl fun h hmem => hspared h hmem i hlt
  exact ⟨i, hlt, l', by rw [Display.run_append, hget'], hl'⟩

/-- The poller's turn. -/
theorem poll (hs : s.Follows heights first limit happenings) :
    ∃ more, Sparing 0 more ∧ s.poll.Follows heights first limit (happenings ++ more) := by
  obtain ⟨more, hsparing, hpoller⟩ := hs.poller.settle s.unwanted s.now Poller.busiest
  refine ⟨more, hsparing, hs.source, ?_, fun w hw => ?_⟩
  · rw [Session.poll, hs.source]
    exact hpoller
  · obtain ⟨i, hlt, l, hget, hl⟩ := hs.waiters w hw
    obtain ⟨l', hget', hl'⟩ :=
      Display.run_spared hget hl fun h hmem => hsparing h hmem i (Nat.zero_le i)
    exact ⟨i, hlt, l', by rw [Display.run_append, hget'], hl'⟩

/-- All waiters have a turn. -/
theorem look (hs : s.Follows heights first limit happenings) :
    Follows { s with waiters := s.waiters.map fun w => w.look s.poller.height } heights first limit
      (happenings ++ (List.range limit).map .turn) := by
  obtain ⟨hsame, hturns⟩ := ((Display.start first).run happenings).run_turns limit
  refine ⟨hs.source, hs.poller.past (polled_turns _) hsame, fun w hw => ?_⟩
  obtain ⟨old, hold, rfl⟩ := List.mem_map.mp hw
  obtain ⟨i, hlt, l, hget, hl⟩ := hs.waiters old hold
  have hminds := (Display.minded_start first).run happenings l (List.mem_of_getElem? hget)
  refine ⟨i, hlt, l.turn s.poller.height, ?_, hl.turn (hs.poller.height ▸ hminds)⟩
  rw [Display.run_append, hturns, hget, Option.map_some, if_pos hlt, hs.poller.height]

/-- Everybody goes on as far as possible. -/
theorem settle (hs : s.Follows heights first limit happenings) :
    ∃ more, Sparing limit more ∧ s.settle.Follows heights first limit (happenings ++ more) := by
  obtain ⟨early, hearly, hpolled⟩ := hs.poll
  obtain ⟨late, hlate, hsettled⟩ := hpolled.look.poll
  refine ⟨early ++ (List.range limit).map .turn ++ late, ?_, ?_⟩
  · exact ((hearly.mono (Nat.zero_le _)).append (sparing_turns limit)).append
      (hlate.mono (Nat.zero_le _))
  · rw [← List.append_assoc, ← List.append_assoc]
    exact hsettled

theorem waitUntil (hs : s.Follows heights first limit happenings) (done : Session → Bool)
    (deadline : Nat) :
    ∃ more, Sparing limit more ∧
      (Session.waitUntil done deadline s).Follows heights first limit (happenings ++ more) := by
  fun_induction Session.waitUntil done deadline s generalizing happenings with
  | case1 s hdone => exact hs.settle
  | case2 s hdone time htime hlt ih =>
    obtain ⟨early, hearly, hsettled⟩ := hs.settle
    obtain ⟨late, hlate, hend⟩ := ih (hsettled.later time)
    exact ⟨early ++ late, hearly.append hlate, by rwa [← List.append_assoc]⟩
  | case3 s hdone time htime hlt =>
    obtain ⟨more, hsparing, hsettled⟩ := hs.settle
    exact ⟨more, hsparing, hsettled.later deadline⟩
  | case4 s hdone htime =>
    obtain ⟨more, hsparing, hsettled⟩ := hs.settle
    exact ⟨more, hsparing, hsettled.later deadline⟩

/-- While a session waits only its waiters and its poller do something. -/
theorem wait (hs : s.Follows heights first limit happenings) (done : Session → Bool)
    (patience : Nat) :
    ∃ more, Sparing limit more ∧
      (s.wait done patience).Follows heights first limit (happenings ++ more) := by
  unfold Session.wait
  split
  · exact ⟨[], sparing_nil limit, by rwa [List.append_nil]⟩
  · exact hs.waitUntil done _

/-- A session that waits for a height is a lookout that comes, has a turn at once and another one
in the end, and leaves. -/
theorem attend (hs : s.Follows heights first limit happenings) (target : UInt64) (patience : Nat) :
    ∃ more limit', (s.step (.wait target patience)).2.Follows heights first limit'
        (happenings ++ more) ∧
      ∃ l ∈ ((Display.start first).run (happenings ++ more)).lookouts, l.target = target ∧
        l.told? = verdict? (s.step (.wait target patience)).2.poller.height target := by
  let n := ((Display.start first).run happenings).lookouts.length
  let done (s : Session) : Bool := (verdict? s.poller.height target).isSome
  have hlater : ∀ i < n, n ≠ i := fun i hi => (Nat.ne_of_lt hi).symm
  have harrive : s.Follows heights first n (happenings ++ [.join target, .turn n]) := by
    refine hs.everybody.unnoticed rfl rfl ?_
    simp only [List.forall_mem_cons]
    exact ⟨fun _ _ => trivial, hlater, nofun⟩
  obtain ⟨l, hget, hl⟩ := ((Display.start first).run happenings).arrive target
  rw [← Display.run_append] at hget
  rw [hs.poller.height] at hl
  -- while it waits, the others go on and leave it alone
  obtain ⟨more, hsparing, hwait⟩ := harrive.wait done patience
  obtain ⟨l, hget, hl⟩ := Display.run_spared hget hl fun h hmem => hsparing h hmem n (Nat.le_refl n)
  rw [← Display.run_append] at hget
  have hdepart : (s.wait done patience).Follows heights first n
      (happenings ++ [.join target, .turn n] ++ more ++ [.turn n, .leave n]) := by
    refine hwait.unnoticed rfl rfl ?_
    simp only [List.forall_mem_cons]
    exact ⟨hlater, hlater, nofun⟩
  obtain ⟨l, hmem, htarget, htold⟩ := ((Display.minded_start first).run _).depart hget hl
  rw [← Display.run_append] at hmem
  refine ⟨[.join target, .turn n] ++ more ++ [.turn n, .leave n], n, ?_, l, ?_, htarget, ?_⟩
  · rw [← List.append_assoc, ← List.append_assoc]
    exact hdepart
  · rw [← List.append_assoc, ← List.append_assoc]
    exact hmem
  · rw [htold, hwait.poller.height]
    show _ = verdict? (s.wait done patience).poller.height target
    -- whoever is told something at once does not wait, so that the height is still the same
    cases hverdict : verdict? s.poller.height target with
    | none => rw [Option.none_or]
    | some verdict =>
      have hstay : s.wait done patience = s := if_pos (.inl (by simp only [done, hverdict]; rfl))
      rw [hstay, Option.some_or, hverdict]

end Follows

/-! ## Steps -/

/-- What is known on a channel on which a height is handed over once. -/
def handedOver : Option Verdict → StepAnswer
  | some (.reached value) => .reached value
  | some .stopped => .closed
  | none => .pending

theorem step_pollWaiter (s : Session) (id : String) (patience : Nat) :
    let after := s.wait (fun s => ((s.waiter? id).bind Waiter.verdict).isSome) patience
    s.step (.pollWaiter id patience) =
      (handedOver ((after.waiter? id).bind Waiter.verdict), after) := by
  intro after
  simp only [Session.step]
  split <;> next hverdict => rw [hverdict, handedOver]

/-- An answer to a step is what those who stand before a display can tell. -/
def Tells (d : Display) (after : Session) : Step → StepAnswer → Prop
  | .current, answer => answer = .height d.height.value
  | .wait target _, answer => ∃ l ∈ d.lookouts, l.target = target ∧
      l.told? = verdict? d.height target ∧ answer = answerOf l.told?
  | .pollWaiter id _, answer => ∀ w, after.waiter? id = some w →
      ∃ l ∈ d.lookouts, l.target = w.target ∧ l.told? = w.verdict ∧ answer = handedOver l.told?
  | .pollWatch _, answer => ∃ isNew, answer = .seen d.height.value isNew
  | _, _ => True

/-- What is seen after a step of a session is a display on which these happenings have followed
its first height. -/
structure Seen (heights : Nat → Node.Timed UInt64) (first : UInt64) (happenings : List Happening)
    (d : Display) (step : Step) (answer : StepAnswer) (after : Session) : Prop where
  height : after.poller.height = d.height
  /-- What was told before the display are the answers of the node, all that were heard so far. -/
  heard : first :: polled happenings = after.poller.heard heights
  waiters : ∀ w ∈ after.waiters, ∃ l ∈ d.lookouts, l.target = w.target ∧ l.told? = w.verdict
  tells : Tells d after step answer

theorem mem_of_waiter? {id : String} {w : Waiter} (hw : s.waiter? id = some w) : w ∈ s.waiters :=
  List.mem_reverse.mp (List.mem_of_find?_eq_some hw)

namespace Follows

theorem mem_lookouts (hs : s.Follows heights first limit happenings) {w : Waiter}
    (hw : w ∈ s.waiters) :
    ∃ l ∈ ((Display.start first).run happenings).lookouts,
      l.target = w.target ∧ l.told? = w.verdict := by
  obtain ⟨i, -, l, hget, hl⟩ := hs.waiters w hw
  exact ⟨l, List.mem_of_getElem? hget, hl.target, hl.told⟩

theorem seen {step : Step} {answer : StepAnswer} (hs : s.Follows heights first limit happenings)
    (htells : Tells ((Display.start first).run happenings) s step answer) :
    Seen heights first happenings ((Display.start first).run happenings) step answer s :=
  ⟨hs.poller.height.symm, hs.poller.heard, fun _ hw => hs.mem_lookouts hw, htells⟩

/-- Somebody begins to wait in the background. -/
theorem join (hs : s.Follows heights first limit happenings) (id : String) (target : UInt64) :
    Follows { s with waiters := s.waiters ++ [⟨id, target, none⟩] } heights first
      (((Display.start first).run happenings).lookouts.length + 1)
      (happenings ++ [.join target]) := by
  refine ⟨hs.source, hs.poller.past rfl rfl, fun w hw => ?_⟩
  rw [Display.run_concat]
  rcases List.mem_append.mp hw with hw | hw
  · obtain ⟨i, hlt, l, hget, hl⟩ := hs.everybody.waiters w hw
    exact ⟨i, Nat.lt_succ_of_lt hlt, l, (List.getElem?_append_left hlt).trans hget, hl⟩
  · rw [List.mem_singleton.mp hw]
    exact ⟨_, Nat.lt_succ_self _, .fresh target, List.getElem?_concat_length, rfl, rfl, nofun⟩

/-- Every step of a session is something that happens before the display. -/
theorem step (hs : s.Follows heights first limit happenings) (step : Step) :
    ∃ more limit', (s.step step).2.Follows heights first limit' (happenings ++ more) ∧
      Tells ((Display.start first).run (happenings ++ more)) (s.step step).2 step
        (s.step step).1 := by
  have hidle {after : Session} {answer : StepAnswer}
      (hafter : after.Follows heights first limit happenings)
      (htells : Tells ((Display.start first).run happenings) after step answer) :
      ∃ more limit', after.Follows heights first limit' (happenings ++ more) ∧
        Tells ((Display.start first).run (happenings ++ more)) after step answer :=
    ⟨[], limit, by rwa [List.append_nil], by rwa [List.append_nil]⟩
  cases step with
  | current => exact hidle hs (by rw [Tells, hs.poller.height]; rfl)
  | sleep ms =>
    obtain ⟨more, -, hwait⟩ := hs.wait (fun _ => false) ms
    exact ⟨more, limit, hwait, trivial⟩
  | cancel => exact hidle ⟨hs.source, hs.poller, hs.waiters⟩ trivial
  | drop => exact hidle ⟨hs.source, hs.poller, hs.waiters⟩ trivial
  | wait target patience =>
    obtain ⟨more, limit', hafter, l, hmem, htarget, htold⟩ := hs.attend target patience
    rw [← hafter.poller.height] at htold
    refine ⟨more, limit', hafter, l, hmem, htarget, htold, ?_⟩
    rw [htold, hafter.poller.height]
    rfl
  | waiter id target => exact ⟨_, _, hs.join id target, trivial⟩
  | pollWaiter id patience =>
    obtain ⟨more, -, hwait⟩ :=
      hs.wait (fun s => ((s.waiter? id).bind Waiter.verdict).isSome) patience
    rw [step_pollWaiter]
    refine ⟨more, limit, hwait, fun w hw => ?_⟩
    obtain ⟨l, hmem, htarget, htold⟩ := hwait.mem_lookouts (mem_of_waiter? hw)
    exact ⟨l, hmem, htarget, htold, by rw [hw, htold, Option.bind_some]⟩
  | watch id => exact hidle ⟨hs.source, hs.poller, hs.waiters⟩ trivial
  | pollWatch id =>
    exact hidle ⟨hs.source, hs.poller, hs.waiters⟩ ⟨_, by rw [hs.poller.height]; rfl⟩

/-- The happenings up to the end of each step, where those up to the end of the first one are put
in front. -/
def courseFrom (happenings : List Happening) (course : Nat → List Happening) :
    Nat → List Happening
  | 0 => happenings
  | i + 1 => course i

/-- A session goes on as a display does, step by step. -/
theorem trail (hs : s.Follows heights first limit happenings) (steps : List Step) :
    ∃ course : Nat → List Happening, (∀ i, happenings <+: course i) ∧
      (∀ i, course i <+: course (i + 1)) ∧
      ∀ (i : Nat) step, steps[i]? = some step → ∃ answer after,
        (s.trail steps)[i]? = some (answer, after) ∧
        Seen heights first (course i) ((Display.start first).run (course i)) step answer after := by
  induction steps generalizing s limit happenings with
  | nil => exact ⟨fun _ => happenings, fun _ => List.prefix_rfl, fun _ => List.prefix_rfl, nofun⟩
  | cons step rest ih =>
    obtain ⟨more, limit', hafter, htells⟩ := hs.step step
    obtain ⟨course, hbegin, hgrow, hseen⟩ := ih hafter
    have hmore : happenings <+: happenings ++ more := List.prefix_append ..
    refine ⟨courseFrom (happenings ++ more) course, ?_, ?_, ?_⟩
    · rintro (- | i)
      · exact hmore
      · exact hmore.trans (hbegin i)
    · rintro (- | i)
      · exact hbegin 0
      · exact hgrow i
    · rintro (- | i) step' hstep
      · obtain rfl : step = step' := Option.some.inj hstep
        exact ⟨_, _, rfl, hafter.seen htells⟩
      · exact hseen i step' hstep

end Follows

theorem follows_start {period : Nat} (hstart : Session.start heights period = .ok s) :
    ∃ first, (heights 0).answer = .ok first ∧ s.Follows heights first 0 [] := by
  unfold Session.start at hstart
  dsimp only at hstart
  split at hstart
  · cases hstart
  · next first hfirst =>
    obtain ⟨rfl⟩ := hstart
    refine ⟨first, hfirst, rfl, ⟨rfl, ?_, nofun, Nat.one_pos, .inr rfl⟩, nofun⟩
    show [first] = [0].filterMap _
    rw [List.filterMap_cons, hfirst]
    rfl

end Session

/-! ## What can be relied on -/

theorem toNat_confirmedAt {block depth : UInt64} (hlt : block.toNat + depth.toNat < UInt64.size) :
    (confirmedAt block depth).toNat = block.toNat + depth.toNat := by
  have hle : block.toNat + depth.toNat ≤ UInt64.size - 1 := Nat.le_pred_of_lt hlt
  rw [confirmedAt, Nat.min_eq_left hle, UInt64.toNat_ofNat_of_lt' hlt]

/-- Whatever happens before a display and in whatever order, the height is the largest that was
told, it never goes down, and everybody who waits is served. A session is seen before such a
display from its start on, and a depth below a block is waited for as the height that lies so far
above it. -/
theorem heights_attended :
    (∀ first happenings, Attended first happenings ((Display.start first).run happenings)) ∧
    (∀ heights period session, Session.start heights period = .ok session →
      ∃ first, (heights 0).answer = .ok first ∧ ∀ steps,
        ∃ course : Nat → List Happening, (∀ i, course i <+: course (i + 1)) ∧
          ∀ (i : Nat) step, steps[i]? = some step → ∃ answer after,
            (session.trail steps)[i]? = some (answer, after) ∧
            Session.Seen heights first (course i) ((Display.start first).run (course i)) step
              answer after) ∧
    ∀ block depth : UInt64, block.toNat + depth.toNat < UInt64.size →
      (confirmedAt block depth).toNat = block.toNat + depth.toNat := by
  refine ⟨Display.attended_run, fun heights period session hstart => ?_, fun _ _ => toNat_confirmedAt⟩
  obtain ⟨first, hfirst, hfollows⟩ := Session.follows_start hstart
  refine ⟨first, hfirst, fun steps => ?_⟩
  obtain ⟨course, -, hgrow, hseen⟩ := hfollows.trail steps
  exact ⟨course, hgrow, hseen⟩

/-- The height moves and ends before the turn of somebody who waits for it, and a session that
sleeps while a height is waited for in the background. -/
theorem heights_attended_race :
    (∃ l, ((Display.start 10).run
        [.join 12, .turn 0, .heard (.ok 12), .ended, .turn 0]).lookouts[0]? = some l ∧
      l.told? = some (.reached 12)) ∧
    ∃ session, Session.start (fun n => ⟨0, .ok (.ofNat (10 + n))⟩) 100 = .ok session ∧
      ∃ happenings after,
        (session.trail [.waiter "a" 11, .sleep 150, .pollWaiter "a" 0])[2]? =
          some (.reached 11, after) ∧
        Session.Seen (fun n => ⟨0, .ok (.ofNat (10 + n))⟩) 10 happenings
          ((Display.start 10).run happenings) (.pollWaiter "a" 0) (.reached 11) after := by
  refine ⟨(heights_attended.1 10 [.join 12, .turn 0, .heard (.ok 12), .ended]).served 0
    ⟨12, some 0, .awake⟩ rfl rfl (by decide), _, rfl, ?_⟩
  obtain ⟨first, hfirst, hcourse⟩ :=
    heights_attended.2.1 (fun n => ⟨0, .ok (.ofNat (10 + n))⟩) 100 _ rfl
  obtain rfl : 10 = first := Except.ok.inj hfirst
  obtain ⟨course, -, hseen⟩ := hcourse [.waiter "a" 11, .sleep 150, .pollWaiter "a" 0]
  obtain ⟨answer, after, htrail, hafter⟩ := hseen 2 _ rfl
  obtain rfl : answer = .reached 11 := by
    have hanswer := congrArg (Option.map Prod.fst) htrail
    refine Option.some.inj (hanswer.symm.trans ?_)
    decide +kernel
  exact ⟨course 2, after, htrail, hafter⟩

end ChainWatch.BlockCounter
