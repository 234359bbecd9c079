import ChainWatch.Proofs.Resubscription.Accounting
import ChainWatch.Resubscription.Upkeep

/-!
# The delivery of notices

A supervisor raises notices, and a dispatcher delivers those that found room in the outbox. `posted`
reads off a run which notices were raised, and how many waited when each of them was. With that,
`notices_dispatched` says of every interleaving of the two what is delivered: exactly the notices
that found room, each once, and in the order in which they were raised. What waits when the
supervisor ends is delivered if the dispatcher has its turns.

A supervisor can raise two notices in a row, an alert and the failure of the attempt that it was
about, and then pauses. With room for two nothing is lost if the dispatcher delivers in each pause
what waits.
-/

namespace ChainWatch.Resubscription

/-! ## What a supervisor raises -/

/-- How many notices may wait in a phase if all of them are delivered in every pause. -/
def Phase.load : Phase → Nat
  | ready => 0
  | subscribing | live | closing => 1
  | pausing _ _ | ended _ => 2

/-- A failure raises one notice at most, and there is room for it in the load of two. -/
theorem Fails.load_le {phase : Phase} {h : Happening} {acts : List Act} {clock pause : Nat}
    (fails : Fails phase h acts clock pause) :
    (acts.filterMap Act.notice?).length ≤ 1 ∧
      phase.load + (acts.filterMap Act.notice?).length ≤ 2 := by
  cases fails with
  | refused => exact ⟨Nat.le_refl 1, Nat.le_refl 2⟩
  | lost => exact ⟨Nat.zero_le 1, Nat.le_succ 1⟩

theorem Phase.load_le (phase : Phase) : phase.load ≤ 2 := by
  cases phase with
  | ready => exact Nat.zero_le 2
  | subscribing => exact Nat.le_succ 1
  | live => exact Nat.le_succ 1
  | closing => exact Nat.le_succ 1
  | pausing length wasTold => exact Nat.le_refl 2
  | ended error => exact Nat.le_refl 2

namespace Supervisor

/-- Is a pause over? -/
def pauseOver (s : Supervisor) (h : Happening) : Bool :=
  s.phase.isPausing && (s.step h).phase = .ready

/-- What is left of the load of a phase in a step: nothing where a pause is over. -/
def carried (s : Supervisor) (h : Happening) : Nat := if s.pauseOver h then 0 else s.phase.load

theorem length_notices_alertActs (s : Supervisor) (time : Nat) :
    ((s.alertActs time ++ [Act.ask]).filterMap Act.notice?).length ≤ 1 := by
  unfold alertActs
  split
  · exact Nat.zero_le 1
  · split
    · exact Nat.le_refl 1
    · exact Nat.zero_le 1

/-- A step adds its acts to the log, with one notice at most, which is in the load of the phase that
it leads to. -/
theorem acts_step (s : Supervisor) (h : Happening) :
    ∃ acts, (s.step h).log = s.log ++ acts ∧ (acts.filterMap Act.notice?).length ≤ 1 ∧
      s.carried h + (acts.filterMap Act.notice?).length ≤ (s.step h).phase.load := by
  have hcarried : s.carried h ≤ s.phase.load := by
    unfold carried
    split
    · exact Nat.zero_le _
    · exact Nat.le_refl _
  have hlog : s.log = s.log ++ [] := (List.append_nil _).symm
  have hcases := s.step_cases h
  generalize hnext : s.step h = next at hcases
  cases hcases with
  | ignored ignores => exact ⟨[], hlog, Nat.zero_le 1, hcarried⟩
  | told => exact ⟨[], hlog, Nat.zero_le 1, hcarried⟩
  | @asked time phase =>
    have hlength := s.length_notices_alertActs time
    refine ⟨s.alertActs time ++ [.ask], rfl, hlength, ?_⟩
    rw [phase] at hcarried
    exact Nat.add_le_add hcarried hlength
  | established phase =>
    rw [phase] at hcarried
    exact ⟨[], hlog, Nat.zero_le 1, hcarried⟩
  | @paused h acts clock pause fails allowed =>
    refine ⟨acts ++ [Act.count .resubscription], List.append_assoc s.log acts _, ?_⟩
    rw [List.filterMap_append]
    show (_ ++ []).length ≤ 1 ∧ _ + (_ ++ []).length ≤ 2
    rw [List.append_nil]
    exact ⟨fails.load_le.1, Nat.le_trans (Nat.add_le_add_right hcarried _) fails.load_le.2⟩
  | @gaveUp h acts clock pause fails exceeded =>
    exact ⟨acts, rfl, fails.load_le.1,
      Nat.le_trans (Nat.add_le_add_right hcarried _) fails.load_le.2⟩
  | rested phase free =>
    -- this is the end of a pause
    have hover : s.carried .rested = 0 := by
      unfold carried pauseOver
      rw [hnext, phase]
      rfl
    exact ⟨[], hlog, Nat.zero_le 1, Nat.le_of_eq hover⟩
  | stopped told phase => exact ⟨[], hlog, Nat.zero_le 1, Nat.le_trans hcarried s.phase.load_le⟩
  | unsubscribed told phase =>
    rw [phase] at hcarried
    exact ⟨[.unsubscribe], rfl, Nat.zero_le 1, hcarried⟩
  | closed phase => exact ⟨[], hlog, Nat.zero_le 1, Nat.le_trans hcarried s.phase.load_le⟩

/-- A step raises one notice at most, which is in the load of the phase that it leads to. -/
theorem raises_step (s : Supervisor) (h : Happening) :
    (s.step h).notices = s.notices ++ s.raises h ∧ (s.raises h).length ≤ 1 ∧
      s.carried h + (s.raises h).length ≤ (s.step h).phase.load := by
  obtain ⟨acts, hlog, hlength, hload⟩ := s.acts_step h
  have hnotices := notices_of_log hlog
  have hraises : s.raises h = acts.filterMap Act.notice? := by
    rw [raises, hnotices, List.drop_left]
  rw [hraises]
  exact ⟨hnotices, hlength, hload⟩

end Supervisor

/-! ## What waits and what is delivered -/

namespace Outbox

theorem post_of_room {o : Outbox} (n : Notice) (room : o.waiting.length < o.capacity) :
    o.post n = { o with waiting := o.waiting ++ [n] } := if_pos room

theorem post_of_full {o : Outbox} (n : Notice) (full : ¬ o.waiting.length < o.capacity) :
    o.post n = o := if_neg full

/-- The dispatcher takes nothing away: what it delivers next was waiting first. -/
theorem deliver_append (o : Outbox) :
    o.deliver.delivered ++ o.deliver.waiting = o.delivered ++ o.waiting := by
  unfold deliver
  split
  next => rfl
  next n rest heq => rw [heq, List.append_assoc]; rfl

theorem deliver_take_drop (o : Outbox) (n : Nat) :
    o.deliver.delivered ++ o.deliver.waiting.take n = o.delivered ++ o.waiting.take (n + 1) ∧
      o.deliver.waiting.drop n = o.waiting.drop (n + 1) := by
  unfold deliver
  split
  next heq => simp [heq]
  next first rest heq => simp [heq]

theorem length_waiting_deliver (o : Outbox) : o.deliver.waiting.length = o.waiting.length - 1 := by
  unfold deliver
  split
  next heq => rw [heq]; rfl
  next n rest heq => rw [heq]; rfl

theorem length_waiting_post_le (o : Outbox) (n : Notice) :
    (o.post n).waiting.length ≤ o.waiting.length + 1 := by
  unfold post
  split
  · exact Nat.le_of_eq List.length_append
  · exact Nat.le_succ _

theorem length_waiting_foldl_post_le (o : Outbox) (notices : List Notice) :
    (notices.foldl post o).waiting.length ≤ o.waiting.length + notices.length := by
  induction notices generalizing o with
  | nil => exact Nat.le_refl _
  | cons n rest ih =>
    have hfirst := o.length_waiting_post_le n
    have hrest := ih (o.post n)
    rw [List.foldl_cons, List.length_cons]
    omega

theorem capacity_deliver (o : Outbox) : o.deliver.capacity = o.capacity := by
  unfold deliver
  split <;> rfl

end Outbox

namespace Upkeep

variable {u : Upkeep}

/-- The notices that are raised in a move, each with the number of those that wait then. -/
def raised (u : Upkeep) : Move → List (Notice × Nat)
  | .happen h => (u.supervisor.raises h).map fun n => (n, u.outbox.waiting.length)
  | .deliver | .look | .giveUp => []

/-- The notices that are raised in a run, each with the number of those that waited then. -/
def posted (u : Upkeep) : List Move → List (Notice × Nat)
  | [] => []
  | move :: rest => u.raised move ++ (u.step move).posted rest

/-- The notices are dispatched as they were posted where there is room for so many. -/
structure Dispatched (u : Upkeep) (posted : List (Notice × Nat)) (room : Nat) : Prop where
  /-- These are all notices. -/
  raised : posted.map Prod.fst = u.supervisor.notices
  /-- Those that found room, and no others, were delivered or wait, in the order of posting. -/
  kept : u.outbox.delivered ++ u.outbox.waiting
    = (posted.filter fun entry => entry.2 < room).map Prod.fst
  /-- The others found the outbox full. -/
  full : ∀ entry ∈ posted, entry.2 ≤ room

/-- The notices are dispatched as they were posted, and the outbox has the room it ought to have. -/
structure Keeps (u : Upkeep) (posted : List (Notice × Nat)) (room : Nat) : Prop
    extends Dispatched u posted room where
  capacity : u.outbox.capacity = room
  bound : u.outbox.waiting.length ≤ room

variable {posted : List (Notice × Nat)} {room : Nat}

theorem keeps_start (policy : Policy) (clock : Nat) :
    (start policy clock).Keeps [] policy.room where
  raised := rfl
  kept := rfl
  full := nofun
  capacity := rfl
  bound := Nat.zero_le _

/-- Without a new notice everything stays as posted, also if some of it is delivered. -/
theorem Keeps.still {next : Upkeep} (keeps : u.Keeps posted room)
    (notices : next.supervisor.notices = u.supervisor.notices)
    (same : next.outbox.delivered ++ next.outbox.waiting = u.outbox.delivered ++ u.outbox.waiting)
    (capacity : next.outbox.capacity = u.outbox.capacity)
    (fewer : next.outbox.waiting.length ≤ u.outbox.waiting.length) : next.Keeps posted room where
  raised := keeps.raised.trans notices.symm
  kept := same.trans keeps.kept
  full := keeps.full
  capacity := capacity.trans keeps.capacity
  bound := Nat.le_trans fewer keeps.bound

/-- A new notice waits if there is room for it, and is dropped if not. -/
theorem Keeps.post {next : Upkeep} (keeps : u.Keeps posted room) (n : Notice)
    (notices : next.supervisor.notices = u.supervisor.notices ++ [n])
    (outbox : next.outbox = u.outbox.post n) :
    next.Keeps (posted ++ [(n, u.outbox.waiting.length)]) room := by
  have hraised : (posted ++ [(n, u.outbox.waiting.length)]).map Prod.fst = next.supervisor.notices := by
    rw [List.map_append, keeps.raised, notices]
    rfl
  have hfull : ∀ entry ∈ posted ++ [(n, u.outbox.waiting.length)], entry.2 ≤ room := by
    intro entry hmem
    rcases List.mem_append.mp hmem with hmem | hmem
    · exact keeps.full entry hmem
    · rw [List.mem_singleton.mp hmem]
      exact keeps.bound
  by_cases hroom : u.outbox.waiting.length < room
  · have hpost : next.outbox = { u.outbox with waiting := u.outbox.waiting ++ [n] } := by
      rw [outbox, Outbox.post_of_room n (keeps.capacity ▸ hroom)]
    refine { raised := hraised, kept := ?_, full := hfull, capacity := ?_, bound := ?_ }
    · rw [hpost, List.filter_append, List.map_append, ← keeps.kept]
      simp [hroom]
    · rw [hpost]
      exact keeps.capacity
    · rw [hpost, List.length_append]
      exact hroom
  · have hpost : next.outbox = u.outbox := by
      rw [outbox, Outbox.post_of_full n (keeps.capacity ▸ hroom)]
    refine { raised := hraised, kept := ?_, full := hfull, capacity := ?_, bound := ?_ }
    · rw [hpost, List.filter_append, List.map_append, ← keeps.kept]
      simp [hroom]
    · rw [hpost]
      exact keeps.capacity
    · rw [hpost]
      exact keeps.bound

/-- One move keeps the notices dispatched, once those that it raises are posted. -/
theorem Keeps.step (keeps : u.Keeps posted room) (move : Move) :
    (u.step move).Keeps (posted ++ u.raised move) room := by
  cases move with
  | happen h =>
    obtain ⟨hnotices, hlength, -⟩ := u.supervisor.raises_step h
    cases hraises : u.supervisor.raises h with
    | nil =>
      rw [hraises, List.append_nil] at hnotices
      have houtbox : (u.step (.happen h)).outbox = u.outbox := by
        show (u.supervisor.raises h).foldl Outbox.post u.outbox = _
        rw [hraises, List.foldl_nil]
      rw [raised, hraises, List.map_nil, List.append_nil]
      exact keeps.still hnotices (by rw [houtbox]) (by rw [houtbox]) (Nat.le_of_eq (by rw [houtbox]))
    | cons n rest =>
      have hrest : rest = [] := by
        rw [hraises] at hlength
        exact List.eq_nil_of_length_eq_zero (Nat.le_zero.mp (Nat.le_of_succ_le_succ hlength))
      rw [hrest] at hraises
      rw [hraises] at hnotices
      rw [raised, hraises]
      refine keeps.post n hnotices ?_
      show (u.supervisor.raises h).foldl Outbox.post u.outbox = _
      rw [hraises]
      rfl
  | deliver =>
    rw [raised, List.append_nil]
    refine keeps.still rfl u.outbox.deliver_append u.outbox.capacity_deliver ?_
    show u.outbox.deliver.waiting.length ≤ _
    rw [Outbox.length_waiting_deliver]
    exact Nat.sub_le _ 1
  | look =>
    rw [raised, List.append_nil]
    exact keeps.still rfl rfl rfl (Nat.le_refl _)
  | giveUp =>
    rw [raised, List.append_nil]
    exact keeps.still rfl rfl rfl (Nat.le_refl _)

theorem run_cons (u : Upkeep) (move : Move) (rest : List Move) :
    u.run (move :: rest) = (u.step move).run rest := rfl

theorem run_append (u : Upkeep) (before after : List Move) :
    u.run (before ++ after) = (u.run before).run after := List.foldl_append

theorem Keeps.run (keeps : u.Keeps posted room) (moves : List Move) :
    (u.run moves).Keeps (posted ++ u.posted moves) room := by
  induction moves generalizing u posted with
  | nil =>
    rw [Upkeep.posted, List.append_nil]
    exact keeps
  | cons move rest ih =>
    rw [run_cons, Upkeep.posted, ← List.append_assoc]
    exact ih (keeps.step move)

/-! ## Room for two -/

/-- Does a move end a pause? -/
def endsPause (u : Upkeep) : Move → Bool
  | .happen h => u.supervisor.pauseOver h
  | .deliver | .look | .giveUp => false

/-- Whenever a pause is over, the dispatcher has delivered all that waited. -/
def DrainsPauses (u : Upkeep) : List Move → Prop
  | [] => True
  | move :: rest =>
    (u.endsPause move = true → u.outbox.waiting = []) ∧ (u.step move).DrainsPauses rest

instance DrainsPauses.instDecidable : (u : Upkeep) → (moves : List Move) →
    Decidable (u.DrainsPauses moves)
  | _, [] => inferInstanceAs (Decidable True)
  | u, move :: rest =>
    have := instDecidable (u.step move) rest
    inferInstanceAs (Decidable (_ ∧ _))

/-- No more notices wait than the load of the phase, and whoever is raised finds less than two. -/
theorem light_step (light : u.outbox.waiting.length ≤ u.supervisor.phase.load) (move : Move)
    (drained : u.endsPause move = true → u.outbox.waiting = []) :
    (u.step move).outbox.waiting.length ≤ (u.step move).supervisor.phase.load ∧
      ∀ entry ∈ u.raised move, entry.2 < 2 := by
  cases move with
  | happen h =>
    obtain ⟨-, -, hload⟩ := u.supervisor.raises_step h
    have hcarried : u.outbox.waiting.length ≤ u.supervisor.carried h := by
      unfold Supervisor.carried
      split
      next ends => rw [drained ends]; exact Nat.le_refl 0
      next => exact light
    constructor
    · have hpost := u.outbox.length_waiting_foldl_post_le (u.supervisor.raises h)
      show ((u.supervisor.raises h).foldl Outbox.post u.outbox).waiting.length
        ≤ (u.supervisor.step h).phase.load
      omega
    · intro entry hmem
      obtain ⟨n, hn, rfl⟩ := List.mem_map.mp hmem
      have hpos : 0 < (u.supervisor.raises h).length := List.length_pos_of_mem hn
      have hmost := (u.supervisor.step h).phase.load_le
      show u.outbox.waiting.length < 2
      omega
  | deliver =>
    refine ⟨?_, nofun⟩
    show u.outbox.deliver.waiting.length ≤ u.supervisor.phase.load
    rw [Outbox.length_waiting_deliver]
    omega
  | look => exact ⟨light, nofun⟩
  | giveUp => exact ⟨light, nofun⟩

theorem light_run {moves : List Move} (light : u.outbox.waiting.length ≤ u.supervisor.phase.load)
    (drained : u.DrainsPauses moves) : ∀ entry ∈ u.posted moves, entry.2 < 2 := by
  induction moves generalizing u with
  | nil => nofun
  | cons move rest ih =>
    obtain ⟨hmove, hrest⟩ := drained
    obtain ⟨hlight, hraised⟩ := light_step light move hmove
    intro entry hmem
    rcases List.mem_append.mp hmem with hmem | hmem
    · exact hraised entry hmem
    · exact ih hlight hrest entry hmem

/-! ## After the end -/

/-- A supervisor that has ended raises nothing more. -/
theorem raises_of_ended {s : Supervisor} {error : Option ChainError} (ended : s.phase = .ended error)
    (h : Happening) : s.raises h = [] := by
  obtain ⟨-, -, hload⟩ := s.raises_step h
  have hphase := Supervisor.phase_step_of_ended ended h
  have hcarried : s.carried h = 2 := by
    unfold Supervisor.carried Supervisor.pauseOver
    rw [ended]
    rfl
  rw [hphase, hcarried] at hload
  exact List.eq_nil_of_length_eq_zero (Nat.le_zero.mp (Nat.add_le_add_iff_left.mp hload))

/-- After the end of the supervisor every turn of the dispatcher delivers a notice, as long as there
are some, and nothing else touches them. -/
theorem outbox_run_of_ended {error : Option ChainError} (ended : u.supervisor.phase = .ended error)
    (moves : List Move) :
    (u.run moves).outbox.delivered
        = u.outbox.delivered ++ u.outbox.waiting.take (moves.count .deliver) ∧
      (u.run moves).outbox.waiting = u.outbox.waiting.drop (moves.count .deliver) := by
  induction moves generalizing u with
  | nil => exact ⟨(List.append_nil _).symm, rfl⟩
  | cons move rest ih =>
    rw [run_cons]
    cases move with
    | happen h =>
      have houtbox : (u.step (.happen h)).outbox = u.outbox := by
        show (u.supervisor.raises h).foldl Outbox.post u.outbox = _
        rw [raises_of_ended ended, List.foldl_nil]
      have hrest := ih (u := u.step (.happen h)) (Supervisor.phase_step_of_ended ended h)
      rwa [houtbox] at hrest
    | deliver =>
      obtain ⟨hdelivered, hwaiting⟩ := ih (u := u.step .deliver) ended
      rw [hdelivered, hwaiting, List.count_cons_self]
      exact u.outbox.deliver_take_drop (rest.count .deliver)
    | look => exact ih (u := u.step .look) ended
    | giveUp => exact ih (u := u.step .giveUp) ended

/-! ## The dispatcher's work -/

theorem keeps_run (policy : Policy) (clock : Nat) (moves : List Move) :
    ((start policy clock).run moves).Keeps ((start policy clock).posted moves) policy.room :=
  (keeps_start policy clock).run moves

/-- What is delivered was raised, in this order. -/
theorem delivered_sublist (policy : Policy) (clock : Nat) (moves : List Move) :
    ((start policy clock).run moves).outbox.delivered.Sublist
      ((start policy clock).run moves).supervisor.notices := by
  have hkeeps := keeps_run policy clock moves
  have hkept := List.sublist_append_left ((start policy clock).run moves).outbox.delivered
    ((start policy clock).run moves).outbox.waiting
  rw [hkeeps.kept] at hkept
  rw [← hkeeps.raised]
  exact hkept.trans (List.filter_sublist.map Prod.fst)

/-- With room for two nothing is dropped if every pause leaves the time to deliver what waits. -/
theorem nothing_dropped {policy : Policy} {clock : Nat} {moves : List Move}
    (capacity : 2 ≤ policy.capacity) (drained : (start policy clock).DrainsPauses moves) :
    ((start policy clock).run moves).outbox.delivered
        ++ ((start policy clock).run moves).outbox.waiting
      = ((start policy clock).run moves).supervisor.notices := by
  have hkeeps := keeps_run policy clock moves
  have hlight := light_run (u := start policy clock) (Nat.le_refl 0) drained
  have hroom : 2 ≤ policy.room := Nat.le_trans capacity (Nat.le_max_left _ _)
  rw [hkeeps.kept, ← hkeeps.raised, List.filter_eq_self.mpr]
  intro entry hmem
  exact decide_eq_true (Nat.lt_of_lt_of_le (hlight entry hmem) hroom)

/-- However the supervisor and the dispatcher take turns: the notices that found room in the outbox
were delivered or wait, each once and in the order in which they were raised; those that were
dropped found it full. When the supervisor has ended, what waits is delivered in the turns that the
dispatcher takes. And with room for two, nothing is dropped if every pause leaves the dispatcher the
time to deliver what waits. -/
theorem notices_dispatched (policy : Policy) (clock : Nat) (moves : List Move) :
    Dispatched ((start policy clock).run moves) ((start policy clock).posted moves) policy.room ∧
    ((start policy clock).run moves).outbox.delivered.Sublist
      ((start policy clock).run moves).supervisor.notices ∧
    (∀ error more, ((start policy clock).run moves).supervisor.phase = .ended error →
      ((start policy clock).run moves).outbox.waiting.length ≤ more.count .deliver →
        ((start policy clock).run (moves ++ more)).outbox.delivered
          = ((start policy clock).run moves).outbox.delivered
            ++ ((start policy clock).run moves).outbox.waiting ∧
        ((start policy clock).run (moves ++ more)).outbox.waiting = []) ∧
    (2 ≤ policy.capacity → (start policy clock).DrainsPauses moves →
      ((start policy clock).run moves).outbox.delivered
          ++ ((start policy clock).run moves).outbox.waiting
        = ((start policy clock).run moves).supervisor.notices) := by
  refine ⟨(keeps_run policy clock moves).toDispatched, delivered_sublist policy clock moves, ?_,
    nothing_dropped⟩
  intro error more ended enough
  obtain ⟨hdelivered, hwaiting⟩ := outbox_run_of_ended ended more
  rw [run_append, hdelivered, hwaiting, List.take_of_length_le enough]
  exact ⟨rfl, List.drop_of_length_le enough⟩

/-- An alert and a failure in a row, with room for both. -/
theorem notices_dispatched_room_for_two :
    ((start ((Policy.of 100 15).withCapacity 2) 0).run
        [.happen (.turn 0), .happen (.refused .subscriptionClosed 0 10), .deliver, .happen .rested,
          .happen (.turn 10), .happen (.refused .subscriptionClosed 10 20), .deliver, .deliver,
          .happen .rested]).outbox.delivered
      = [.failure .subscriptionClosed, .alert 10, .failure .subscriptionClosed] := by
  have hdispatched := notices_dispatched ((Policy.of 100 15).withCapacity 2) 0
    [.happen (.turn 0), .happen (.refused .subscriptionClosed 0 10), .deliver, .happen .rested,
      .happen (.turn 10), .happen (.refused .subscriptionClosed 10 20), .deliver, .deliver,
      .happen .rested]
  have hkept := hdispatched.2.2.2 (by decide) (by decide)
  exact ((List.append_nil _).symm.trans hkept).trans (by decide)

/-- With room for one the failure after the alert is dropped. -/
example : ((start ((Policy.of 100 15).withCapacity 1) 0).run
    [.happen (.turn 0), .happen (.refused .subscriptionClosed 0 10), .deliver, .happen .rested,
      .happen (.turn 10), .happen (.refused .subscriptionClosed 10 20), .deliver, .deliver,
      .happen .rested]).outbox.delivered
    = [.failure .subscriptionClosed, .alert 10] := by decide

end Upkeep

end ChainWatch.Resubscription
