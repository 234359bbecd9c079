import ChainWatch.Proofs.Resubscription.Stopping
import ChainWatch.Resubscription.Run

/-!
# Runs as upkeep

A run is one of the ways in which the upkeep of a subscription can go: all that happens in it to the
supervisor are moves of the upkeep, and the dispatcher has a turn for each notice that waits
whenever the supervisor waits (`upkeep_whole`). So what holds of every upkeep holds of runs:
`delivered_whole` and `error?_whole` say it of the notices that are delivered in a run, and of the
error that it ends with.
-/

namespace ChainWatch.Resubscription

/-! ## Pauses with a length -/

namespace Supervisor

/-- The pauses of a supervisor have a length, now and later, as long as they are as long as their
intervals. -/
structure Unhurried (s : Supervisor) : Prop where
  /-- The first interval is a tenth of this. -/
  longest : 10 ≤ s.policy.backoffMax
  interval : 0 < s.backoff.interval
  pause : ∀ length wasTold, s.phase = .pausing length wasTold → 0 < length

variable {s : Supervisor} {h : Happening}

theorem interval_start_pos {policy : Policy} (longest : 10 ≤ policy.backoffMax) (clock : Nat) :
    0 < (Backoff.start policy clock).interval := Nat.div_pos longest (by decide)

theorem unhurried_start {policy : Policy} (longest : 10 ≤ policy.backoffMax) (clock : Nat) :
    (start policy clock).Unhurried := ⟨longest, interval_start_pos longest clock, nofun⟩

theorem Unhurried.step (unhurried : s.Unhurried) (takesTime : h.takesTime = true) :
    (s.step h).Unhurried := by
  obtain ⟨hlongest, hinterval, hpause⟩ := unhurried
  have hcases := s.step_cases h
  generalize s.step h = next at hcases
  cases hcases with
  | ignored ignores => exact ⟨hlongest, hinterval, hpause⟩
  | told => exact ⟨hlongest, hinterval, hpause⟩
  | asked phase => exact ⟨hlongest, hinterval, nofun⟩
  | established phase => exact ⟨hlongest, interval_start_pos hlongest _, nofun⟩
  | paused fails allowed =>
    rw [fails.spare.2.2.1] at takesTime
    have hgrown : 0 < (s.backoff.grow s.policy).interval :=
      Nat.lt_min.mpr ⟨Nat.mul_pos Nat.two_pos hinterval, Nat.lt_of_lt_of_le (by decide) hlongest⟩
    refine ⟨hlongest, hgrown, ?_⟩
    intro length wasTold phase
    obtain ⟨rfl, -⟩ := Phase.pausing.inj phase
    exact of_decide_eq_true takesTime
  | gaveUp fails exceeded => exact ⟨hlongest, hinterval, nofun⟩
  | rested phase free => exact ⟨hlongest, hinterval, nofun⟩
  | stopped told phase => exact ⟨hlongest, hinterval, nofun⟩
  | unsubscribed told phase => exact ⟨hlongest, hinterval, nofun⟩
  | closed phase => exact ⟨hlongest, hinterval, nofun⟩

/-- Nothing but the end of the pause ends a pause. -/
theorem pauseOver_eq_false (other : h ≠ .rested) : s.pauseOver h = false := by
  have hsame : (s.phase.isPausing && decide (s.phase = .ready)) = false := by
    cases s.phase <;> rfl
  unfold pauseOver
  have hcases := s.step_cases h
  generalize s.step h = next at hcases
  cases hcases with
  | ignored ignores => exact hsame
  | told => exact hsame
  | rested phase free => exact absurd rfl other
  | asked phase => rw [phase]; rfl
  | established phase => exact Bool.and_false _
  | paused fails allowed => exact Bool.and_false _
  | gaveUp fails exceeded => exact Bool.and_false _
  | stopped told phase => exact Bool.and_false _
  | unsubscribed told phase => exact Bool.and_false _
  | closed phase => exact Bool.and_false _

theorem raises_told (s : Supervisor) : s.raises .told = [] := List.drop_length

theorem notices_heed (s : Supervisor) : s.heed.notices = s.notices := by
  unfold heed
  split
  · rfl
  · rfl
  · have hlog : (s.act [.unsubscribe]).notices
        = s.notices ++ [Act.unsubscribe].filterMap Act.notice? := notices_of_log rfl
    exact hlog.trans (List.append_nil _)
  · rfl

/-- To heed that one was told to stop is nothing that a notice is about. -/
theorem raises_heeded (s : Supervisor) : s.raises .heeded = [] := by
  have hnotices : (s.step .heeded).notices = s.notices := by
    show (if s.told then s.heed else s).notices = _
    split
    · exact s.notices_heed
    · rfl
  rw [raises, hnotices, List.drop_length]

end Supervisor

/-! ## Turns of the dispatcher -/

namespace Upkeep

variable {u : Upkeep}

theorem drainsPauses_append {before after : List Move} (first : u.DrainsPauses before)
    (second : (u.run before).DrainsPauses after) : u.DrainsPauses (before ++ after) := by
  induction before generalizing u with
  | nil => exact second
  | cons move rest ih => exact ⟨first.1, ih first.2 second⟩

/-- The dispatcher has a turn for each notice that waits. -/
theorem run_deliver (u : Upkeep) :
    u.run (List.replicate u.outbox.waiting.length .deliver) = { u with outbox := u.outbox.drain } ∧
      u.DrainsPauses (List.replicate u.outbox.waiting.length .deliver) := by
  obtain ⟨supervisor, ⟨capacity, waiting, delivered⟩, holder⟩ := u
  induction waiting generalizing delivered with
  | nil =>
    refine ⟨?_, trivial⟩
    simp [run, Outbox.drain]
  | cons n rest ih =>
    obtain ⟨hrun, hdrains⟩ := ih (delivered ++ [n])
    refine ⟨hrun.trans ?_, nofun, hdrains⟩
    simp [Outbox.drain]

end Upkeep

/-! ## Runs -/

namespace Run

/-- The upkeep that a run is, where somebody holds the handle. -/
def upkeep (r : Run) (holder : Subscription.Holder) : Upkeep := ⟨r.supervisor, r.outbox, holder⟩

/-- A run gets from one moment to another by moves of the upkeep. If its pauses have a length the
dispatcher has the time in each of them to deliver what waits. -/
def Leads (r next : Run) : Prop :=
  ∀ holder, ∃ moves holder', (r.upkeep holder).run moves = next.upkeep holder' ∧
    (r.supervisor.Unhurried →
      next.supervisor.Unhurried ∧ (r.upkeep holder).DrainsPauses moves)

variable {r middle next : Run}

theorem Leads.refl (r : Run) : r.Leads r := fun holder =>
  ⟨[], holder, rfl, fun unhurried => ⟨unhurried, trivial⟩⟩

theorem Leads.trans (first : r.Leads middle) (second : middle.Leads next) : r.Leads next := by
  intro holder
  obtain ⟨before, holder₁, hbefore, hfirst⟩ := first holder
  obtain ⟨after, holder₂, hafter, hsecond⟩ := second holder₁
  refine ⟨before ++ after, holder₂, ?_, fun unhurried => ?_⟩
  · rw [Upkeep.run_append, hbefore, hafter]
  · obtain ⟨hmiddle, hdrains⟩ := hfirst unhurried
    obtain ⟨hnext, hmore⟩ := hsecond hmiddle
    exact ⟨hnext, Upkeep.drainsPauses_append hdrains (hbefore ▸ hmore)⟩

/-- What else changes in a run, the time among it, is nothing to the upkeep. -/
theorem Leads.still (leads : r.Leads middle) (supervisor : next.supervisor = middle.supervisor)
    (outbox : next.outbox = middle.outbox) : r.Leads next := by
  intro holder
  obtain ⟨moves, holder', hrun, hdrains⟩ := leads holder
  refine ⟨moves, holder', ?_, ?_⟩
  · rw [hrun, upkeep, upkeep, supervisor, outbox]
  · rw [supervisor]
    exact hdrains

/-- Something happens to the supervisor. -/
theorem leads_meet (r : Run) (h : Happening)
    (takesTime : r.supervisor.Unhurried → h.takesTime = true)
    (drained : r.supervisor.Unhurried → r.supervisor.pauseOver h = true → r.outbox.waiting = []) :
    r.Leads (r.meet h) := fun holder =>
  ⟨[.happen h], holder.run (Upkeep.seen h (r.supervisor.step h).phase), rfl,
    fun unhurried => ⟨unhurried.step (takesTime unhurried), drained unhurried, trivial⟩⟩

/-- Something happens to the supervisor that is not the end of a pause. -/
theorem leads_meet_other (r : Run) {h : Happening} (other : h ≠ .rested)
    (takesTime : r.supervisor.Unhurried → h.takesTime = true) : r.Leads (r.meet h) := by
  refine r.leads_meet h takesTime fun _ ends => ?_
  rw [Supervisor.pauseOver_eq_false other] at ends
  cases ends

/-- The dispatcher delivers what waits. -/
theorem leads_drain (r : Run) : r.Leads { r with outbox := r.outbox.drain } := fun holder =>
  ⟨List.replicate r.outbox.waiting.length .deliver, holder, (r.upkeep holder).run_deliver.1,
    fun unhurried => ⟨unhurried, (r.upkeep holder).run_deliver.2⟩⟩

theorem leads_tell (r : Run) : r.Leads r.tell := by
  have htold : r.Leads (r.meet .told) := r.leads_meet_other (by simp) fun _ => rfl
  have hheeded : (r.meet .told).Leads ((r.meet .told).meet .heeded) :=
    leads_meet_other _ (by simp) fun _ => rfl
  exact (htold.trans hheeded).still rfl rfl

theorem outbox_tell (r : Run) : r.tell.outbox = r.outbox := by
  show (((r.supervisor.step .told).raises .heeded).foldl Outbox.post
    ((r.supervisor.raises .told).foldl Outbox.post r.outbox)) = _
  rw [Supervisor.raises_heeded, Supervisor.raises_told]
  rfl

theorem leads_sleep (r : Run) (length : Nat) : r.Leads (r.sleep length) := by
  unfold sleep
  split
  · exact .refl r
  · dsimp only
    split
    · exact r.leads_drain.trans (leads_tell _)
    · exact r.leads_drain.still rfl rfl

/-- Where there is something to sleep for, all that waited is delivered. -/
theorem waiting_sleep (r : Run) {length : Nat} (pos : 0 < length) :
    (r.sleep length).outbox.waiting = [] := by
  unfold sleep
  rw [if_neg (Nat.ne_of_gt pos)]
  dsimp only
  split
  · rw [outbox_tell]
    rfl
  · rfl

/-- A pause and its end, if there is one. -/
theorem leads_rest (r : Run) : r.Leads r.rest := by
  unfold rest
  split
  next length wasTold phase =>
    by_cases hpos : 0 < length
    · exact (r.leads_sleep length).trans
        (leads_meet _ .rested (fun _ => rfl) fun _ _ => r.waiting_sleep hpos)
    · -- no time is spent, and the supervisor is not one that takes its time
      have hsame : r.sleep length = r := if_pos (Nat.eq_zero_of_not_pos hpos)
      rw [hsame]
      exact r.leads_meet .rested (fun _ => rfl)
        fun unhurried => absurd (unhurried.pause length wasTold phase) hpos
  next => exact .refl r

/-- The subscription is up until it ends or the supervisor is told to stop. -/
theorem leads_liveThrough (r : Run) (body : Subscription.Body) : r.Leads (r.liveThrough body) := by
  have hclosed : ∀ r : Run, r.Leads (r.tell.meet .closed) := fun r =>
    r.leads_tell.trans (leads_meet_other _ (by simp) fun _ => rfl)
  unfold liveThrough
  extract_lets drained body
  refine r.leads_drain.trans ?_
  split
  next finish ends =>
    split
    · exact hclosed drained
    · -- the subscription is up until then
      have hlived : drained.Leads { drained with now := finish } := (Leads.refl drained).still rfl rfl
      exact hlived.trans
        (leads_meet_other _ (by simp) fun unhurried => decide_eq_true unhurried.interval)
  next =>
    split
    · exact (hclosed drained).still rfl rfl
    · exact .refl drained

theorem leads_aim (r : Run) (stop : Option Stop) (number : Nat) :
    r.Leads (r.aim stop number) := by
  unfold aim
  split
  · split
    · exact (Leads.refl r).still rfl rfl
    · exact .refl r
  · exact .refl r

theorem leads_answer (r : Run) (result : Except ChainError Subscription.Body) :
    r.Leads (r.answer result) := by
  unfold answer
  split
  · exact r.leads_meet_other (by simp) fun unhurried => decide_eq_true unhurried.interval
  · have hup : r.Leads (r.meet (.established r.clock)) := r.leads_meet_other (by simp) fun _ => rfl
    exact hup.trans (leads_liveThrough _ _)
  · exact .refl r

theorem leads_attempt (r : Run) (stop : Option Stop) (number : Nat) (a : Attempt) :
    r.Leads (r.attempt stop number a) := by
  have hturned : r.Leads (r.meet (.turn r.now)) := r.leads_meet_other (by simp) fun _ => rfl
  unfold attempt
  exact hturned.trans ((leads_aim _ stop number).trans
    ((leads_sleep _ _).trans ((leads_answer _ a.result).trans (leads_rest _))))

theorem leads_attempts (stop : Option Stop) (number : Nat) (list : List Attempt) (r : Run) :
    r.Leads (attempts stop number list r) := by
  induction list generalizing number r with
  | nil => exact .refl r
  | cons a rest ih =>
    unfold attempts
    split
    · exact (r.leads_attempt stop number a).trans (ih _ _)
    · exact .refl r

/-- Every run is an upkeep. If the longest interval is no shorter than ten nanoseconds, so that no
pause is without a length, the dispatcher has the time in every pause to deliver what waits. -/
theorem upkeep_whole (policy : Policy) (stop : Option Stop) (list : List Attempt) :
    ∃ moves holder, (Upkeep.start policy 0).run moves = (whole policy stop list).upkeep holder ∧
      (10 ≤ policy.backoffMax → (Upkeep.start policy 0).DrainsPauses moves) := by
  have hleads : (start policy).Leads (whole policy stop list) :=
    (leads_attempts stop 1 _ (start policy)).trans (leads_drain _)
  obtain ⟨moves, holder, hrun, hdrains⟩ := hleads .start
  exact ⟨moves, holder, hrun, fun longest => (hdrains (Supervisor.unhurried_start longest 0)).2⟩

/-- What is delivered in a run was raised in it, in this order; and with room for two, and pauses that
have a length, nothing that was raised is missing. -/
theorem delivered_whole (policy : Policy) (stop : Option Stop) (list : List Attempt) :
    (whole policy stop list).outbox.delivered.Sublist (whole policy stop list).supervisor.notices ∧
    (10 ≤ policy.backoffMax → 2 ≤ policy.capacity →
      (whole policy stop list).outbox.delivered = (whole policy stop list).supervisor.notices) := by
  obtain ⟨moves, holder, hrun, hdrains⟩ := upkeep_whole policy stop list
  constructor
  · have hsublist := Upkeep.delivered_sublist policy 0 moves
    rwa [hrun] at hsublist
  · intro longest capacity
    have hkept := Upkeep.nothing_dropped capacity (hdrains longest)
    rw [hrun] at hkept
    -- nothing waits any more when a run is over
    exact (List.append_nil _).symm.trans hkept

/-- A run that may retry for ever does not end with an error. -/
theorem error?_whole {policy : Policy} (unlimited : policy.maxElapsed = none) (stop : Option Stop)
    (list : List Attempt) : (whole policy stop list).error? = none := by
  obtain ⟨moves, holder, hrun, -⟩ := upkeep_whole policy stop list
  have hobedient := Supervisor.obedient_run (s := .start policy 0) (Upkeep.happenings moves) unlimited
    ⟨nofun, nofun⟩
  have hsupervisor : (whole policy stop list).supervisor
      = (Supervisor.start policy 0).run (Upkeep.happenings moves) := by
    have hsame := Upkeep.supervisor_run (Upkeep.start policy 0) moves
    rwa [hrun] at hsame
  rw [← hsupervisor] at hobedient
  unfold error?
  split
  next error ended => exact (hobedient.ended error ended).1
  next => rfl

end Run

end ChainWatch.Resubscription
