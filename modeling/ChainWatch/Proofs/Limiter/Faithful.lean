import ChainWatch.Proofs.Limiter.Calls
import Mathlib.Data.List.Perm.Subperm

/-!
# Calls are made faithfully

Behind a limiter with slots and without a bucket, calls go to the node as they would without the
limiter, only later and never too many at a time: a call that gets its permit asks its own question
once and hands back the node's answer, and one that does not leaves no trace but its timeout.
`Faithful` says so of a moment; every order of moves leads to such moments, and `run` makes moves
in one such order.
-/

namespace ChainWatch.Limiter

variable {plan : Plan} {calls : List Call} {slots i j now : Nat} {t t' : Traffic} {c : Callers}
  {call : Call} {old new : Stage}

/-! ## What was asked -/

/-- The node was asked what the calls that had their permit ask, and every question was counted. -/
structure Logged (calls : List Call) (t : Traffic) : Prop where
  same : t.calls.map Prod.fst = calls
  asked : ∀ i call stage, t.calls[i]? = some (call, stage) →
    (t.inner.filter fun entry => entry.1 = i) =
      if stage.wasAsked = true then [(i, call.question)] else []
  known : ∀ entry ∈ t.inner, entry.1 < t.calls.length
  counted : (t.samples.filter fun sample => sample ≠ .permitTimeout) =
    t.inner.map fun entry => .rpcCall entry.2.method

theorem comes_start (hcall : (Traffic.start plan calls).calls[i]? = some (call, old)) :
    old.comes = true := by
  obtain ⟨entry, -, hentry⟩ := List.mem_map.mp (List.mem_of_getElem? hcall)
  rw [← (Prod.mk.inj hentry).2]
  rfl

theorem logged_start (plan : Plan) (calls : List Call) : Logged calls (.start plan calls) where
  same := by
    rw [Traffic.start, List.map_map]
    exact List.zipIdx_map_fst ..
  asked i call stage hcall := by
    rw [(Stage.of_comes (comes_start hcall)).2.2]
    rfl
  known entry hentry := absurd hentry List.not_mem_nil
  counted := rfl

theorem Logged.moved (h : Logged calls t) (hcall : t.calls[i]? = some (call, old))
    (hmoved : Moved t t' i call old new) : Logged calls t' := by
  have hlength : i < t.calls.length := (List.getElem?_eq_some_iff.mp hcall).1
  have hsame : t'.calls.map Prod.fst = calls := by
    have hcall' : (t.calls.map Prod.fst)[i]? = some call := by
      rw [List.getElem?_map, hcall, Option.map_some]
    obtain ⟨hlength', hself⟩ := List.getElem?_eq_some_iff.mp hcall'
    rw [hmoved.calls, List.map_set, ← h.same]
    dsimp only
    rw [← hself, List.set_getElem_self]
  have hlengths : t'.calls.length = t.calls.length := by rw [hmoved.calls, List.length_set]
  have hself := h.asked i call old hcall
  -- a call that stands somewhere is the one that has moved, or stands where it stood
  have hstage : ∀ j call' stage, t'.calls[j]? = some (call', stage) →
      j = i ∧ call' = call ∧ stage = new ∨ j ≠ i ∧ t.calls[j]? = some (call', stage) := by
    intro j call' stage hentry
    rw [hmoved.calls] at hentry
    by_cases hne : j = i
    · rw [hne, List.getElem?_set_self hlength, Option.some.injEq, Prod.mk.injEq] at hentry
      exact .inl ⟨hne, hentry.1.symm, hentry.2.symm⟩
    · rw [List.getElem?_set_ne (Ne.symm hne)] at hentry
      exact .inr ⟨hne, hentry⟩
  rcases hmoved.log with ⟨hasked, hinner, hsamples⟩ | ⟨hold, hnew, hinner, hsamples⟩
  -- nothing was asked, or the one question that is new belongs to the call that has moved
  · refine ⟨hsame, fun j call' stage hentry => ?_, ?_, ?_⟩
    · rw [hinner]
      rcases hstage j call' stage hentry with ⟨rfl, rfl, rfl⟩ | ⟨-, hentry⟩
      · rw [hself, hasked]
      · exact h.asked j call' stage hentry
    · rw [hinner, hlengths]
      exact h.known
    · rw [hinner, ← h.counted]
      rcases hsamples with hsamples | hsamples
      · rw [hsamples]
      · rw [hsamples, List.filter_append]
        exact List.append_nil _
  · refine ⟨hsame, fun j call' stage hentry => ?_, fun entry hentry => ?_, ?_⟩
    · rw [hinner, List.filter_append]
      rcases hstage j call' stage hentry with ⟨rfl, rfl, rfl⟩ | ⟨hne, hentry⟩
      · rw [hself, hold, hnew]
        simp
      · rw [h.asked j call' stage hentry]
        simp [Ne.symm hne]
    · rw [hlengths]
      rw [hinner, List.mem_append, List.mem_singleton] at hentry
      rcases hentry with hentry | rfl
      · exact h.known entry hentry
      · exact hlength
    · rw [hinner, hsamples, List.filter_append, List.map_append, h.counted]
      rfl

/-! ## Any order of moves -/

/-- The limiter knows where all calls stand, and the node was asked what they ask. -/
structure Sound (plan : Plan) (calls : List Call) (t : Traffic) : Prop where
  planned : t.plan = plan
  logged : Logged calls t
  tracked : ∃ c, Tracks plan.slots t c

theorem sound_start (calls : List Call) (htoken : plan.requestsPerSecond = 0) :
    Sound plan calls (.start plan calls) := by
  have hnone : ∀ kind : Stage → Bool, (∀ stage, stage.comes = true → kind stage = false) →
      ∀ i, i ∉ (Traffic.start plan calls).those kind := by
    intro kind hkind i hmem
    obtain ⟨call, stage, hcall, hholds⟩ := Traffic.exists_of_mem_those hmem
    exact absurd ((hkind stage (comes_start hcall)).symm.trans hholds) Bool.false_ne_true
  refine ⟨rfl, logged_start plan calls, .start plan.slots, ?_, balanced_start _, fun i => ?_,
    fun i => ?_⟩
  · rw [Traffic.start, Plan.permits, htoken]
    rfl
  · exact iff_of_false List.not_mem_nil (hnone _ (fun _ hstage => (Stage.of_comes hstage).1) i)
  · exact iff_of_false List.not_mem_nil (hnone _ (fun _ hstage => (Stage.of_comes hstage).2.1) i)

namespace Sound

theorem goes (h : Sound plan calls t) (hcall : t.calls[i]? = some (call, old))
    (hgoes : Goes plan.slots t t' i call old new) : Sound plan calls t' :=
  ⟨hgoes.moved.plan.trans h.planned, h.logged.moved hcall hgoes.moved, hgoes.tracked⟩

theorem turn (h : Sound plan calls t) (hslots : 0 < plan.slots) (move : Traffic.Turn) :
    Sound plan calls (t.turn move) := by
  obtain ⟨c, htracks⟩ := h.tracked
  rcases turn_goes hslots htracks move with hsame | ⟨i, call, old, new, hcall, -, hgoes⟩
  · rwa [hsame]
  · exact h.goes hcall hgoes

theorem turns (h : Sound plan calls t) (hslots : 0 < plan.slots) (moves : List Traffic.Turn) :
    Sound plan calls (t.turns moves) := by
  induction moves generalizing t with
  | nil => exact h
  | cons move rest ih => exact ih (h.turn hslots move)

end Sound

/-! ## The run by the timers -/

/-- One move starts at most one inner call. -/
theorem Moved.length_running (h : Moved t t' i call old new) :
    t'.running.length ≤ t.running.length + 1 := by
  have hsubset : t'.running ⊆ i :: t.running := by
    intro j hmem
    by_cases hne : j = i
    · rw [hne]
      exact List.mem_cons_self
    · exact List.mem_cons_of_mem _ ((Traffic.mem_those_of_ne h.calls hne).mp hmem)
  exact (List.subperm_of_subset (t'.nodup_those _) hsubset).length_le

theorem Moved.getElem? (h : Moved t t' i call old new) (hcall : t.calls[i]? = some (call, old)) :
    t'.calls[i]? = some (call, new) := by
  rw [h.calls, List.getElem?_set_self (List.getElem?_eq_some_iff.mp hcall).1]

/-- A call that has asked the node has done so for good. -/
theorem Moved.wasAsked (h : Moved t t' i call old new) (hcall : t.calls[i]? = some (call, old))
    (hmem : j ∈ t.those Stage.wasAsked) : j ∈ t'.those Stage.wasAsked := by
  by_cases hne : j = i
  · subst hne
    rw [Traffic.mem_those hcall] at hmem
    rw [Traffic.mem_those (h.getElem? hcall)]
    rcases h.log with ⟨hsame, -⟩ | ⟨-, hnew, -⟩
    · rw [hsame, hmem]
    · exact hnew
  · exact (Traffic.mem_those_of_ne h.calls hne).mpr hmem

namespace Sound

theorem wasAsked_turns (h : Sound plan calls t) (hslots : 0 < plan.slots)
    (moves : List Traffic.Turn) (hmem : j ∈ t.those Stage.wasAsked) :
    j ∈ (t.turns moves).those Stage.wasAsked := by
  induction moves generalizing t with
  | nil => exact hmem
  | cons move rest ih =>
    refine ih (h.turn hslots move) ?_
    obtain ⟨c, htracks⟩ := h.tracked
    rcases turn_goes hslots htracks move with hsame | ⟨i, call, old, new, hcall, -, hgoes⟩
    · rwa [hsame]
    · exact hgoes.moved.wasAsked hcall hmem

/-- Where nobody waits and there is room for all of them, calls that come one after the other all
ask the node. -/
theorem arrivals_ask (h : Sound plan calls t) (hslots : 0 < plan.slots)
    (hwaits : t.those Stage.waits = []) (more : List (Nat × Nat))
    (hroom : t.running.length + more.length ≤ plan.slots) (hdistinct : (more.map Prod.snd).Nodup)
    (hcomes : ∀ arrival ∈ more, arrival.2 ∈ t.those Stage.comes) :
    ∀ arrival ∈ more, arrival.2 ∈
      (t.turns (more.map fun arrival => .fire arrival.1 arrival.2)).those Stage.wasAsked := by
  induction more generalizing t with
  | nil => exact fun arrival hmem => absurd hmem List.not_mem_nil
  | cons first rest ih =>
    obtain ⟨now, i⟩ := first
    obtain ⟨c, htracks⟩ := h.tracked
    obtain ⟨call, old, hcall, hold⟩ := Traffic.exists_of_mem_those (hcomes _ List.mem_cons_self)
    obtain ⟨new, hgoes, hasks⟩ := arrive_goes hslots htracks hcall hold now
    have hfire : t.turn (.fire now i) = t.arrive i now := Traffic.fire_of_comes hcall hold now
    rw [List.length_cons] at hroom
    obtain ⟨hfresh, hdistinct⟩ := List.nodup_cons.mp hdistinct
    have hnew : new.wasAsked = true := hasks (by rw [hwaits, List.length_nil]; omega)
    have hself : (t.arrive i now).calls[i]? = some (call, new) := hgoes.moved.getElem? hcall
    have hnext := h.goes hcall hgoes
    -- the first has asked, so it neither waits nor comes; there is room for the rest
    have hrest := ih hnext ?_ ?_ hdistinct ?_
    · rw [List.map_cons, Traffic.turns, List.foldl_cons, hfire]
      intro arrival hmem
      rcases List.mem_cons.mp hmem with rfl | hmem
      · exact hnext.wasAsked_turns hslots _ ((Traffic.mem_those hself).mpr hnew)
      · exact hrest arrival hmem
    · refine List.eq_nil_iff_forall_not_mem.mpr fun j hmem => ?_
      by_cases hne : j = i
      · rw [hne, Traffic.mem_those hself] at hmem
        exact absurd ((Stage.of_waits hmem).1.symm.trans hnew) Bool.false_ne_true
      · rw [Traffic.mem_those_of_ne hgoes.moved.calls hne, hwaits] at hmem
        exact absurd hmem List.not_mem_nil
    · have hlength := hgoes.moved.length_running
      omega
    · intro arrival hmem
      have hne : arrival.2 ≠ i := fun heq => hfresh (List.mem_map.mpr ⟨arrival, hmem, heq⟩)
      exact (Traffic.mem_those_of_ne hgoes.moved.calls hne).mpr
        (hcomes arrival (List.mem_cons_of_mem _ hmem))

end Sound

/-! ## What calls can rely on -/

/-- What calls with this plan can rely on at every moment. -/
structure Faithful (plan : Plan) (calls : List Call) (t : Traffic) : Prop where
  same : t.calls.map Prod.fst = calls
  /-- No more inner calls are running than there are slots. -/
  bounded : t.running.length ≤ plan.slots
  gauge : t.permits.inFlight = t.running.length
  /-- A call that has got its permit has asked its own question once, another one nothing. -/
  asked : ∀ i call stage, t.calls[i]? = some (call, stage) →
    (t.inner.filter fun entry => entry.1 = i) =
      if stage.wasAsked = true then [(i, call.question)] else []
  known : ∀ entry ∈ t.inner, entry.1 < t.calls.length
  /-- Every question was counted under its own method, and nothing else was. -/
  counted : (t.samples.filter fun sample => sample ≠ .permitTimeout) =
    t.inner.map fun entry => .rpcCall entry.2.method
  answered : ∀ (i : Nat) call asked time, t.calls[i]? = some (call, .answered asked time) →
    t.reports[i]? = some ⟨call.question, call.reply.answer, some asked, time⟩
  refused : ∀ (i : Nat) call time, t.calls[i]? = some (call, .refused time) →
    t.reports[i]? = some ⟨call.question, .error plan.timeoutError, none, time⟩
  /-- A call that has ended keeps no slot from others. -/
  ended : ∀ i call stage, t.calls[i]? = some (call, stage) → stage.over = true →
    i ∉ t.permits.handed ∧ i ∉ t.permits.queue
  /-- An inner call starts only where there is room for it. -/
  starts : ∀ move, (t.turn move).inner ≠ t.inner → t.running.length < plan.slots
  /-- A call whose patience is over has its permit or fails. -/
  decided : ∀ i call stage now, t.calls[i]? = some (call, stage) → stage.waits = true →
    ∃ next, (t.turn (.fire now i)).calls[i]? = some (call, next) ∧
      (next.wasAsked = true ∨ next = .refused now)
  /-- A call can be dropped at any time; that asks nothing. -/
  dropped : ∀ i call stage now, t.calls[i]? = some (call, stage) → stage.over = false →
    ∃ next, (t.turn (.drop now i)).calls[i]? = some (call, next) ∧ next.over = true ∧
      next.wasAsked = stage.wasAsked
  /-- Once all calls have ended, as many as there are slots can ask the node without waiting. -/
  atOnce : t.running = [] → t.those Stage.waits = [] → ∀ more : List (Nat × Nat),
    more.length ≤ plan.slots → (more.map Prod.snd).Nodup →
    (∀ arrival ∈ more, arrival.2 ∈ t.those Stage.comes) →
    ∀ arrival ∈ more, arrival.2 ∈
      (t.turns (more.map fun arrival => .fire arrival.1 arrival.2)).those Stage.wasAsked

theorem Sound.faithful (h : Sound plan calls t) (hslots : 0 < plan.slots) :
    Faithful plan calls t := by
  obtain ⟨c, htracks⟩ := h.tracked
  exact {
    same := h.logged.same
    bounded := htracks.length_out ▸ htracks.balanced.bounded hslots
    gauge := by rw [← htracks.permits, htracks.balanced.gauge, htracks.length_out]
    asked := h.logged.asked
    known := h.logged.known
    counted := h.logged.counted
    answered := fun i call asked time hcall => by
      rw [Traffic.reports, List.getElem?_map, hcall]
      rfl
    refused := fun i call time hcall => by
      rw [Traffic.reports, List.getElem?_map, hcall, ← h.planned]
      rfl
    ended := fun i call stage hcall hover => by
      have hwaiting : i ∉ c.waiting := fun hmem => by
        have hwaits := (htracks.mem_waiting hcall).mp hmem
        exact absurd ((Stage.of_over hover).1.symm.trans hwaits) Bool.false_ne_true
      rw [← htracks.permits, htracks.balanced.serves.handed, htracks.balanced.serves.queue]
      exact ⟨fun hmem => hwaiting (List.mem_of_mem_take hmem),
        fun hmem => hwaiting (List.mem_of_mem_drop hmem)⟩
    starts := fun move hstarts => by
      rcases turn_goes hslots htracks move with hsame | ⟨i, call, old, new, -, -, hgoes⟩
      · exact absurd (congrArg Traffic.inner hsame) hstarts
      · rcases hgoes.moved.log with ⟨-, hsame, -⟩ | ⟨hold, hnew, -⟩
        · exact absurd hsame hstarts
        · exact hgoes.room hold hnew
    decided := fun i call stage now hcall hwaits => by
      rw [Traffic.turn, Traffic.fire_of_waits hcall hwaits]
      split
      · rename_i hhanded
        obtain ⟨call', old, new, hcall', -, hnew, hgoes⟩ := takeSlot_goes htracks hhanded now
        obtain ⟨rfl, rfl⟩ := Prod.mk.inj (Option.some.inj (hcall.symm.trans hcall'))
        exact ⟨new, hgoes.moved.getElem? hcall, .inl hnew⟩
      · exact ⟨_, (expire_goes htracks hcall hwaits now).moved.getElem? hcall, .inr rfl⟩
    dropped := fun i call stage now hcall hover => by
      obtain ⟨new, hnew, hasked, hgoes⟩ := drop_goes htracks hcall hover now
      exact ⟨new, hgoes.moved.getElem? hcall, hnew, hasked⟩
    atOnce := fun hrunning hwaits more hlength hdistinct hcomes =>
      h.arrivals_ask hslots hwaits more (by rw [hrunning, List.length_nil]; omega) hdistinct hcomes }

end ChainWatch.Limiter
