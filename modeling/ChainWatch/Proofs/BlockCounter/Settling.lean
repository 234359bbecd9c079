import ChainWatch.Proofs.BlockCounter.Company

/-!
# Sessions in company

In a session everybody goes on as far as possible before time does. `Company.still_settle` shows
that this leaves nothing to do: a poller can have only so many things to do at one moment. A session
in which nobody cancels the counter, and in which nobody comes to it once it is dropped, is then one
of the runs of its company (`ofSession_trail`).
-/

namespace ChainWatch.BlockCounter

variable {heights : Nat → Node.Timed UInt64} {c : Company} {s : Session}

/-! ## Pollers at one moment -/

namespace Poller

variable {p next : Poller} {unwanted : Bool} {now : Nat}

/-- How many things a poller can still have to do at one moment. -/
def pending (p : Poller) (now : Nat) : Nat :=
  match p.activity with
  | .fresh => leeway + 4
  | .asking arrival _ _ => if arrival ≤ now then leeway + 3 else 0
  | .resting due =>
    if now < due then 1 else if due + leeway < now then 2 else now - due + 2
  | .stopped => 0

theorem pending_le (p : Poller) (now : Nat) : p.pending now ≤ busiest := by
  unfold pending busiest
  split
  · omega
  · split <;> omega
  · split
    · omega
    · split <;> omega
  · omega

theorem period_act (hact : p.act heights unwanted now = some next) : next.period = p.period := by
  unfold act at hact
  grind [hear]

/-- Whatever a poller does, it has less to do afterwards. -/
theorem pending_act (hpositive : 0 < p.period) (hact : p.act heights unwanted now = some next) :
    next.pending now < p.pending now := by
  unfold act at hact
  split at hact
  · next hfresh =>
    rw [if_neg (Nat.ne_of_gt hpositive)] at hact
    obtain rfl := Option.some.inj hact
    rw [pending, pending, hfresh]
    dsimp only
    rw [if_neg (Nat.lt_irrefl now), if_neg (by omega)]
    omega
  · next due hresting =>
    split at hact
    · obtain rfl := Option.some.inj hact
      rw [pending, pending, hresting]
      dsimp only
      split
      · omega
      · split <;> omega
    · split at hact
      · next hdue =>
        dsimp only at hact
        split at hact
        · obtain rfl := Option.some.inj hact
          rw [pending, pending, hresting, hear]
          dsimp only
          unfold nextTick
          grind
        · next hdelay =>
          obtain rfl := Option.some.inj hact
          rw [pending, pending, hresting]
          dsimp only
          rw [if_neg (by omega), if_neg (Nat.not_lt.mpr hdue)]
          split <;> omega
      · cases hact
  · next arrival due answer hasking =>
    split at hact
    · next harrived =>
      obtain rfl := Option.some.inj hact
      rw [pending, pending, hasking, hear]
      dsimp only
      rw [if_pos harrived]
      split
      · omega
      · split <;> omega
    · cases hact
  · cases hact

theorem period_settle (p : Poller) (fuel : Nat) :
    (p.settle heights unwanted now fuel).period = p.period := by
  induction fuel generalizing p with
  | zero => rfl
  | succ fuel ih =>
    rw [settle]
    split
    · next next hact => exact (ih next).trans (period_act hact)
    · rfl

/-- A poller that goes on as far as it can has nothing left to do. -/
theorem act_settle (hpositive : 0 < p.period) {fuel : Nat} (hfuel : p.pending now ≤ fuel) :
    (p.settle heights unwanted now fuel).act heights unwanted now = none := by
  induction fuel generalizing p with
  | zero =>
    rw [settle]
    cases hact : p.act heights unwanted now with
    | none => rfl
    | some next =>
      have hless := pending_act hpositive hact
      omega
  | succ fuel ih =>
    rw [settle]
    split
    · next next hact =>
      have hless := pending_act hpositive hact
      exact ih (period_act hact ▸ hpositive) (by omega)
    · next hact => exact hact

theorem settle_of_act_eq_none (hact : p.act heights unwanted now = none) (fuel : Nat) :
    p.settle heights unwanted now fuel = p := by
  cases fuel with
  | zero => rfl
  | succ fuel => rw [settle, hact]

/-- What there is to do next comes later. -/
theorem lt_of_nextTime? (hact : p.act heights unwanted now = none) {time : Nat}
    (htime : p.nextTime? = some time) : now < time := by
  unfold nextTime? at htime
  unfold act at hact
  grind

end Poller

/-! ## Companies at one moment -/

namespace Company

/-- The poller goes on as far as it can. -/
def pollOut (c : Company) : Company :=
  { c with poller := c.poller.settle c.heights c.deserted c.now Poller.busiest }

/-- Everybody goes on as far as possible, as in a session. -/
def settle (c : Company) : Company := c.pollOut.lookAll.pollOut

theorem run_polls (c : Company) (fuel : Nat) :
    c.run (List.replicate fuel (.poll true))
      = { c with poller := c.poller.settle c.heights c.deserted c.now fuel } := by
  induction fuel generalizing c with
  | zero => rfl
  | succ fuel ih =>
    rw [List.replicate_succ, run_cons, Poller.settle]
    split
    · next next hact =>
      rw [step_poll (by rw [Bool.true_and, hact])]
      exact ih _
    · next hact =>
      have hstep : c.step (.poll true) = c := by rw [step, Bool.true_and, hact]
      rw [hstep, ih, Poller.settle_of_act_eq_none hact]

theorem run_pollOut (c : Company) :
    c.run (List.replicate Poller.busiest (.poll true)) = c.pollOut := c.run_polls _

theorem exists_run_settle (c : Company) : ∃ turns, c.settle = c.run turns := by
  refine ⟨List.replicate Poller.busiest (.poll true) ++ c.pollOut.lookTurns
    ++ List.replicate Poller.busiest (.poll true), ?_⟩
  rw [run_append, run_append, run_pollOut, run_pollOut, run_lookTurns, settle]

theorem deserted_lookAll (hdeserted : c.deserted = true) : c.lookAll.deserted = true := by
  rw [deserted_iff] at hdeserted ⊢
  obtain ⟨hheld, hwatches, hdone⟩ := hdeserted
  refine ⟨hheld, hwatches, fun e hmem => ?_⟩
  obtain ⟨old, hold, rfl⟩ := List.mem_map.mp hmem
  rw [Errand.look, hdone old hold, Bool.true_or]

/-- Then there is nothing left to do. -/
theorem still_settle (hpositive : 0 < c.poller.period) : c.settle.still = true := by
  have hpollPositive : 0 < c.pollOut.lookAll.poller.period := by
    show 0 < (c.poller.settle _ _ _ _).period
    rwa [Poller.period_settle]
  have hquiet : c.settle.poller.act c.settle.heights c.settle.deserted c.settle.now = none :=
    Poller.act_settle hpollPositive (Poller.pending_le _ _)
  refine still_iff.mpr ⟨hquiet, fun e hmem => ?_⟩
  by_cases hdeserted : c.pollOut.lookAll.deserted = true
  · -- whoever was told something has nothing more to see
    have hdone : e.done = true := (deserted_iff.mp hdeserted).2.2 e hmem
    exact Errand.look_eq_iff.mpr fun _ => hdone
  · -- somebody is left, so that the poller has nothing to do after the others have looked
    have hbefore : c.deserted = false :=
      Bool.eq_false_iff.mpr fun h => hdeserted (deserted_lookAll (c := c.pollOut) h)
    have hnothing : c.pollOut.lookAll.poller.act c.heights c.pollOut.lookAll.deserted c.now
        = none := by
      rw [Bool.eq_false_iff.mpr hdeserted, ← hbefore]
      exact Poller.act_settle hpositive (Poller.pending_le _ _)
    have hsame : c.settle.poller = c.pollOut.lookAll.poller :=
      Poller.settle_of_act_eq_none hnothing _
    rw [hsame]
    exact looked_lookAll c.pollOut e hmem

end Company

/-! ## Sessions -/

namespace Session

open Company

theorem deserted_ofSession (hcancelled : s.cancelled = false) :
    (ofSession s).deserted = s.unwanted := by
  rw [Company.deserted, ofSession, unwanted, hcancelled, Bool.false_or]
  cases s.watches <;> simp [Function.comp_def]

theorem ofSession_poll (hcancelled : s.cancelled = false) :
    ofSession s.poll = (ofSession s).pollOut := by
  rw [pollOut, deserted_ofSession hcancelled]
  rfl

theorem ofSession_settle (hcancelled : s.cancelled = false) :
    ofSession s.settle = (ofSession s).settle := by
  let told : Session := { s.poll with waiters := s.waiters.map fun w => w.look s.poll.poller.height }
  have htold : ofSession told = (ofSession s).pollOut.lookAll := by
    rw [← ofSession_poll hcancelled]
    simp [ofSession, lookAll, told, Session.poll, Waiter.look, Errand.look, Function.comp_def,
      Option.isSome_or]
  show ofSession told.poll = _
  rw [ofSession_poll (s := told) hcancelled, htold, Company.settle]

/-- Time goes on in a session in which everybody has gone on as far as possible. -/
theorem exists_run_later (hcancelled : s.cancelled = false) (hpositive : 0 < s.poller.period)
    (time : Nat) (hle : s.now ≤ time) (hnext : ∀ next ∈ s.settle.poller.nextTime?, time ≤ next) :
    ∃ turns, ofSession { s.settle with now := time } = (ofSession s).run turns := by
  obtain ⟨turns, hturns⟩ := (ofSession s).exists_run_settle
  have hsettled := ofSession_settle hcancelled
  refine ⟨turns ++ [.pass time], ?_⟩
  rw [run_append, ← hturns, ← hsettled, run_cons, run_nil]
  have hstill : (ofSession s.settle).still = true := by
    rw [hsettled]
    exact still_settle hpositive
  exact (if_pos ⟨hstill, hle, hnext⟩).symm

/-- A session that can be told in turns: nobody cancels it, and its poller has begun well. -/
structure Plain (s : Session) : Prop where
  uncancelled : s.cancelled = false
  positive : 0 < s.poller.period

namespace Plain

theorem settle (hs : s.Plain) : s.settle.Plain := by
  refine ⟨hs.uncancelled, ?_⟩
  show 0 < ((s.poller.settle _ _ _ _).settle _ _ _ _).period
  rw [Poller.period_settle, Poller.period_settle]
  exact hs.positive

theorem waitUntil (hs : s.Plain) (done : Session → Bool) {deadline : Nat} (hle : s.now ≤ deadline) :
    (Session.waitUntil done deadline s).Plain ∧
      ∃ turns, ofSession (Session.waitUntil done deadline s) = (ofSession s).run turns := by
  fun_induction Session.waitUntil done deadline s with
  | case1 s hdone =>
    obtain ⟨turns, hturns⟩ := (ofSession s).exists_run_settle
    exact ⟨hs.settle, turns, (ofSession_settle hs.uncancelled).trans hturns⟩
  | case2 s hdone time htime hlt ih =>
    obtain ⟨turns, hturns⟩ := exists_run_later hs.uncancelled hs.positive time
      (Nat.le_of_lt hlt.1) fun next hnext => by
        rw [htime] at hnext
        exact Nat.le_of_eq (Option.some.inj hnext)
    obtain ⟨hplain, more, hmore⟩ := ih ⟨hs.settle.uncancelled, hs.settle.positive⟩
      (Nat.le_of_lt hlt.2)
    exact ⟨hplain, turns ++ more, by rw [hmore, hturns, run_append]⟩
  | case3 s hdone time htime hlt =>
    refine ⟨⟨hs.settle.uncancelled, hs.settle.positive⟩,
      exists_run_later hs.uncancelled hs.positive deadline hle fun next hnext => ?_⟩
    obtain rfl : time = next := Option.some.inj (htime.symm.trans hnext)
    have hstill : (ofSession s.settle).still = true := by
      rw [ofSession_settle hs.uncancelled]
      exact still_settle hs.positive
    have hlater : s.now < time := Poller.lt_of_nextTime? (still_iff.mp hstill).1 htime
    omega
  | case4 s hdone hnone =>
    refine ⟨⟨hs.settle.uncancelled, hs.settle.positive⟩,
      exists_run_later hs.uncancelled hs.positive deadline hle fun next hnext => ?_⟩
    rw [hnone] at hnext
    cases hnext

theorem wait (hs : s.Plain) (done : Session → Bool) (patience : Nat) :
    (s.wait done patience).Plain ∧
      ∃ turns, ofSession (s.wait done patience) = (ofSession s).run turns := by
  unfold Session.wait
  split
  · exact ⟨hs, [], rfl⟩
  · exact hs.waitUntil done (Nat.le_add_right _ _)

end Plain

/-- A step that needs no cancelling, and no counter that has been dropped. -/
def Allows (s : Session) : Step → Prop
  | .cancel => False
  | .waiter .. | .watch _ => s.held = true
  | _ => True

/-- Some watches are dropped. -/
theorem run_dropWatches (c : Company) (count : Nat) :
    c.run (List.replicate count .dropWatch) = { c with watches := c.watches - count } := by
  induction count generalizing c with
  | zero => rfl
  | succ count ih =>
    rw [List.replicate_succ, run_cons, ih]
    simp only [Company.step, Nat.sub_sub, Nat.add_comm 1]

/-- Such a step is one of the things that can happen in the company. -/
theorem Plain.step (hs : s.Plain) {step : Step} (hallows : s.Allows step) :
    (s.step step).2.Plain ∧ ∃ turns, ofSession (s.step step).2 = (ofSession s).run turns := by
  cases step with
  | current => exact ⟨hs, [], rfl⟩
  | sleep ms => exact hs.wait (fun _ => false) ms
  | cancel => exact hallows.elim
  | drop => exact ⟨⟨hs.uncancelled, hs.positive⟩, [.dropCounter], rfl⟩
  | wait target patience =>
    exact hs.wait (fun s => (verdict? s.poller.height target).isSome) patience
  | waiter id target =>
    refine ⟨⟨hs.uncancelled, hs.positive⟩, [.send target], ?_⟩
    have hheld : s.held = true := hallows
    rw [run_cons, run_nil, Company.step, ofSession, ofSession]
    simp [Session.step, hheld]
  | pollWaiter id patience =>
    rw [step_pollWaiter]
    exact hs.wait (fun s => ((s.waiter? id).bind Waiter.verdict).isSome) patience
  | watch id =>
    have hheld : s.held = true := hallows
    -- whoever watched under this identifier does so no more
    have hle : (s.watches.filter fun w => w.id != id).length ≤ s.watches.length :=
      List.length_filter_le _ _
    refine ⟨⟨hs.uncancelled, hs.positive⟩, .watch :: List.replicate
      (s.watches.length - (s.watches.filter fun w => w.id != id).length) .dropWatch, ?_⟩
    rw [run_cons, run_dropWatches, Company.step, ofSession, ofSession]
    simp [Session.step, hheld]
    omega
  | pollWatch id =>
    refine ⟨⟨hs.uncancelled, hs.positive⟩, [], ?_⟩
    simp [Session.step, ofSession, run_nil]

/-- All steps can be told in turns when they are made. -/
def AllowsAll (s : Session) : List Step → Prop
  | [] => True
  | step :: rest => s.Allows step ∧ (s.step step).2.AllowsAll rest

/-- A session is one of the runs of its company. -/
theorem Plain.trail (hs : s.Plain) {steps : List Step} (hallows : s.AllowsAll steps) {i : Nat}
    {answer : StepAnswer} {after : Session}
    (hafter : (s.trail steps)[i]? = some (answer, after)) :
    ∃ turns, ofSession after = (ofSession s).run turns := by
  induction steps generalizing s i with
  | nil => cases hafter
  | cons step rest ih =>
    obtain ⟨hstep, hrest⟩ := hallows
    obtain ⟨hplain, turns, hturns⟩ := hs.step hstep
    cases i with
    | zero =>
      obtain ⟨-, rfl⟩ := Prod.mk.inj (Option.some.inj hafter)
      exact ⟨turns, hturns⟩
    | succ i =>
      obtain ⟨more, hmore⟩ := ih hplain hrest hafter
      exact ⟨turns ++ more, by rw [hmore, hturns, run_append]⟩

theorem plain_start {period : Nat} (hpositive : 0 < period)
    (hstart : Session.start heights period = .ok s) : s.Plain := by
  unfold Session.start at hstart
  dsimp only at hstart
  split at hstart
  · cases hstart
  · obtain rfl := Except.ok.inj hstart
    exact ⟨rfl, hpositive⟩

end Session

end ChainWatch.BlockCounter
