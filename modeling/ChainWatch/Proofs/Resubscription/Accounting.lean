import ChainWatch.Proofs.Resubscription.Course

/-!
# What a supervisor counts and tells

An onlooker who writes down when a supervisor makes its attempts and with what errors they fail
can tell at every moment what the counters show and what listeners were told: `Accounts` lists it,
and `attempts_accounted` says that it holds of every run at every moment.

The gap between two attempts spans everything that lies between their starts: how long the first
one took, for how long its subscription was up if it brought one, and the pause. It is the same for
attempts that failed and for those that did not.
-/

namespace ChainWatch.Resubscription

/-! ## What an onlooker writes down -/

/-- When an attempt was made. -/
def attemptTime? : Supervisor × Happening → Option Nat
  | (s, .turn time) => if s.phase = .ready then some time else none
  | _ => none

/-- The error that an attempt failed with. -/
def refusal? : Supervisor × Happening → Option ChainError
  | (s, .refused error _ _) => if s.phase = .subscribing then some error else none
  | _ => none

def Phase.isPausing : Phase → Bool
  | pausing _ _ => true
  | _ => false

/-- Does a pause begin? -/
def pauses (entry : Supervisor × Happening) : Bool :=
  !entry.1.phase.isPausing && (entry.1.step entry.2).phase.isPausing

/-- When the attempts of a run were made. -/
def attemptTimes (trail : List (Supervisor × Happening)) : List Nat := trail.filterMap attemptTime?

/-- The errors that attempts of a run failed with. -/
def refusals (trail : List (Supervisor × Happening)) : List ChainError := trail.filterMap refusal?

/-- A pause makes the supervisor wait, and an attempt ends the waiting. -/
def waitsAfter (waiting : Bool) (entry : Supervisor × Happening) : Bool :=
  (attemptTime? entry).isNone && (waiting || pauses entry)

/-- Has a pause begun since the last attempt? -/
def waits (trail : List (Supervisor × Happening)) : Bool := trail.foldl waitsAfter false

/-- The times from each of these moments to the next one. -/
def gaps (times : List Nat) : List Nat :=
  times.zipWith (fun earlier later => later - earlier) times.tail

/-- The gaps that are too short. -/
def tooSoon (threshold : Nat) (times : List Nat) : List Nat :=
  (gaps times).filter fun gap => gap < threshold

/-- The gap that a notice tells of. -/
def Notice.gap? : Notice → Option Nat
  | alert gap => some gap
  | failure _ => none

/-- The error that a notice tells of. -/
def Notice.error? : Notice → Option ChainError
  | alert _ => none
  | failure error => some error

/-- A supervisor has counted and told what belongs to attempts at these times, of which some failed
with these errors; it may be waiting for the next one. -/
structure Accounts (policy : Policy) (s : Supervisor) (times : List Nat)
    (refused : List ChainError) (waiting : Bool) : Prop where
  attempts : s.attempts = times.length
  alerts : s.samples.count .resubscriptionAlert = (tooSoon policy.alertThreshold times).length
  /-- Each alert is told once, with its gap. -/
  alertsTold : s.notices.filterMap Notice.gap? = tooSoon policy.alertThreshold times
  failures : s.samples.count .subscribeFailure = refused.length
  /-- Each failure is told once, with its error. -/
  failuresTold : s.notices.filterMap Notice.error? = refused
  /-- Of the attempts that were made, if any, all but the first one are counted; the one to come is
  counted as soon as the pause before it begins. -/
  resubscriptions : s.samples.count .resubscription
    = if waiting then s.attempts else s.attempts - 1

/-! ## One more attempt -/

/-- One more moment adds the gap to the last one before it. -/
theorem gaps_snoc (times : List Nat) (time : Nat) :
    gaps (times ++ [time]) = gaps times ++ (times.getLast?.map (time - ·)).toList := by
  induction times with
  | nil => rfl
  | cons first rest ih =>
    cases rest with
    | nil => rfl
    | cons second rest =>
      rw [List.getLast?_cons_cons]
      exact congrArg ((second - first) :: ·) ih

theorem tooSoon_snoc (threshold : Nat) (times : List Nat) (time : Nat) :
    tooSoon threshold (times ++ [time]) = tooSoon threshold times
      ++ (times.getLast?.map (time - ·)).toList.filter fun gap => gap < threshold := by
  rw [tooSoon, gaps_snoc, List.filter_append]
  rfl

/-! ## What a step adds -/

def Act.sample? : Act → Option Metrics.Sample
  | count sample => some sample
  | _ => none

def Act.notice? : Act → Option Notice
  | notify notice => some notice
  | _ => none

variable {policy : Policy} {s next : Supervisor} {acts : List Act} {times : List Nat}
  {refused : List ChainError} {waiting : Bool}

theorem attempts_of_log (log : next.log = s.log ++ acts) :
    next.attempts = s.attempts + acts.count .ask := by
  rw [Supervisor.attempts, log, List.count_append]
  rfl

theorem samples_of_log (log : next.log = s.log ++ acts) :
    next.samples = s.samples ++ acts.filterMap Act.sample? := by
  rw [Supervisor.samples, log, List.filterMap_append]
  rfl

theorem notices_of_log (log : next.log = s.log ++ acts) :
    next.notices = s.notices ++ acts.filterMap Act.notice? := by
  rw [Supervisor.notices, log, List.filterMap_append]
  rfl

/-- Acts that go with so many attempts, with alerts for these gaps, and with these failures. -/
structure Tells (acts : List Act) (asked : Nat) (gaps : List Nat) (errors : List ChainError) :
    Prop where
  asks : acts.count .ask = asked
  alerts : (acts.filterMap Act.sample?).count .resubscriptionAlert = gaps.length
  alertsTold : (acts.filterMap Act.notice?).filterMap Notice.gap? = gaps
  failures : (acts.filterMap Act.sample?).count .subscribeFailure = errors.length
  failuresTold : (acts.filterMap Act.notice?).filterMap Notice.error? = errors

/-- Acts that tell what an entry says keep the accounts, if the pauses are counted as well. -/
theorem Accounts.add {more gaps : List Nat} {errors : List ChainError} {waiting' : Bool}
    (accounts : Accounts policy s times refused waiting) (log : next.log = s.log ++ acts)
    (tells : Tells acts more.length gaps errors)
    (soon : tooSoon policy.alertThreshold (times ++ more)
      = tooSoon policy.alertThreshold times ++ gaps)
    (pauses : (if waiting then s.attempts else s.attempts - 1)
        + (acts.filterMap Act.sample?).count .resubscription
      = if waiting' then s.attempts + more.length else s.attempts + more.length - 1) :
    Accounts policy next (times ++ more) (refused ++ errors) waiting' where
  attempts := by rw [attempts_of_log log, accounts.attempts, tells.asks, List.length_append]
  alerts := by
    rw [samples_of_log log, List.count_append, accounts.alerts, tells.alerts, soon,
      List.length_append]
  alertsTold := by
    rw [notices_of_log log, List.filterMap_append, accounts.alertsTold, tells.alertsTold, soon]
  failures := by
    rw [samples_of_log log, List.count_append, accounts.failures, tells.failures,
      List.length_append]
  failuresTold := by
    rw [notices_of_log log, List.filterMap_append, accounts.failuresTold, tells.failuresTold]
  resubscriptions := by
    rw [samples_of_log log, List.count_append, accounts.resubscriptions, attempts_of_log log,
      tells.asks, pauses]

/-- The same without an attempt. -/
theorem Accounts.act {errors : List ChainError} {waiting' : Bool}
    (accounts : Accounts policy s times refused waiting) (tells : Tells acts 0 [] errors)
    (pauses : (if waiting then s.attempts else s.attempts - 1)
        + (acts.filterMap Act.sample?).count .resubscription
      = if waiting' then s.attempts else s.attempts - 1) :
    Accounts policy (s.act acts) times (refused ++ errors) waiting' := by
  have hnone : tooSoon policy.alertThreshold (times ++ [])
      = tooSoon policy.alertThreshold times ++ [] := by
    rw [List.append_nil, List.append_nil]
  have haccounts : Accounts policy (s.act acts) (times ++ []) (refused ++ errors) waiting' :=
    accounts.add rfl tells hnone pauses
  rwa [List.append_nil] at haccounts

/-! ## One step -/

/-- The accounts are right, and the supervisor remembers what the next entry needs. -/
structure Ledger (policy : Policy) (s : Supervisor) (times : List Nat)
    (refused : List ChainError) (waiting : Bool) : Prop
    extends Accounts policy s times refused waiting where
  policy : s.policy = policy
  last : s.lastAttempt = times.getLast?
  /-- Before an attempt there was a pause, unless it is the first one. -/
  idle : s.phase = .ready ∨ s.phase.isPausing = true → waiting = true ∨ s.attempts = 0
  busy : s.phase = .subscribing ∨ s.phase = .live → waiting = false ∧ 0 < s.attempts

/-- An attempt raises one alert, if its gap to the last one is too short. -/
theorem Ledger.alertActs_cases (ledger : Ledger policy s times refused waiting) (time : Nat) :
    ∃ gaps, tooSoon policy.alertThreshold (times ++ [time])
        = tooSoon policy.alertThreshold times ++ gaps ∧
      Tells (s.alertActs time ++ [Act.ask]) 1 gaps [] ∧
      ((s.alertActs time ++ [Act.ask]).filterMap Act.sample?).count .resubscription = 0 := by
  unfold Supervisor.alertActs
  rw [ledger.last, ledger.policy, tooSoon_snoc]
  refine ⟨_, rfl, ?_⟩
  cases times.getLast? with
  | none => exact ⟨⟨rfl, rfl, rfl, rfl, rfl⟩, rfl⟩
  | some last =>
    by_cases hsoon : time - last < policy.alertThreshold
    · simp only [Option.map_some, Option.toList_some, List.filter_cons, List.filter_nil, hsoon,
        decide_true, if_true]
      exact ⟨⟨rfl, rfl, rfl, rfl, rfl⟩, rfl⟩
    · simp only [Option.map_some, Option.toList_some, List.filter_cons, List.filter_nil, hsoon,
        decide_false, if_false]
      exact ⟨⟨rfl, rfl, rfl, rfl, rfl⟩, rfl⟩

/-- An attempt goes on record with its time. -/
theorem Ledger.asked (ledger : Ledger policy s times refused waiting) (phase : s.phase = .ready)
    (time : Nat) :
    Ledger policy { s.act (s.alertActs time ++ [.ask]) with
      phase := .subscribing, lastAttempt := some time } (times ++ [time]) refused false := by
  obtain ⟨gaps, hgaps, htells, hnone⟩ := ledger.alertActs_cases time
  -- the pause before it has counted this attempt already; before the first one there is none
  have hpauses : (if waiting then s.attempts else s.attempts - 1) = s.attempts := by
    rcases ledger.idle (.inl phase) with rfl | hfirst
    · rfl
    · rw [hfirst, ite_self]
  constructor
  · rw [← List.append_nil refused]
    refine ledger.toAccounts.add rfl htells hgaps ?_
    rw [hnone, hpauses]
    rfl
  · exact ledger.policy
  · exact List.getLast?_concat.symm
  · nofun
  · intro _
    rw [attempts_of_log (s := s) rfl, htells.asks]
    exact ⟨rfl, Nat.succ_pos _⟩

/-- Where something fails, what is done tells of the error of the attempt, if there is one. -/
theorem Fails.tells {h : Happening} {clock pause : Nat} (fails : Fails s.phase h acts clock pause) :
    Tells acts 0 [] (refusal? (s, h)).toList ∧
      (acts.filterMap Act.sample?).count .resubscription = 0 ∧ attemptTime? (s, h) = none ∧
      (s.phase = .subscribing ∨ s.phase = .live) := by
  generalize hphase : s.phase = phase at fails
  cases fails with
  | refused =>
    rw [refusal?, if_pos hphase]
    exact ⟨⟨rfl, rfl, rfl, rfl, rfl⟩, rfl, rfl, .inl rfl⟩
  | lost => exact ⟨⟨rfl, rfl, rfl, rfl, rfl⟩, rfl, rfl, .inr rfl⟩

/-- An attempt that failed goes on record with its error. -/
theorem Ledger.fails {h : Happening} {clock pause : Nat}
    (ledger : Ledger policy s times refused waiting) (fails : Fails s.phase h acts clock pause) :
    Accounts policy (s.act acts) times (refused ++ (refusal? (s, h)).toList) false ∧
      0 < (s.act acts).attempts := by
  obtain ⟨htells, hnone, -, hphase⟩ := fails.tells
  obtain ⟨rfl, hattempts⟩ := ledger.busy hphase
  rw [attempts_of_log (s := s) rfl]
  refine ⟨ledger.toAccounts.act htells ?_, Nat.lt_of_lt_of_le hattempts (Nat.le_add_right _ _)⟩
  rw [hnone]
  rfl

/-- A pause goes on record when it begins. -/
theorem Ledger.paused {h : Happening} {clock pause : Nat}
    (ledger : Ledger policy s times refused waiting) (fails : Fails s.phase h acts clock pause) :
    Ledger policy (.act { s.act acts with
        phase := .pausing pause s.told, backoff := s.backoff.grow s.policy }
      [.count .resubscription]) times (refused ++ (refusal? (s, h)).toList) true := by
  obtain ⟨haccounts, hattempts⟩ := ledger.fails fails
  have hpaused : Accounts policy ((s.act acts).act [.count .resubscription]) times
      (refused ++ (refusal? (s, h)).toList ++ []) true :=
    haccounts.act ⟨rfl, rfl, rfl, rfl, rfl⟩ (Nat.sub_add_cancel hattempts)
  rw [List.append_nil] at hpaused
  exact { hpaused with
    policy := ledger.policy
    last := ledger.last
    idle := fun _ => .inl rfl
    busy := nofun }

theorem attemptTime?_of_ignores {h : Happening} (ignores : s.Ignores h) :
    attemptTime? (s, h) = none := by
  cases h with
  | turn time => exact if_neg ignores
  | _ => rfl

theorem refusal?_of_ignores {h : Happening} (ignores : s.Ignores h) :
    refusal? (s, h) = none := by
  cases h with
  | refused error clock pause => exact if_neg ignores
  | _ => rfl

/-- Without an attempt no time goes on record. -/
theorem Ledger.noAttempt {h : Happening} {pauses waits : Bool}
    (ledger : Ledger policy next times (refused ++ (refusal? (s, h)).toList) waits)
    (attempt : attemptTime? (s, h) = none) (hwaits : (waiting || pauses) = waits) :
    Ledger policy next (times ++ (attemptTime? (s, h)).toList) (refused ++ (refusal? (s, h)).toList)
      ((attemptTime? (s, h)).isNone && (waiting || pauses)) := by
  rw [attempt, hwaits, Option.toList_none, List.append_nil]
  exact ledger

/-- What an onlooker does not write down leaves the ledger as it is. -/
theorem Ledger.unnoticed {h : Happening} {pauses : Bool}
    (ledger : Ledger policy next times refused waiting) (attempt : attemptTime? (s, h) = none)
    (refusal : refusal? (s, h) = none) (pause : pauses = false) :
    Ledger policy next (times ++ (attemptTime? (s, h)).toList) (refused ++ (refusal? (s, h)).toList)
      ((attemptTime? (s, h)).isNone && (waiting || pauses)) := by
  refine Ledger.noAttempt ?_ attempt (by rw [pause, Bool.or_false])
  rw [refusal, Option.toList_none, List.append_nil]
  exact ledger

/-- Every happening keeps the ledger, once the onlooker has written it down. -/
theorem Ledger.step (ledger : Ledger policy s times refused waiting) (h : Happening) :
    Ledger policy (s.step h) (times ++ (attemptTime? (s, h)).toList)
      (refused ++ (refusal? (s, h)).toList) (waitsAfter waiting (s, h)) := by
  have hcases := s.step_cases h
  unfold waitsAfter pauses
  dsimp only
  generalize s.step h = next at hcases ⊢
  -- attempts, failures and pauses go on record; the other steps touch the phase only
  cases hcases with
  | ignored ignores =>
    exact ledger.unnoticed (attemptTime?_of_ignores ignores) (refusal?_of_ignores ignores)
      (Bool.not_and_self _)
  | told =>
    exact Ledger.unnoticed { ledger with idle := ledger.idle, busy := ledger.busy } rfl rfl
      (Bool.not_and_self _)
  | @asked time phase =>
    have hattempt : attemptTime? (s, .turn time) = some time := if_pos phase
    have hrefusal : refusal? (s, .turn time) = none := rfl
    rw [hattempt, hrefusal, Option.toList_none, List.append_nil]
    exact ledger.asked phase time
  | established phase =>
    exact Ledger.unnoticed
      { ledger with idle := nofun, busy := fun _ => ledger.busy (.inl phase) } rfl rfl
      (Bool.and_false _)
  | paused fails allowed =>
    obtain ⟨-, -, hattempt, hphase⟩ := fails.tells
    have hawake : s.phase.isPausing = false := by
      rcases hphase with hphase | hphase <;> rw [hphase] <;> rfl
    refine (ledger.paused fails).noAttempt hattempt ?_
    rw [hawake]
    exact Bool.or_true _
  | gaveUp fails exceeded =>
    obtain ⟨-, -, hattempt, hphase⟩ := fails.tells
    obtain ⟨haccounts, -⟩ := ledger.fails fails
    refine Ledger.noAttempt { haccounts with
      policy := ledger.policy
      last := ledger.last
      idle := nofun
      busy := nofun } hattempt ?_
    rw [(ledger.busy hphase).1, Bool.false_or]
    exact Bool.and_false _
  | rested phase free =>
    have hidle := ledger.idle (.inr (phase ▸ rfl))
    exact Ledger.unnoticed { ledger with idle := fun _ => hidle, busy := nofun } rfl rfl
      (by rw [phase]; rfl)
  | stopped told phase =>
    exact Ledger.unnoticed { ledger with idle := nofun, busy := nofun } rfl rfl (Bool.and_false _)
  | unsubscribed told phase =>
    have hunsubscribed : Accounts policy (s.act [.unsubscribe]) times (refused ++ []) waiting :=
      ledger.toAccounts.act ⟨rfl, rfl, rfl, rfl, rfl⟩ rfl
    rw [List.append_nil] at hunsubscribed
    exact Ledger.unnoticed { hunsubscribed with
      policy := ledger.policy
      last := ledger.last
      idle := nofun
      busy := nofun } rfl rfl (Bool.and_false _)
  | closed phase =>
    exact Ledger.unnoticed { ledger with idle := nofun, busy := nofun } rfl rfl (Bool.and_false _)

theorem filterMap_cons_toList {α β : Type} (f : α → Option β) (a : α) (rest : List α) :
    (a :: rest).filterMap f = (f a).toList ++ rest.filterMap f := by
  rw [List.filterMap_cons]
  cases f a <;> rfl

/-- A run keeps the ledger, once the onlooker has written down what happened. -/
theorem Ledger.run (ledger : Ledger policy s times refused waiting) (hs : List Happening) :
    Ledger policy (s.run hs) (times ++ attemptTimes (s.trail hs)) (refused ++ refusals (s.trail hs))
      ((s.trail hs).foldl waitsAfter waiting) := by
  -- on the happenings to come, for any record of those that were
  induction hs generalizing s times refused waiting with
  | nil =>
    rw [Supervisor.trail, attemptTimes, refusals, List.filterMap_nil, List.filterMap_nil,
      List.append_nil, List.append_nil]
    exact ledger
  | cons h rest ih =>
    have hrest := ih (ledger.step h)
    rw [List.append_assoc, List.append_assoc] at hrest
    rw [Supervisor.trail, attemptTimes, refusals, filterMap_cons_toList, filterMap_cons_toList]
    exact hrest

theorem ledger_start (policy : Policy) (clock : Nat) :
    Ledger policy (.start policy clock) [] [] false where
  attempts := rfl
  alerts := rfl
  alertsTold := rfl
  failures := rfl
  failuresTold := rfl
  resubscriptions := rfl
  policy := rfl
  last := rfl
  idle _ := .inr rfl
  busy := nofun

/-- Whatever happens to a supervisor and whenever one looks, its counters and what it told are those
of the attempts that were made so far. -/
theorem attempts_accounted (policy : Policy) (clock : Nat) (hs : List Happening) :
    Accounts policy ((Supervisor.start policy clock).run hs)
      (attemptTimes ((Supervisor.start policy clock).trail hs))
      (refusals ((Supervisor.start policy clock).trail hs))
      (waits ((Supervisor.start policy clock).trail hs)) :=
  ((ledger_start policy clock).run hs).toAccounts

/-- The gap after a failed attempt and the one after a subscription are told apart by their lengths
alone, and one as long as the threshold is long enough. -/
example :
    ((Supervisor.start (.of 10 15) 0).run
      [.turn 0, .refused .subscriptionClosed 2 1, .rested, .turn 14,
        .established 16, .lost none 20 1, .rested, .turn 29]).notices
      = [.failure .subscriptionClosed, .alert 14] := by decide

end ChainWatch.Resubscription
