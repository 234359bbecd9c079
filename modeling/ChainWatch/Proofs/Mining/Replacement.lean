import ChainWatch.Proofs.Fee.Escalation
import ChainWatch.Proofs.Mining.Broadcasts

/-!
# Every request for a replacement is safe

A caller who is asked for a replacement may broadcast something else, so a price is always raised
from what was really broadcast, while nonce and gas limit stay those of the first transaction.
`SafeReplacement` says what a request may be, given the transaction it replaces: it competes for
the same nonce, pays in the same way, pays more, stays under the ceiling, and a dynamic one leaves
room for its tip and is no cap that a node would refuse.

`resubmissions_safe` is the main statement: every request of every run is safe in this sense, each
is counted once under its kind, and a first transaction that leaves no room for a higher price is
not followed at all.
-/

namespace ChainWatch.Mining

variable {w : Waiter} {s : Surroundings} {first : Transaction}

/-- What a request may be that replaces `replaced` on behalf of the first transaction. -/
structure SafeReplacement (w : Waiter) (first replaced : Transaction) (options : GasOptions) :
    Prop where
  nonce : options.nonce = first.nonce
  gasLimit : options.gasLimit = first.gasLimit
  kind : options.offer.kind = replaced.offer.kind
  raised : replaced.offer.ceilingPrice < options.offer.ceilingPrice
  bounded : options.offer.ceilingPrice ≤ w.ceiling
  /-- A node accepts the new fee cap, and the tip fits below it. -/
  accepted : ∀ cap tip newCap newTip, replaced.offer = .dynamic cap tip →
    options.offer = .dynamic newCap newTip →
    newTip ≤ newCap ∧ Fee.leastReplacementCap cap ≤ newCap

/-- The `i`-th request of a log replaces the `i`-th broadcast, and is safe to do so. -/
def SafeLog (w : Waiter) (s : Surroundings) (first : Transaction) (calls : List (Call × Nat)) :
    Prop :=
  ∀ (i : Nat) (options : GasOptions) (time : Nat), (requests calls)[i]? = some (options, time) →
    ∃ replaced : Broadcast, (broadcasts s first calls)[i]? = some replaced ∧
      SafeReplacement w first replaced.transaction options

/-! ## One request -/

/-- Below the ceiling, the price that comes out is safe to ask for. -/
theorem safe_request {p : Position} {offer : FeeOffer}
    (below : p.current.offer.ceilingPrice < w.ceiling)
    (priced : (pricing w s p).pricing = .offer offer) :
    SafeReplacement w first p.current (request first offer) := by
  rcases pricing_offer priced with ⟨amount, hcurrent, rfl⟩ |
    ⟨cap, tip, fee, newCap, newTip, hcurrent, hraised, rfl⟩
  · rw [hcurrent] at below
    exact {
      nonce := rfl
      gasLimit := rfl
      kind := by
        rw [hcurrent]
        rfl
      raised := by
        rw [hcurrent]
        exact Fee.lt_raiseLegacy below
      bounded := Fee.raiseLegacy_le _ _
      accepted := by
        intro cap tip newCap newTip hdynamic
        rw [hcurrent] at hdynamic
        cases hdynamic }
  · rw [hcurrent] at below
    obtain ⟨hfloor, hceiling, htip⟩ := Fee.raiseDynamic_offer hraised
    exact {
      nonce := rfl
      gasLimit := rfl
      kind := by
        rw [hcurrent]
        rfl
      -- the strict increase comes from the least replacement cap alone: the base fee may fall
      raised := by
        rw [hcurrent]
        exact Nat.lt_of_lt_of_le (Fee.lt_leastReplacementCap below) hfloor
      bounded := hceiling
      accepted := by
        intro cap' tip' newCap' newTip' hold hnew
        rw [hcurrent] at hold
        cases hold
        cases hnew
        exact ⟨htip, hfloor⟩ }

/-- A round makes no request, or a safe one. -/
theorem RoundEnd.requests_cases {p : Position} {later : Trace} {next : Next}
    (h : RoundEnd w s first p later next) :
    requests later.calls = [] ∨ ∃ options time, requests later.calls = [(options, time)] ∧
      SafeReplacement w first p.current options := by
  cases h with
  | mined found => exact .inl (by simp)
  | ceilingReached found reached => exact .inl (by simp)
  | unpriced found below priced => exact .inl (by simp)
  | noRoom found below priced => exact .inl (by simp)
  | refused found below priced answer =>
    exact .inr ⟨_, (pricing w s p).now, by simp, safe_request below priced⟩
  | replaced found below priced answer =>
    exact .inr ⟨_, (pricing w s p).now, by simp, safe_request below priced⟩

/-- Counters tell the kinds apart. -/
theorem label_inj {a b : FeeKind} : a.label = b.label ↔ a = b := by
  cases a <;> cases b <;> decide

/-- Every round counts its request under the request's kind. -/
theorem RoundEnd.count_escalation {p : Position} {later : Trace} {next : Next}
    (h : RoundEnd w s first p later next) (kind : FeeKind) :
    later.samples.count (.escalation kind.label)
      = (requests later.calls).countP fun entry => entry.1.offer.kind = kind := by
  cases h with
  | mined found => simp
  | ceilingReached found reached => simp
  | unpriced found below priced => simp
  | noRoom found below priced => simp
  | refused found below priced answer =>
    simp [List.count_cons, request, label_inj]
  | replaced found below priced answer =>
    simp [List.count_cons, request, label_inj]

/-! ## Whole runs -/

/-- One more round keeps a log safe: its request replaces the latest broadcast. -/
theorem SafeLog.round {calls : List (Call × Nat)} {p : Position} {later : Trace} {next : Next}
    (hsafe : SafeLog w s first calls) (hagrees : Agrees s first calls p)
    (hround : RoundEnd w s first p later next) :
    SafeLog w s first (calls ++ later.calls) := by
  intro i options time hi
  rw [requests_append] at hi
  have hlength : (broadcasts s first calls).length = (requests calls).length + 1 := by
    rw [hagrees.answered, hagrees.requests]
  rw [broadcasts_append]
  by_cases hold : i < (requests calls).length
  · -- an earlier request: more broadcasts do not move the one that it replaced
    rw [List.getElem?_append_left hold] at hi
    rw [List.getElem?_append_left (by omega)]
    exact hsafe i options time hi
  · rw [List.getElem?_append_right (by omega)] at hi
    rcases hround.requests_cases with hnone | ⟨asked, due, hone, hrequest⟩
    · rw [hnone] at hi
      cases hi
    · -- the round's own request: it replaces the latest broadcast
      rw [hone] at hi
      have hi' : i = (requests calls).length := by
        have hlt := (List.getElem?_eq_some_iff.mp hi).1
        rw [List.length_singleton] at hlt
        omega
      subst hi'
      simp only [Nat.sub_self, List.getElem?_cons_zero, Option.some.injEq, Prod.mk.injEq] at hi
      obtain ⟨rfl, rfl⟩ := hi
      have hlast := getLast?_broadcasts s first calls
      rw [List.getLast?_eq_getElem?, hlength, hagrees.latest] at hlast
      refine ⟨⟨p.current, p.now⟩, ?_, hrequest⟩
      rw [List.getElem?_append_left (by omega)]
      exact hlast

theorem safeLog_nil : SafeLog w s first [] := by
  intro i options time hi
  cases hi

theorem Reaches.safeLog {trace : Trace} {p : Position} (h : Reaches w s first trace p) :
    SafeLog w s first trace.calls := by
  induction h with
  | start => exact safeLog_nil
  | round reached next ih => exact ih.round reached.agrees next

theorem Reaches.count_escalation {trace : Trace} {p : Position} (h : Reaches w s first trace p)
    (kind : FeeKind) :
    trace.samples.count (.escalation kind.label)
      = (requests trace.calls).countP fun entry => entry.1.offer.kind = kind := by
  induction h with
  | start => rfl
  | round _ next ih =>
    rw [Trace.samples_append, Trace.calls_append, requests_append, List.count_append,
      List.countP_append, ih, next.count_escalation]

theorem Course.safeLog {limit : Nat} {trace : Trace} {outcome : Option (Except Fault Ending)}
    (h : Course w s first limit trace outcome) : SafeLog w s first trace.calls := by
  cases h with
  | fault zero below => exact safeLog_nil
  | atCeiling reached => exact safeLog_nil
  | goingOn below reached rounds => exact reached.safeLog
  | ended below reached rounds finish => exact reached.safeLog.round reached.agrees finish

theorem Course.count_escalation {limit : Nat} {trace : Trace}
    {outcome : Option (Except Fault Ending)} (h : Course w s first limit trace outcome)
    (kind : FeeKind) :
    trace.samples.count (.escalation kind.label)
      = (requests trace.calls).countP fun entry => entry.1.offer.kind = kind := by
  cases h with
  | fault zero below => rfl
  | atCeiling reached => simp
  | goingOn below reached rounds => exact reached.count_escalation kind
  | ended below reached rounds finish =>
    rw [Trace.samples_append, Trace.calls_append, requests_append, List.count_append,
      List.countP_append, reached.count_escalation, finish.count_escalation]

theorem Course.calls_of_atCeiling {limit : Nat} {trace : Trace}
    {outcome : Option (Except Fault Ending)} (h : Course w s first limit trace outcome)
    (hprice : w.ceiling ≤ first.offer.ceilingPrice) : trace.calls = [] := by
  cases h with
  | fault zero below => rfl
  | atCeiling reached => rfl
  | goingOn below reached rounds => exact absurd hprice (Word.not_le.mpr below)
  | ended below reached rounds finish => exact absurd hprice (Word.not_le.mpr below)

/-- Every request of a run replaces the transaction that was broadcast last, and is safe to do so;
the counters of the kinds count exactly the requests; and nothing is asked where the first
transaction is priced at the ceiling or above. -/
theorem resubmissions_safe (w : Waiter) (s : Surroundings) (first : Transaction) (limit : Nat) :
    SafeLog w s first (w.follow s first limit).1.calls ∧
    (∀ kind : FeeKind, (w.follow s first limit).1.samples.count (.escalation kind.label)
      = (requests (w.follow s first limit).1.calls).countP
          fun entry => entry.1.offer.kind = kind) ∧
    (w.ceiling ≤ first.offer.ceilingPrice → (w.follow s first limit).1.calls = []) := by
  have hcourse := follow_course w s first limit
  exact ⟨hcourse.safeLog, hcourse.count_escalation, hcourse.calls_of_atCeiling⟩

end ChainWatch.Mining
