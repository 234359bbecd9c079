import ChainWatch.Proofs.Mining.Broadcasts
import ChainWatch.Proofs.Mining.Lookups

/-!
# The inclusion of the latest broadcast is not missed

All that a run broadcasts competes for one nonce, so at most one of it is ever mined. A run looks
for the receipt of its latest broadcast only. `inclusion_seen_iff` says what follows for a
transaction whose receipt the node has from some moment on: the next lookup that is answered in
time ends the run with that transaction, and no request and no giving up comes after it, exactly
if the transaction is still the latest broadcast then. `replaced_inclusion_unseen` shows a run
that gives up although its first transaction was mined, which it had replaced by then.
-/

namespace ChainWatch.Mining

variable {w : Waiter} {s : Surroundings} {first : Transaction}

/-! ## Lookups in a log -/

/-- When the answer to a lookup arrives that was made at `time`, after the calls `before`. -/
def arrival (s : Surroundings) (before : List (Call × Nat)) (hash : Hash) (time : Nat) : Nat :=
  time + (s.receipt (lookupCount before) hash).delay

/-- A lookup completes if its answer arrives by the end of the window that is open, which began
when the latest transaction was broadcast. -/
def Completes (w : Waiter) (s : Surroundings) (first : Transaction) (before : List (Call × Nat))
    (hash : Hash) (time : Nat) : Prop :=
  arrival s before hash time ≤ (latest s first before).time + w.window

/-- An entry of a joined log lies in one of its two parts. -/
theorem append_eq_append_cons {α : Type} {l m before after : List α} {x : α}
    (h : l ++ m = before ++ x :: after) :
    (∃ rest, l = before ++ x :: rest) ∨ ∃ more, before = l ++ more ∧ m = more ++ x :: after := by
  rcases List.append_eq_append_iff.mp h with ⟨more, hbefore, hm⟩ | ⟨rest, hl, hx⟩
  · exact .inr ⟨more, hbefore, hm⟩
  · cases rest with
    | nil => exact .inr ⟨[], by simpa using hl.symm, hx.symm⟩
    | cons y rest =>
      rw [List.cons_append, List.cons.injEq] at hx
      rw [hx.1]
      exact .inl ⟨rest, hl⟩

/-! ## One round -/

/-- The lookups of a round are those of its window, and come before its other calls. -/
theorem RoundEnd.calls_eq {p : Position} {later : Trace} {next : Next}
    (h : RoundEnd w s first p later next) :
    ∃ tail, later.calls = watchCalls w s p ++ tail ∧ ∀ entry ∈ tail, entry.1.isLookup = false := by
  have hpricing : ∀ entry ∈ (pricing w s p).calls, entry.1.isLookup = false := by
    intro entry hentry
    rcases pricing_calls (w := w) (s := s) p with hnone | hone
    · rw [hnone] at hentry
      cases hentry
    · rw [hone, List.mem_singleton] at hentry
      rw [hentry]
      rfl
  have hrequest : ∀ (options : GasOptions) (time : Nat),
      ∀ entry ∈ (pricing w s p).calls ++ [(.resubmit options, time)],
        entry.1.isLookup = false := by
    intro options time entry hentry
    rcases List.mem_append.mp hentry with hold | hnew
    · exact hpricing entry hold
    · rw [List.mem_singleton] at hnew
      rw [hnew]
      rfl
  cases h with
  | mined found => exact ⟨[], by simp, by simp⟩
  | ceilingReached found reached => exact ⟨[], by simp, by simp⟩
  | unpriced found below priced => exact ⟨_, rfl, hpricing⟩
  | noRoom found below priced => exact ⟨_, rfl, hpricing⟩
  | refused found below priced answer =>
    exact ⟨_, List.append_assoc _ _ _, hrequest _ _⟩
  | replaced found below priced answer =>
    exact ⟨_, List.append_assoc _ _ _, hrequest _ _⟩

/-- A round whose window comes to a receipt ends the run, and makes no further calls. -/
theorem RoundEnd.of_found {p : Position} {later : Trace} {next : Next} {receipt : Receipt}
    {time : Nat} (h : RoundEnd w s first p later next)
    (hfound : (watch w s p).found = some (receipt, time)) :
    later.calls = watchCalls w s p ∧ next = .finish ⟨.ok (.mined p.current receipt), time⟩ := by
  have hsome : (watch w s p).found ≠ none := by
    rw [hfound]
    exact Option.some_ne_none _
  cases h with
  | mined found =>
    rw [found] at hfound
    cases hfound
    exact ⟨rfl, rfl⟩
  | ceilingReached found => exact absurd found hsome
  | unpriced found => exact absurd found hsome
  | noRoom found => exact absurd found hsome
  | refused found => exact absurd found hsome
  | replaced found => exact absurd found hsome

/-- A lookup in a round's calls is a lookup of its window, for the current transaction. -/
theorem RoundEnd.lookup_split {p : Position} {later : Trace} {next : Next}
    {before after : List (Call × Nat)} {hash : Hash} {time : Nat}
    (h : RoundEnd w s first p later next)
    (hsplit : later.calls = before ++ (.lookup hash, time) :: after) :
    hash = p.current.hash ∧ ∃ earlier rest, (watch w s p).lookups = earlier ++ time :: rest ∧
      before = earlier.map fun time => (.lookup p.current.hash, time) := by
  obtain ⟨tail, hcalls, htail⟩ := h.calls_eq
  rw [hcalls] at hsplit
  -- the lookup stands among those of the window: behind them come none
  rcases append_eq_append_cons hsplit with ⟨rest, hwatch⟩ | ⟨more, -, hmore⟩
  · rw [watchCalls, List.map_eq_append_iff] at hwatch
    obtain ⟨earlier, others, hlookups, hbefore, hothers⟩ := hwatch
    cases others with
    | nil => cases hothers
    | cons start others =>
      rw [List.map_cons, List.cons.injEq, Prod.mk.injEq, Call.lookup.injEq] at hothers
      obtain ⟨⟨hhash, htime⟩, -⟩ := hothers
      subst htime
      exact ⟨hhash.symm, earlier, others, hlookups, hbefore.symm⟩
  · have hlookup := htail (.lookup hash, time) (by rw [hmore]; simp)
    cases hlookup

/-- Up to a lookup of a round nothing new is broadcast. -/
theorem RoundEnd.latest_split {p : Position} {later : Trace} {next : Next}
    {calls before after : List (Call × Nat)} {hash : Hash} {time : Nat}
    (hagrees : Agrees s first calls p) (h : RoundEnd w s first p later next)
    (hsplit : later.calls = before ++ (.lookup hash, time) :: after) :
    latest s first (calls ++ before) = ⟨p.current, p.now⟩ := by
  obtain ⟨-, earlier, rest, -, rfl⟩ := h.lookup_split hsplit
  rw [latest_append_of_requests_nil (requests_lookups _ _), hagrees.latest]

/-- A lookup of a round that completes with a receipt ends the run there and then. -/
theorem RoundEnd.lookup_receipt {p : Position} {later : Trace} {next : Next}
    {calls before after : List (Call × Nat)} {hash : Hash} {time : Nat} {receipt : Receipt}
    (hagrees : Agrees s first calls p) (h : RoundEnd w s first p later next)
    (hsplit : later.calls = before ++ (.lookup hash, time) :: after)
    (hcompletes : Completes w s first (calls ++ before) hash time)
    (hanswer : (s.receipt (lookupCount (calls ++ before)) hash).answer = .ok (some receipt)) :
    after = [] ∧ next = .finish
      ⟨.ok (.mined p.current receipt), arrival s (calls ++ before) hash time⟩ := by
  have hlatest := h.latest_split hagrees hsplit
  obtain ⟨rfl, earlier, rest, hlookups, rfl⟩ := h.lookup_split hsplit
  -- the number of the lookup within its window, and in the whole log
  have hcount : lookupCount (calls ++ earlier.map fun time => (.lookup p.current.hash, time))
      = p.lookups + earlier.length := by
    rw [lookupCount_append, hagrees.lookups, lookupCount_lookups]
  rw [Completes, hlatest] at hcompletes
  rw [arrival, hcount] at hcompletes ⊢
  rw [hcount] at hanswer
  obtain ⟨hrest, hfound⟩ := lookUntil_receipt hlookups hanswer hcompletes
  obtain ⟨hcalls, hnext⟩ := h.of_found hfound
  refine ⟨?_, hnext⟩
  have hlength := congrArg List.length (hcalls.symm.trans hsplit)
  rw [watchCalls, hlookups, hrest] at hlength
  simp only [List.length_map, List.length_append, List.length_cons, List.length_nil] at hlength
  exact List.length_eq_zero_iff.mp (by omega)

/-! ## Whole runs -/

/-- A run that goes on has looked for its latest broadcast each time, and seen no receipt. -/
theorem Reaches.lookup {trace : Trace} {p : Position} (h : Reaches w s first trace p) :
    ∀ {before after : List (Call × Nat)} {hash : Hash} {time : Nat},
      trace.calls = before ++ (.lookup hash, time) :: after →
      hash = (latest s first before).transaction.hash ∧
        ∀ receipt, Completes w s first before hash time →
          (s.receipt (lookupCount before) hash).answer ≠ .ok (some receipt) := by
  induction h with
  | start =>
    intro before after hash time hsplit
    simp at hsplit
  | @round trace later p q reached next ih =>
    intro before after hash time hsplit
    rcases append_eq_append_cons hsplit with ⟨rest, hold⟩ | ⟨more, rfl, hnew⟩
    · exact ih hold
    · have hagrees := reached.agrees
      rw [next.latest_split hagrees hnew]
      refine ⟨(next.lookup_split hnew).1, ?_⟩
      intro receipt hcompletes hanswer
      -- such a receipt would have ended the round, which went on
      obtain ⟨-, hends⟩ := next.lookup_receipt hagrees hnew hcompletes hanswer
      cases hends

/-- A lookup of a run asks for the latest broadcast, and where it completes with a receipt the run
ends with that broadcast there and then. -/
theorem Course.lookup {limit : Nat} {trace : Trace} {outcome : Option (Except Fault Ending)}
    (h : Course w s first limit trace outcome) {before after : List (Call × Nat)} {hash : Hash}
    {time : Nat} (hsplit : trace.calls = before ++ (.lookup hash, time) :: after) :
    hash = (latest s first before).transaction.hash ∧
      ∀ receipt, Completes w s first before hash time →
        (s.receipt (lookupCount before) hash).answer = .ok (some receipt) →
        after = [] ∧ outcome = some (.ok ⟨.ok (.mined (latest s first before).transaction receipt),
          arrival s before hash time⟩) := by
  cases h with
  | fault zero below => simp at hsplit
  | atCeiling reached => simp at hsplit
  | goingOn below reached rounds =>
    obtain ⟨hhash, hunseen⟩ := reached.lookup hsplit
    exact ⟨hhash, fun receipt hcompletes hanswer => absurd hanswer (hunseen receipt hcompletes)⟩
  | @ended trace last p ending below reached rounds finish =>
    rcases append_eq_append_cons hsplit with ⟨rest, hold⟩ | ⟨more, rfl, hnew⟩
    · obtain ⟨hhash, hunseen⟩ := reached.lookup hold
      exact ⟨hhash, fun receipt hcompletes hanswer => absurd hanswer (hunseen receipt hcompletes)⟩
    · have hagrees := reached.agrees
      rw [finish.latest_split hagrees hnew]
      refine ⟨(finish.lookup_split hnew).1, ?_⟩
      intro receipt hcompletes hanswer
      obtain ⟨hafter, hnext⟩ := finish.lookup_receipt hagrees hnew hcompletes hanswer
      cases hnext
      exact ⟨hafter, rfl⟩

/-- A mined transaction is the latest broadcast. -/
theorem Course.mined_latest {limit : Nat} {trace : Trace}
    {outcome : Option (Except Fault Ending)} (h : Course w s first limit trace outcome)
    {transaction : Transaction} {receipt : Receipt} {time : Nat}
    (hmined : outcome = some (.ok ⟨.ok (.mined transaction receipt), time⟩)) :
    transaction = (latest s first trace.calls).transaction := by
  cases h with
  | fault zero below => cases hmined
  | atCeiling reached => cases hmined
  | goingOn below reached rounds => cases hmined
  | ended below reached rounds finish =>
    cases hmined
    cases finish with
    | mined found =>
      rw [Trace.calls_append, latest_append_of_requests_nil (requests_watchCalls _),
        reached.agrees.latest]

/-- Let the node have a transaction's receipt from the end of `before` on. Then the next lookup
that completes ends the run with this transaction exactly if it is the latest broadcast at that
lookup. -/
theorem inclusion_seen_iff (w : Waiter) (s : Surroundings) (first : Transaction) (limit : Nat)
    {before between after : List (Call × Nat)} {hash : Hash} {time : Nat}
    {transaction : Transaction} {receipt : Receipt}
    (log : (w.follow s first limit).1.calls = before ++ between ++ (.lookup hash, time) :: after)
    (reported : ∀ n, lookupCount before ≤ n →
      (s.receipt n transaction.hash).answer = .ok (some receipt))
    (completes : Completes w s first (before ++ between) hash time) :
    after = [] ∧ (w.follow s first limit).2 = some (.ok ⟨.ok (.mined transaction receipt),
        arrival s (before ++ between) hash time⟩) ↔
      transaction = (latest s first (before ++ between)).transaction := by
  have hcourse := follow_course w s first limit
  constructor
  · -- nothing is broadcast by the last lookup, so the end of the log is as good as its time
    rintro ⟨hafter, hmined⟩
    have hlatest := hcourse.mined_latest hmined
    rwa [log, hafter, latest_append_of_requests_nil rfl] at hlatest
  · rintro rfl
    obtain ⟨rfl, hends⟩ := hcourse.lookup log
    refine hends receipt completes (reported _ ?_)
    rw [lookupCount_append]
    exact Nat.le_add_right _ _

/-! ## A replaced transaction that is mined -/

/-- Quiet surroundings, but for one transaction whose receipt the node has from its `since`-th
lookup on. -/
def reporting (hash : Hash) (receipt : Receipt) (since : Nat) : Surroundings :=
  { quiet none with
    receipt := fun n asked =>
      ⟨0, .ok (if since ≤ n ∧ asked = hash then some receipt else none)⟩ }

theorem reporting_answer_iff {hash : Hash} {receipt found : Receipt} {since n : Nat} :
    ((reporting hash receipt since).receipt n hash).answer = .ok (some found) ↔
      since ≤ n ∧ found = receipt := by
  simp [reporting, eq_comm]

theorem reporting_answer {hash : Hash} {receipt : Receipt} {since n : Nat} (h : since ≤ n) :
    ((reporting hash receipt since).receipt n hash).answer = .ok (some receipt) :=
  reporting_answer_iff.mpr ⟨h, rfl⟩

/-- The receipt of a plain transfer in block 7. -/
def transferReceipt (hash : Hash) : Receipt := ⟨hash, some 7, some 1, some (.clamp 21000), none⟩

/-- The replacement of a transaction priced at three units is seen by the second lookup of its
window. -/
theorem inclusion_seen_second_window :
    (Waiter.follow ⟨10, 10, .clamp 4⟩ (reporting (.ofUInt64 101) (transferReceipt (.ofUInt64 101)) 3)
      (offering (.legacy (.clamp 3))) 2).2
    = some (.ok ⟨.ok (.mined ⟨.ofUInt64 101, .clamp 9, .clamp 21000, .legacy (.clamp 4)⟩
        (transferReceipt (.ofUInt64 101))), 20⟩) := by
  have hlog : (Waiter.follow ⟨10, 10, .clamp 4⟩
      (reporting (.ofUInt64 101) (transferReceipt (.ofUInt64 101)) 3)
      (offering (.legacy (.clamp 3))) 2).1.calls
      = [(.lookup (.ofUInt64 1), 0), (.lookup (.ofUInt64 1), 10),
          (.resubmit (request (offering (.legacy (.clamp 3))) (.legacy (.clamp 4))), 10),
          (.lookup (.ofUInt64 101), 10)] ++ [] ++ (.lookup (.ofUInt64 101), 20) :: [] := rfl
  exact ((inclusion_seen_iff _ _ _ _ hlog (fun n hn => reporting_answer hn)
    (Nat.le_refl 20)).mpr rfl).2

/-- No inclusion at all is missed: let the node have, from the end of `before` on, the receipt of
some transaction that was broadcast by then. Then the next lookup that completes ends the run with
it. -/
def EveryInclusionSeen (w : Waiter) (s : Surroundings) (first : Transaction) (limit : Nat) : Prop :=
  ∀ (before between after : List (Call × Nat)) (hash : Hash) (time : Nat) (broadcast : Broadcast)
    (receipt : Receipt),
    (w.follow s first limit).1.calls = before ++ between ++ (.lookup hash, time) :: after →
    broadcast ∈ broadcasts s first before →
    (∀ n, lookupCount before ≤ n →
      (s.receipt n broadcast.transaction.hash).answer = .ok (some receipt)) →
    (∀ earlier asked due rest, between = earlier ++ (.lookup asked, due) :: rest →
      ¬ Completes w s first (before ++ earlier) asked due) →
    Completes w s first (before ++ between) hash time →
    after = [] ∧ (w.follow s first limit).2 =
      some (.ok ⟨.ok (.mined broadcast.transaction receipt),
        arrival s (before ++ between) hash time⟩)

/-- A run gives up on its replacement, although the node has the receipt of its first transaction
since the replacement was broadcast. -/
theorem replaced_inclusion_unseen :
    ¬ EveryInclusionSeen ⟨10, 10, .clamp 4⟩
      (reporting (.ofUInt64 1) (transferReceipt (.ofUInt64 1)) 2)
      (offering (.legacy (.clamp 3))) 2 := by
  intro h
  have hseen := h
    [(.lookup (.ofUInt64 1), 0), (.lookup (.ofUInt64 1), 10),
      (.resubmit (request (offering (.legacy (.clamp 3))) (.legacy (.clamp 4))), 10)]
    [] [(.lookup (.ofUInt64 101), 20)] (.ofUInt64 101) 10 ⟨offering (.legacy (.clamp 3)), 0⟩
    (transferReceipt (.ofUInt64 1)) rfl (List.mem_cons_self ..)
    (fun n hn => reporting_answer hn) (by simp) (Nat.le_add_right 10 10)
  exact absurd hseen.1 (List.cons_ne_nil _ _)

end ChainWatch.Mining
