import ChainWatch.Proofs.Mining.Course

/-!
# What a run has broadcast, read off its call log

A call log holds what was asked; together with the surroundings, which hold the answers, it tells
everything about a run up to that point. `broadcasts` lists the transactions that are out for the
nonce, the first one and every replacement a request led to, and `latest` is the one that came
last. `Reaches.agrees` ties this reading to the position that the run itself keeps: the current
transaction is the latest broadcast, its window opened when it was broadcast, and the numbers of
the next lookup and the next request are those of the log.
-/

namespace ChainWatch.Mining

variable {w : Waiter} {s : Surroundings} {first : Transaction}

/-! ## Requests and lookups in a log -/

/-- What a call asks for in place of the latest broadcast, if it asks for that. -/
def Call.request? : Call → Option GasOptions
  | .resubmit options => some options
  | _ => none

def Call.isLookup : Call → Bool
  | .lookup _ => true
  | _ => false

/-- The requests for a replacement in a log, with their times. -/
def requests (calls : List (Call × Nat)) : List (GasOptions × Nat) :=
  calls.filterMap fun entry => entry.1.request?.map fun options => (options, entry.2)

/-- How many receipts were asked for. -/
def lookupCount (calls : List (Call × Nat)) : Nat := calls.countP fun entry => entry.1.isLookup

@[simp] theorem requests_append (a b : List (Call × Nat)) :
    requests (a ++ b) = requests a ++ requests b := List.filterMap_append

@[simp] theorem requests_resubmit (options : GasOptions) (time : Nat) :
    requests [(.resubmit options, time)] = [(options, time)] := rfl

@[simp] theorem lookupCount_resubmit (options : GasOptions) (time : Nat) :
    lookupCount [(.resubmit options, time)] = 0 := rfl

@[simp] theorem requests_nil : requests [] = [] := rfl

@[simp] theorem lookupCount_append (a b : List (Call × Nat)) :
    lookupCount (a ++ b) = lookupCount a + lookupCount b := List.countP_append

/-- Lookups are no requests. -/
theorem requests_lookups (hash : Hash) (times : List Nat) :
    requests (times.map fun time => (.lookup hash, time)) = [] := by
  induction times with
  | nil => rfl
  | cons time times ih =>
    rw [List.map_cons, requests, List.filterMap_cons_none rfl]
    exact ih

theorem lookupCount_lookups (hash : Hash) (times : List Nat) :
    lookupCount (times.map fun time => (.lookup hash, time)) = times.length := by
  induction times with
  | nil => rfl
  | cons time times ih =>
    rw [List.map_cons, lookupCount, List.countP_cons_of_pos rfl, List.length_cons]
    exact congrArg (· + 1) ih

@[simp] theorem requests_watchCalls (p : Position) : requests (watchCalls w s p) = [] :=
  requests_lookups _ _

@[simp] theorem lookupCount_watchCalls (p : Position) :
    lookupCount (watchCalls w s p) = (watch w s p).lookups.length :=
  lookupCount_lookups _ _

/-- Pricing asks for a block at most. -/
theorem pricing_calls (p : Position) :
    (pricing w s p).calls = [] ∨ (pricing w s p).calls = [(.latestBlock, p.now + w.window)] := by
  have hcases := pricing_cases w s p
  generalize pricing w s p = priced at hcases
  cases hcases <;> simp

@[simp] theorem requests_pricing (p : Position) : requests (pricing w s p).calls = [] := by
  rcases pricing_calls (w := w) (s := s) p with h | h <;> rw [h] <;> rfl

@[simp] theorem lookupCount_pricing (p : Position) : lookupCount (pricing w s p).calls = 0 := by
  rcases pricing_calls (w := w) (s := s) p with h | h <;> rw [h] <;> rfl

/-! ## The transactions that are out -/

/-- A transaction on its way to the chain, and when it was broadcast. -/
structure Broadcast where
  transaction : Transaction
  time : Nat

/-- The replacements that came of the requests, numbered from `n`. A failed request leads to
none. -/
def replacements (s : Surroundings) : Nat → List (GasOptions × Nat) → List Broadcast
  | _, [] => []
  | n, (options, time) :: rest =>
    let reply := s.resubmit n options
    match reply.answer with
    | .ok replacement => ⟨replacement, time + reply.delay⟩ :: replacements s (n + 1) rest
    | .error _ => replacements s (n + 1) rest

theorem replacements_append (n : Nat) (a b : List (GasOptions × Nat)) :
    replacements s n (a ++ b) = replacements s n a ++ replacements s (n + a.length) b := by
  induction a generalizing n with
  | nil => rfl
  | cons entry a ih =>
    -- a failed request takes a number too, so the numbers go on in either case
    have hrest := ih (n + 1)
    rw [show n + 1 + a.length = n + (entry :: a).length by
      rw [List.length_cons]
      omega] at hrest
    simp only [List.cons_append, replacements, hrest]
    cases (s.resubmit n entry.1).answer <;> rfl

/-- The transactions that a run has broadcast, the first one in front. -/
def broadcasts (s : Surroundings) (first : Transaction) (calls : List (Call × Nat)) :
    List Broadcast :=
  ⟨first, 0⟩ :: replacements s 0 (requests calls)

/-- The transaction that a run has broadcast last. -/
def latest (s : Surroundings) (first : Transaction) (calls : List (Call × Nat)) : Broadcast :=
  (replacements s 0 (requests calls)).getLastD ⟨first, 0⟩

theorem getLast?_broadcasts (s : Surroundings) (first : Transaction)
    (calls : List (Call × Nat)) :
    (broadcasts s first calls).getLast? = some (latest s first calls) := by
  rw [broadcasts, latest, List.getLast?_cons, List.getLastD_eq_getLast?]

/-- Calls that request nothing broadcast nothing. -/
theorem latest_append_of_requests_nil {a b : List (Call × Nat)} (h : requests b = []) :
    latest s first (a ++ b) = latest s first a := by
  rw [latest, latest, requests_append, h, List.append_nil]

/-- More calls add to what was broadcast. -/
theorem broadcasts_append (a b : List (Call × Nat)) :
    broadcasts s first (a ++ b)
      = broadcasts s first a ++ replacements s (requests a).length (requests b) := by
  rw [broadcasts, broadcasts, requests_append, replacements_append, Nat.zero_add]
  rfl

/-! ## The position of a run agrees with its log -/

/-- A position says what the log before it says. -/
structure Agrees (s : Surroundings) (first : Transaction) (calls : List (Call × Nat))
    (p : Position) : Prop where
  latest : latest s first calls = ⟨p.current, p.now⟩
  lookups : lookupCount calls = p.lookups
  requests : (requests calls).length = p.resubmissions
  /-- Every request so far led to a replacement. -/
  answered : (broadcasts s first calls).length = p.resubmissions + 1

theorem agrees_start : Agrees s first [] (start first) := ⟨rfl, rfl, rfl, rfl⟩

/-- A round that goes on adds a request, and the replacement that came of it. -/
theorem Agrees.round {calls : List (Call × Nat)} {p q : Position} {later : Trace}
    (h : Agrees s first calls p) (hround : RoundEnd w s first p later (.goOn q)) :
    Agrees s first (calls ++ later.calls) q := by
  -- a round goes on in one way only, and its one request was answered with a replacement
  cases hround with
  | @replaced offer replacement found below priced answer =>
    have hrequests : Mining.requests (watchCalls w s p ++ (pricing w s p).calls
        ++ [(.resubmit (request first offer), (pricing w s p).now)])
        = [(request first offer, (pricing w s p).now)] := by simp
    have hreplacements : replacements s p.resubmissions
        [(request first offer, (pricing w s p).now)]
        = [⟨replacement, (pricing w s p).now
            + (s.resubmit p.resubmissions (request first offer)).delay⟩] := by
      simp only [replacements, answer]
    constructor
    · rw [Mining.latest, requests_append, hrequests, replacements_append, Nat.zero_add,
        h.requests, hreplacements, List.getLastD_concat]
    · simp only [lookupCount_append, lookupCount_watchCalls, lookupCount_pricing,
        lookupCount_resubmit, h.lookups, Nat.add_zero]
    · rw [requests_append, hrequests, List.length_append, h.requests]
      rfl
    · rw [broadcasts_append, hrequests, h.requests, hreplacements, List.length_append, h.answered]
      rfl

/-- Every position that a run reaches agrees with its log. -/
theorem Reaches.agrees {trace : Trace} {p : Position} (h : Reaches w s first trace p) :
    Agrees s first trace.calls p := by
  induction h with
  | start => exact agrees_start
  | round _ next ih => exact ih.round next

/-! ## Quiet surroundings -/

/-- A caller who broadcasts what is asked, and a node that never has a receipt and whose blocks
carry this base fee. -/
def quiet (baseFee : Option Word) : Surroundings where
  receipt _ _ := ⟨0, .ok none⟩
  block _ := ⟨0, .ok ⟨0, none, baseFee⟩⟩
  resubmit := listedResubmissions []

/-- A transaction to follow that makes this offer. -/
def offering (offer : FeeOffer) : Transaction :=
  ⟨.ofUInt64 1, .clamp 9, .clamp 21000, offer⟩

end ChainWatch.Mining
