import ChainWatch.Proofs.Mining.Inclusion

/-!
# Which failures a run survives

A run can meet four sorts of failures. A lookup that fails is taken for the answer that the
transaction is not mined yet, so that it changes nothing at all: this is the first half of
`failures_tolerated_or_fatal`, about two runs whose lookups differ in failures only.

The other three are `Fatal`: the caller fails to replace the transaction, the latest block does not
come, or it comes without the base fee that a dynamic offer needs. The first such failure is the
last thing that happens, and the run ends with its error. Read the other way, a run that ends with
an error ends with one of these: this is the second half.
-/

namespace ChainWatch.Mining

variable {w : Waiter} {s t : Surroundings} {first : Transaction}

/-! ## Lookups that fail -/

/-- The second answer is the first one, or it fails where the first one is "not mined". -/
inductive FailsAtMost : Node.Timed (Option Receipt) → Node.Timed (Option Receipt) → Prop where
  | same (reply : Node.Timed (Option Receipt)) : FailsAtMost reply reply
  | failed (delay : Nat) (cause : ChainError) :
      FailsAtMost ⟨delay, .ok none⟩ ⟨delay, .error cause⟩

/-- The second surroundings are the first ones, but for lookups that fail instead of being answered
with "not mined". -/
structure FailsMore (s t : Surroundings) : Prop where
  receipt : ∀ n hash, FailsAtMost (s.receipt n hash) (t.receipt n hash)
  block : t.block = s.block
  resubmit : t.resubmit = s.resubmit

theorem lookUntil_of_failsAtMost {answers failing : Nat → Node.Timed (Option Receipt)}
    (h : ∀ n, FailsAtMost (answers n) (failing n)) (deadline poll left due now index : Nat) :
    lookUntil failing deadline poll left due now index
      = lookUntil answers deadline poll left due now index := by
  induction left generalizing due now index with
  | zero => rfl
  | succ left ih =>
    -- an answer that is no receipt is not looked into any further
    have hreply := h index
    rw [lookUntil, lookUntil]
    generalize answers index = reply at hreply ⊢
    generalize failing index = failure at hreply ⊢
    cases hreply with
    | same => simp only [ih]
    | failed delay cause => simp only [ih]

theorem FailsMore.round (h : FailsMore s t) (p : Position) :
    Mining.round w t first p = Mining.round w s first p := by
  have hwindow : window (fun n => t.receipt n p.current.hash) w.window w.poll p.now p.lookups
      = window (fun n => s.receipt n p.current.hash) w.window w.poll p.now p.lookups :=
    lookUntil_of_failsAtMost (fun n => h.receipt n _) _ _ _ _ _ _
  have hescalate : escalate w t first p = escalate w s first p := by
    unfold escalate price replace
    rw [h.block, h.resubmit]
  simp only [Mining.round, hwindow, hescalate]

theorem FailsMore.rounds (h : FailsMore s t) (left : Nat) (p : Position) :
    Mining.rounds w t first left p = Mining.rounds w s first left p := by
  induction left generalizing p with
  | zero => rfl
  | succ left ih => simp only [Mining.rounds, h.round, ih]

/-- A run cannot tell a lookup that fails from one that is answered with "not mined". -/
theorem FailsMore.follow (h : FailsMore s t) (limit : Nat) :
    w.follow t first limit = w.follow s first limit := by
  simp only [Waiter.follow, run, h.rounds]

/-! ## Calls that fail for good -/

/-- How many blocks were asked for. -/
def blockCount (calls : List (Call × Nat)) : Nat := calls.countP fun entry => entry.1 = .latestBlock

@[simp] theorem blockCount_append (a b : List (Call × Nat)) :
    blockCount (a ++ b) = blockCount a + blockCount b := List.countP_append

@[simp] theorem blockCount_resubmit (options : GasOptions) (time : Nat) :
    blockCount [(.resubmit options, time)] = 0 := rfl

@[simp] theorem blockCount_watchCalls (p : Position) : blockCount (watchCalls w s p) = 0 := by
  rw [blockCount, List.countP_eq_zero]
  intro entry hentry
  obtain ⟨time, -, rfl⟩ := List.mem_map.mp hentry
  exact of_decide_eq_false rfl

/-- A call of a log that ends the run with an error: what was asked before it, the call, the error,
and how long it took to fail. -/
inductive Fatal (s : Surroundings) (first : Transaction) (before : List (Call × Nat)) :
    Call → ChainError → Nat → Prop where
  /-- The caller fails, and says so itself. -/
  | kept {options : GasOptions} {text : String}
      (answer : (s.resubmit (requests before).length options).answer = .error (.resubmission text)) :
      Fatal s first before (.resubmit options) (.resubmission text)
        (s.resubmit (requests before).length options).delay
  /-- The caller fails for another reason, which becomes a text. -/
  | wrapped {options : GasOptions} {cause : ChainError}
      (answer : (s.resubmit (requests before).length options).answer = .error cause)
      (other : ∀ text, cause ≠ .resubmission text) :
      Fatal s first before (.resubmit options) (.resubmission cause.message)
        (s.resubmit (requests before).length options).delay
  /-- The latest broadcast makes a dynamic offer, and the latest block has no base fee. -/
  | noBaseFee {cap tip : Word} {header : Header}
      (current : (latest s first before).transaction.offer = .dynamic cap tip)
      (answer : (s.block (blockCount before)).answer = .ok header)
      (baseFee : header.baseFee = none) :
      Fatal s first before .latestBlock .baseFeeUnavailable (s.block (blockCount before)).delay
  /-- The latest block does not come. -/
  | noBlock {cause : ChainError} (answer : (s.block (blockCount before)).answer = .error cause) :
      Fatal s first before .latestBlock cause (s.block (blockCount before)).delay

/-- A request fails for good if the caller fails. -/
theorem fatal_resubmit_iff {before : List (Call × Nat)} {options : GasOptions} {cause : ChainError}
    {delay : Nat} :
    Fatal s first before (.resubmit options) cause delay ↔
      delay = (s.resubmit (requests before).length options).delay ∧
      ∃ reason, (s.resubmit (requests before).length options).answer = .error reason ∧
        cause = resubmissionError reason := by
  constructor
  · intro h
    cases h with
    | kept answer => exact ⟨rfl, _, answer, rfl⟩
    | @wrapped _ reason answer other =>
      refine ⟨rfl, reason, answer, ?_⟩
      cases reason with
      | resubmission text => exact absurd rfl (other text)
      | _ => rfl
  · rintro ⟨rfl, reason, answer, rfl⟩
    cases reason with
    | resubmission text => exact .kept answer
    | _ => exact .wrapped answer (by simp)

/-- A block lookup fails for good if no block comes, or one without the base fee that is needed. -/
theorem fatal_latestBlock_iff {before : List (Call × Nat)} {cause : ChainError} {delay : Nat} :
    Fatal s first before .latestBlock cause delay ↔
      delay = (s.block (blockCount before)).delay ∧
      ((s.block (blockCount before)).answer = .error cause ∨
        ∃ cap tip header, (latest s first before).transaction.offer = .dynamic cap tip ∧
          (s.block (blockCount before)).answer = .ok header ∧ header.baseFee = none ∧
          cause = .baseFeeUnavailable) := by
  constructor
  · intro h
    cases h with
    | noBlock answer => exact ⟨rfl, .inl answer⟩
    | noBaseFee current answer baseFee =>
      exact ⟨rfl, .inr ⟨_, _, _, current, answer, baseFee, rfl⟩⟩
  · rintro ⟨rfl, answer | ⟨cap, tip, header, current, answer, baseFee, rfl⟩⟩
    · exact .noBlock answer
    · exact .noBaseFee current answer baseFee

theorem Fatal.isLookup {before : List (Call × Nat)} {call : Call} {cause : ChainError} {delay : Nat}
    (h : Fatal s first before call cause delay) : call.isLookup = false := by
  cases h <;> rfl

/-! ## The price of a replacement -/

/-- What a price knows of the log before it: the transaction that is out, and the numbers of the
next request and the next block. -/
structure Knows (s : Surroundings) (first : Transaction) (before : List (Call × Nat))
    (p : Position) : Prop where
  current : (latest s first before).transaction = p.current
  requests : (requests before).length = p.resubmissions
  blocks : blockCount before = p.blocks

/-- The lookups of a window change nothing about that. -/
theorem Knows.watched {before : List (Call × Nat)} {p : Position} (h : Knows s first before p) :
    Knows s first (before ++ watchCalls w s p) p where
  current := by rw [latest_append_of_requests_nil (requests_watchCalls p), h.current]
  requests := by rw [requests_append, requests_watchCalls, List.append_nil, h.requests]
  blocks := by rw [blockCount_append, blockCount_watchCalls, h.blocks, Nat.add_zero]

/-- A price that asks for a block has it when the block is answered. -/
theorem pricing_now {p : Position} {time : Nat}
    (asked : (pricing w s p).calls = [(.latestBlock, time)]) :
    (pricing w s p).now = time + (s.block p.blocks).delay := by
  have hcases := pricing_cases w s p
  generalize pricing w s p = q at hcases asked ⊢
  cases hcases <;> cases asked <;> rfl

/-- A price fails exactly if its block does, and with the same error. -/
theorem Knows.fatal_iff {before : List (Call × Nat)} {p : Position} {cause : ChainError}
    {time delay : Nat} (h : Knows s first before p)
    (asked : (pricing w s p).calls = [(.latestBlock, time)]) :
    Fatal s first before .latestBlock cause delay ↔
      delay = (s.block p.blocks).delay ∧ (pricing w s p).pricing = .failed cause := by
  have hcases := pricing_cases w s p
  generalize pricing w s p = q at hcases asked ⊢
  rw [fatal_latestBlock_iff, h.current, h.blocks]
  cases hcases with
  | legacy current => cases asked
  | noBlock current answer => simp [answer]
  | noBaseFee current answer baseFee => simp [current, answer, baseFee, eq_comm]
  | noRoom current answer baseFee raised => simp [answer, baseFee]
  | dynamic current answer baseFee raised => simp [answer, baseFee]

/-- A price keeps count of the blocks. -/
theorem pricing_blocks (p : Position) :
    (pricing w s p).blocks = p.blocks + blockCount (pricing w s p).calls := by
  have hcases := pricing_cases w s p
  generalize pricing w s p = q at hcases
  cases hcases <;> rfl

theorem singleton_eq_append_cons {α : Type} {x y : α} {before after : List α}
    (h : [x] = before ++ y :: after) : before = [] ∧ x = y ∧ after = [] := by
  rcases List.singleton_eq_append_iff.mp h with ⟨hbefore, hrest⟩ | ⟨-, hrest⟩
  · rw [List.cons.injEq] at hrest
    exact ⟨hbefore, hrest.1.symm, hrest.2⟩
  · cases hrest

/-- A call of a price that fails for good is the only one, and the price fails with it. -/
theorem Knows.pricing_of_fatal {before more after : List (Call × Nat)} {p : Position} {call : Call}
    {cause : ChainError} {time delay : Nat} (h : Knows s first before p)
    (hsplit : (pricing w s p).calls = more ++ (call, time) :: after)
    (fatal : Fatal s first (before ++ more) call cause delay) :
    after = [] ∧ call = .latestBlock ∧ (pricing w s p).pricing = .failed cause ∧
      (pricing w s p).now = time + delay := by
  rcases pricing_calls (w := w) (s := s) p with hnone | hone
  · rw [hnone] at hsplit
    simp at hsplit
  · rw [hone] at hsplit
    obtain ⟨rfl, hentry, rfl⟩ := singleton_eq_append_cons hsplit
    cases hentry
    rw [List.append_nil] at fatal
    obtain ⟨rfl, hfailed⟩ := (h.fatal_iff hone).mp fatal
    exact ⟨rfl, rfl, hfailed, pricing_now hone⟩

/-- Where the price came out, the request is the only call that can fail for good. -/
theorem Knows.request_of_fatal {before more after : List (Call × Nat)} {p : Position} {call : Call}
    {cause : ChainError} {time now delay : Nat} {options : GasOptions} {offer : FeeOffer}
    (h : Knows s first before p) (priced : (pricing w s p).pricing = .offer offer)
    (hsplit : (pricing w s p).calls ++ [(.resubmit options, now)] = more ++ (call, time) :: after)
    (fatal : Fatal s first (before ++ more) call cause delay) :
    after = [] ∧ call = .resubmit options ∧ time = now ∧
      delay = (s.resubmit p.resubmissions options).delay ∧
      ∃ reason, (s.resubmit p.resubmissions options).answer = .error reason ∧
        cause = resubmissionError reason := by
  rcases append_eq_append_cons hsplit with ⟨rest, hpricing⟩ | ⟨others, rfl, hrequest⟩
  · obtain ⟨-, -, hfailed, -⟩ := h.pricing_of_fatal hpricing fatal
    rw [priced] at hfailed
    cases hfailed
  · obtain ⟨rfl, hentry, rfl⟩ := singleton_eq_append_cons hrequest
    cases hentry
    have hnumber : (Mining.requests (before ++ ((pricing w s p).calls ++ []))).length
        = p.resubmissions := by
      simp [h.requests]
    rw [fatal_resubmit_iff, hnumber] at fatal
    exact ⟨rfl, rfl, rfl, fatal⟩

/-! ## One round -/

/-- The counter of waiters that stopped because the caller failed. -/
def Trace.refusedCount (trace : Trace) : Nat :=
  trace.samples.count (.giveUp resubmissionFailedLabel)

theorem Trace.refusedCount_append (a b : Trace) :
    (a ++ b).refusedCount = a.refusedCount + b.refusedCount := List.count_append

theorem label_ne_resubmissionFailed (reason : GiveUpReason) :
    reason.label ≠ resubmissionFailedLabel := by
  cases reason <;> decide

/-- A round that does not end with an error is not counted among those whose caller failed. -/
theorem RoundEnd.refusedCount_eq_zero {p : Position} {later : Trace} {next : Next}
    (h : RoundEnd w s first p later next)
    (sound : ∀ cause finished, next ≠ .finish ⟨.error cause, finished⟩) :
    later.refusedCount = 0 := by
  cases h with
  | mined found => rfl
  | ceilingReached found reached => rfl
  | unpriced found below priced => rfl
  | noRoom found below priced =>
    simp [Trace.refusedCount, label_ne_resubmissionFailed]
  | refused found below priced answer => exact absurd rfl (sound _ _)
  | replaced found below priced answer => simp [Trace.refusedCount]

/-- A round that ends with an error does so at its last call, which fails for good. -/
theorem RoundEnd.fatal_of_error {calls : List (Call × Nat)} {p : Position} {later : Trace}
    {cause : ChainError} {finished : Nat} (knows : Knows s first calls p)
    (h : RoundEnd w s first p later (.finish ⟨.error cause, finished⟩)) :
    ∃ before call time delay, later.calls = before ++ [(call, time)] ∧
      Fatal s first (calls ++ before) call cause delay ∧ finished = time + delay := by
  have hwatched := knows.watched (w := w)
  cases h with
  | unpriced found below priced =>
    have asked := pricing_failed priced
    exact ⟨watchCalls w s p, .latestBlock, _, _, by rw [asked],
      (hwatched.fatal_iff asked).mpr ⟨rfl, priced⟩, pricing_now asked⟩
  | refused found below priced answer =>
    -- the request stands last, and its number is that of the requests before the round
    refine ⟨watchCalls w s p ++ (pricing w s p).calls, .resubmit _, _, _, rfl, ?_, rfl⟩
    have hrequests : (requests (calls ++ (watchCalls w s p ++ (pricing w s p).calls))).length
        = p.resubmissions := by
      simp [knows.requests]
    rw [fatal_resubmit_iff, hrequests]
    exact ⟨rfl, _, answer, rfl⟩

theorem isLookup_of_watchCalls {p : Position} {before after : List (Call × Nat)} {call : Call}
    {time : Nat} (h : watchCalls w s p = before ++ (call, time) :: after) :
    call.isLookup = true := by
  have hmem : (call, time) ∈ watchCalls w s p := by
    rw [h]
    exact List.mem_append_right _ (List.mem_cons_self ..)
  obtain ⟨start, -, hentry⟩ := List.mem_map.mp hmem
  cases hentry
  rfl

/-- What is not a lookup stands behind those of the window. -/
theorem split_watchCalls {p : Position} {tail before after : List (Call × Nat)} {call : Call}
    {time : Nat} (hsplit : watchCalls w s p ++ tail = before ++ (call, time) :: after)
    (hcall : call.isLookup = false) :
    ∃ more, before = watchCalls w s p ++ more ∧ tail = more ++ (call, time) :: after := by
  rcases append_eq_append_cons hsplit with ⟨rest, hwatch⟩ | hmore
  · rw [isLookup_of_watchCalls hwatch] at hcall
    cases hcall
  · exact hmore

/-- A call of a round that fails for good is the round's last one and ends the run; it is counted
where it was the caller who failed. -/
theorem RoundEnd.error_of_fatal {calls before after : List (Call × Nat)} {p : Position}
    {later : Trace} {next : Next} {call : Call} {time delay : Nat} {cause : ChainError}
    (knows : Knows s first calls p) (h : RoundEnd w s first p later next)
    (hsplit : later.calls = before ++ (call, time) :: after)
    (fatal : Fatal s first (calls ++ before) call cause delay) :
    after = [] ∧ next = .finish ⟨.error cause, time + delay⟩ ∧
      later.refusedCount = if call.request?.isSome then 1 else 0 := by
  have hwatched := knows.watched (w := w)
  -- what fails for good is no lookup, so it stands behind those of the window
  cases h with
  | mined found =>
    have hlookup := isLookup_of_watchCalls hsplit
    rw [fatal.isLookup] at hlookup
    cases hlookup
  | ceilingReached found reached =>
    have hlookup := isLookup_of_watchCalls hsplit
    rw [fatal.isLookup] at hlookup
    cases hlookup
  | unpriced found below priced =>
    obtain ⟨more, rfl, htail⟩ := split_watchCalls hsplit fatal.isLookup
    rw [← List.append_assoc] at fatal
    obtain ⟨rfl, rfl, hfailed, hnow⟩ := hwatched.pricing_of_fatal htail fatal
    rw [priced] at hfailed
    cases hfailed
    exact ⟨rfl, by rw [hnow], rfl⟩
  | noRoom found below priced =>
    obtain ⟨more, rfl, htail⟩ := split_watchCalls hsplit fatal.isLookup
    rw [← List.append_assoc] at fatal
    obtain ⟨-, -, hfailed, -⟩ := hwatched.pricing_of_fatal htail fatal
    rw [priced] at hfailed
    cases hfailed
  | refused found below priced answer =>
    rw [List.append_assoc] at hsplit
    obtain ⟨more, rfl, htail⟩ := split_watchCalls hsplit fatal.isLookup
    rw [← List.append_assoc] at fatal
    obtain ⟨rfl, rfl, rfl, rfl, reason, hreason, rfl⟩ :=
      hwatched.request_of_fatal priced htail fatal
    rw [answer] at hreason
    cases hreason
    exact ⟨rfl, rfl, by simp [Trace.refusedCount, Call.request?]⟩
  | replaced found below priced answer =>
    rw [List.append_assoc] at hsplit
    obtain ⟨more, rfl, htail⟩ := split_watchCalls hsplit fatal.isLookup
    rw [← List.append_assoc] at fatal
    obtain ⟨-, -, -, -, reason, hreason, -⟩ := hwatched.request_of_fatal priced htail fatal
    rw [answer] at hreason
    cases hreason

/-! ## Whole runs -/

/-- The position of a run knows its log. -/
theorem Reaches.knows {trace : Trace} {p : Position} (h : Reaches w s first trace p) :
    Knows s first trace.calls p where
  current := by rw [h.agrees.latest]
  requests := h.agrees.requests
  blocks := by
    induction h with
    | start => rfl
    | round reached next ih =>
      cases next with
      | replaced found below priced answer =>
        simp only [Trace.calls_append, blockCount_append, blockCount_watchCalls,
          blockCount_resubmit, ih, pricing_blocks, Nat.zero_add, Nat.add_zero]

/-- A run that goes on has met no failure for good, and counted none. -/
theorem Reaches.not_fatal {trace : Trace} {p : Position} (h : Reaches w s first trace p) :
    trace.refusedCount = 0 ∧
      ∀ {before after : List (Call × Nat)} {call : Call} {time delay : Nat} {cause : ChainError},
        trace.calls = before ++ (call, time) :: after →
        ¬ Fatal s first before call cause delay := by
  induction h with
  | start =>
    refine ⟨rfl, fun hsplit => ?_⟩
    simp at hsplit
  | round reached next ih =>
    refine ⟨?_, fun hsplit fatal => ?_⟩
    · rw [Trace.refusedCount_append, ih.1, next.refusedCount_eq_zero fun _ _ => nofun]
    · rcases append_eq_append_cons hsplit with ⟨rest, hold⟩ | ⟨more, rfl, hnew⟩
      · exact ih.2 hold fatal
      · obtain ⟨-, hends, -⟩ := next.error_of_fatal reached.knows hnew fatal
        cases hends

/-- A run that ends with an error has met it at its last call. -/
theorem Course.fatal_of_error {limit : Nat} {trace : Trace}
    {outcome : Option (Except Fault Ending)} {cause : ChainError} {finished : Nat}
    (h : Course w s first limit trace outcome)
    (failed : outcome = some (.ok ⟨.error cause, finished⟩)) :
    ∃ before call time delay, trace.calls = before ++ [(call, time)] ∧
      Fatal s first before call cause delay ∧ finished = time + delay := by
  cases h with
  | fault zero below => cases failed
  | atCeiling reached => cases failed
  | goingOn below reached rounds => cases failed
  | @ended trace last p ending below reached rounds finish =>
    cases failed
    obtain ⟨before, call, time, delay, hcalls, hfatal, hfinished⟩ :=
      finish.fatal_of_error reached.knows
    refine ⟨trace.calls ++ before, call, time, delay, ?_, hfatal, hfinished⟩
    rw [Trace.calls_append, hcalls, List.append_assoc]

/-- A failure for good is the last that a run meets. -/
theorem Course.error_of_fatal {limit : Nat} {trace : Trace}
    {outcome : Option (Except Fault Ending)} {before after : List (Call × Nat)} {call : Call}
    {time delay : Nat} {cause : ChainError} (h : Course w s first limit trace outcome)
    (hsplit : trace.calls = before ++ (call, time) :: after)
    (fatal : Fatal s first before call cause delay) :
    after = [] ∧ outcome = some (.ok ⟨.error cause, time + delay⟩) ∧
      trace.refusedCount = if call.request?.isSome then 1 else 0 := by
  cases h with
  | fault zero below => simp at hsplit
  | atCeiling reached => simp at hsplit
  | goingOn below reached rounds => exact absurd fatal (reached.not_fatal.2 hsplit)
  | ended below reached rounds finish =>
    rcases append_eq_append_cons hsplit with ⟨rest, hold⟩ | ⟨more, rfl, hnew⟩
    · exact absurd fatal (reached.not_fatal.2 hold)
    · obtain ⟨rfl, hends, hcount⟩ := finish.error_of_fatal reached.knows hnew fatal
      cases hends
      refine ⟨rfl, rfl, ?_⟩
      rw [Trace.refusedCount_append, reached.not_fatal.1, hcount, Nat.zero_add]

theorem Course.refusedCount_eq_zero {limit : Nat} {trace : Trace}
    {outcome : Option (Except Fault Ending)} (h : Course w s first limit trace outcome)
    (sound : ∀ cause finished, outcome ≠ some (.ok ⟨.error cause, finished⟩)) :
    trace.refusedCount = 0 := by
  cases h with
  | fault zero below => rfl
  | atCeiling reached => rfl
  | goingOn below reached rounds => exact reached.not_fatal.1
  | ended below reached rounds finish =>
    rw [Trace.refusedCount_append, reached.not_fatal.1, finish.refusedCount_eq_zero]
    rintro cause finished hends
    cases hends
    exact sound cause finished rfl

/-- Lookups that fail instead of being answered with "not mined" change nothing about a run. A run
ends with an error only if its last call failed for good. A call that fails for good is the last
one, the run ends with its error when it fails, and the counter of failed callers counts it once if
it was the caller who failed. That counter counts nothing else. -/
theorem failures_tolerated_or_fatal (w : Waiter) (s : Surroundings) (first : Transaction)
    (limit : Nat) :
    (∀ t, FailsMore s t → w.follow t first limit = w.follow s first limit) ∧
    (∀ cause finished, (w.follow s first limit).2 = some (.ok ⟨.error cause, finished⟩) →
      ∃ before call time delay, (w.follow s first limit).1.calls = before ++ [(call, time)] ∧
        Fatal s first before call cause delay ∧ finished = time + delay) ∧
    (∀ before call time after cause delay,
      (w.follow s first limit).1.calls = before ++ (call, time) :: after →
      Fatal s first before call cause delay →
      after = [] ∧ (w.follow s first limit).2 = some (.ok ⟨.error cause, time + delay⟩) ∧
        (w.follow s first limit).1.refusedCount = if call.request?.isSome then 1 else 0) ∧
    ((∀ cause finished, (w.follow s first limit).2 ≠ some (.ok ⟨.error cause, finished⟩)) →
      (w.follow s first limit).1.refusedCount = 0) := by
  have hcourse := follow_course w s first limit
  exact ⟨fun t h => h.follow limit, fun cause finished => hcourse.fatal_of_error,
    fun before call time after cause delay => hcourse.error_of_fatal, hcourse.refusedCount_eq_zero⟩

/-- Quiet surroundings, but for a caller who fails for this reason. -/
def refusing (cause : ChainError) : Surroundings :=
  { quiet none with resubmit := fun _ _ => ⟨0, .error cause⟩ }

/-- The same surroundings with a node that cannot look receipts up. -/
def Surroundings.receiptsDown (s : Surroundings) : Surroundings :=
  { s with receipt := fun _ _ => ⟨0, .error (.rpc "eth_getTransactionReceipt" "timed out")⟩ }

/-- A transaction whose receipts cannot be looked up is not replaced either, since its caller
fails: the run ends with the caller's reason, and is counted once. -/
theorem refused_at_first_replacement :
    (Waiter.follow ⟨10, 10, .clamp 4⟩
        (refusing (.rpc "eth_sendRawTransaction" "nonce too low")).receiptsDown
        (offering (.legacy (.clamp 3))) 1).2
      = some (.ok ⟨.error (.resubmission
          (ChainError.rpc "eth_sendRawTransaction" "nonce too low").message), 10⟩) ∧
    (Waiter.follow ⟨10, 10, .clamp 4⟩
        (refusing (.rpc "eth_sendRawTransaction" "nonce too low")).receiptsDown
        (offering (.legacy (.clamp 3))) 1).1.refusedCount = 1 := by
  obtain ⟨htolerated, -, hfatal, -⟩ := failures_tolerated_or_fatal ⟨10, 10, .clamp 4⟩
    (refusing (.rpc "eth_sendRawTransaction" "nonce too low")) (offering (.legacy (.clamp 3))) 1
  have hdown : FailsMore (refusing (.rpc "eth_sendRawTransaction" "nonce too low"))
      (refusing (.rpc "eth_sendRawTransaction" "nonce too low")).receiptsDown :=
    ⟨fun _ _ => .failed 0 _, rfl, rfl⟩
  obtain ⟨-, hends, hcount⟩ := hfatal
    [(.lookup (.ofUInt64 1), 0), (.lookup (.ofUInt64 1), 10)]
    (.resubmit (request (offering (.legacy (.clamp 3))) (.legacy (.clamp 4)))) 10 [] _ _ rfl
    (.wrapped rfl nofun)
  rw [htolerated _ hdown]
  exact ⟨hends, hcount⟩

end ChainWatch.Mining
