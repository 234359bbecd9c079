import ChainWatch.Nonce

/-!
# The tracked nonce over whole runs

The node and the tracker overtake each other in any order, but the tracked nonce does not depend on
that order: it is the largest of the number of increments and of every answer of the node counted
up by the increments that came after it (`largestKnown`). The proof carries the tracked nonce along
as one more answer, given before the first request (`knownFrom`, `knownFrom_step`).

From there, nothing that is asked of a tracker lowers its nonce, and a caller that moves it on after
every broadcast that the node took never uses a nonce twice (`broadcasts_from`).
-/

namespace ChainWatch.Nonce

/-! ## What is known of the nonce -/

/-- How often the tracker is moved on. -/
def increments : List Request → Nat
  | [] => 0
  | .increment :: rest => increments rest + 1
  | .current _ :: rest => increments rest

/-- What each answer of the node says about the nonce at the end: the answer itself, counted up by
the increments after it. -/
def reports : List Request → List Nat
  | [] => []
  | .current (.ok node) :: rest => (node.toNat + increments rest) :: reports rest
  | _ :: rest => reports rest

/-- The largest nonce that is known at the end, from here or from the node. -/
def largestKnown (requests : List Request) : Nat := (reports requests).foldr max (increments requests)

/-- No increment is applied to the largest nonce. -/
def Unbroken (tracked : UInt64) (requests : List Request) : Prop :=
  ∀ before rest, requests = before ++ .increment :: rest →
    (after tracked before).toNat ≠ UInt64.size - 1

theorem after_cons (tracked : UInt64) (request : Request) (rest : List Request) :
    after tracked (request :: rest) = after (step tracked request).1 rest :=
  rfl

theorem after_append (tracked : UInt64) (before rest : List Request) :
    after tracked (before ++ rest) = after (after tracked before) rest :=
  List.foldl_append

namespace Unbroken

variable {tracked : UInt64} {request : Request} {before rest : List Request}

theorem tail (h : Unbroken tracked (request :: rest)) : Unbroken (step tracked request).1 rest := by
  intro before later heq
  exact h (request :: before) later (by rw [heq, List.cons_append])

theorem of_append (h : Unbroken tracked (before ++ rest)) : Unbroken tracked before := by
  intro first later heq
  exact h first (later ++ rest) (by rw [heq, List.append_assoc, List.cons_append])

theorem head (h : Unbroken tracked (.increment :: rest)) :
    tracked.toNat ≠ UInt64.size - 1 :=
  h [] rest rfl

end Unbroken

/-! ## Single requests -/

theorem step_current (tracked node : UInt64) :
    step tracked (.current (.ok node)) = (reconcile tracked node, .ok (reconcile tracked node)) :=
  rfl

/-- Below the largest nonce an increment moves on by one and says so. -/
theorem step_increment {tracked : UInt64} (h : tracked.toNat ≠ UInt64.size - 1) :
    step tracked .increment = (tracked + 1, .ok (tracked + 1)) ∧
      (tracked + 1).toNat = tracked.toNat + 1 := by
  have hlt : tracked.toNat + 1 < UInt64.size := by
    have := tracked.toNat_lt_size
    omega
  refine ⟨by rw [step, advance, if_pos hlt], ?_⟩
  rw [UInt64.toNat_add, UInt64.toNat_one]
  exact Nat.mod_eq_of_lt hlt

/-- At the largest nonce an increment breaks down and changes nothing. -/
theorem step_increment_last {tracked : UInt64} (h : tracked.toNat = UInt64.size - 1) :
    step tracked .increment = (tracked, .fault .sumOverflow) := by
  have hnot : ¬ tracked.toNat + 1 < UInt64.size := by
    rw [h]
    decide
  rw [step, advance, if_neg hnot]

/-- Nothing that is asked of a tracker lowers its nonce. -/
theorem le_step (tracked : UInt64) (request : Request) : tracked ≤ (step tracked request).1 := by
  rw [UInt64.le_iff_toNat_le]
  match request with
  | .current (.ok node) =>
    rw [step_current, toNat_reconcile]
    exact Nat.le_max_left _ _
  | .current (.error _) => exact Nat.le_refl _
  | .increment =>
    by_cases h : tracked.toNat = UInt64.size - 1
    · exact Nat.le_of_eq (congrArg (fun answered => answered.1.toNat) (step_increment_last h).symm)
    · rw [(step_increment h).1, (step_increment h).2]
      exact Nat.le_succ _

theorem le_after (tracked : UInt64) (requests : List Request) : tracked ≤ after tracked requests := by
  induction requests generalizing tracked with
  | nil => exact UInt64.le_refl _
  | cons request rest ih => exact UInt64.le_trans (le_step tracked request) (ih _)

/-! ## The closed form -/

/-- What is known at the end if the tracker starts from a nonce: it counts like an answer of the
node that came before all requests. -/
def knownFrom (tracked : UInt64) (requests : List Request) : Nat :=
  (reports requests).foldr max (tracked.toNat + increments requests)

theorem knownFrom_zero (requests : List Request) : knownFrom 0 requests = largestKnown requests := by
  rw [knownFrom, largestKnown, UInt64.toNat_zero, Nat.zero_add]

/-- A request moves what it says from the requests to the tracked nonce. -/
theorem knownFrom_step {tracked : UInt64} {request : Request} (rest : List Request)
    (h : request = .increment → tracked.toNat ≠ UInt64.size - 1) :
    knownFrom (step tracked request).1 rest = knownFrom tracked (request :: rest) := by
  match request with
  | .current (.ok node) =>
    have hreports : reports (.current (.ok node) :: rest)
        = (node.toNat + increments rest) :: reports rest := rfl
    have hcount : increments (.current (.ok node) :: rest) = increments rest := rfl
    rw [knownFrom, knownFrom, step_current, toNat_reconcile, hreports, hcount, List.foldr_cons,
      ← Nat.add_max_add_right, List.foldr_assoc, Nat.max_comm]
  | .current (.error _) => rfl
  | .increment =>
    have hreports : reports (.increment :: rest) = reports rest := rfl
    have hcount : increments (.increment :: rest) = increments rest + 1 := rfl
    rw [knownFrom, knownFrom, (step_increment (h rfl)).1, (step_increment (h rfl)).2, hreports,
      hcount, Nat.add_right_comm, Nat.add_assoc]

/-- The tracked nonce after a list of requests. -/
theorem toNat_after {tracked : UInt64} {requests : List Request} (h : Unbroken tracked requests) :
    (after tracked requests).toNat = knownFrom tracked requests := by
  induction requests generalizing tracked with
  | nil => rfl
  | cons request rest ih =>
    rw [after_cons, ih h.tail, knownFrom_step rest fun heq => (heq ▸ h).head]

theorem le_foldr_max (reports : List Nat) (least : Nat) : least ≤ reports.foldr max least := by
  induction reports with
  | nil => exact Nat.le_refl _
  | cons report rest ih => exact Nat.le_trans ih (Nat.le_max_right _ _)

/-- The nonces last as long as the largest known one is a nonce. -/
theorem unbroken_of_knownFrom_lt {tracked : UInt64} {requests : List Request}
    (h : knownFrom tracked requests < UInt64.size) : Unbroken tracked requests := by
  induction requests generalizing tracked with
  | nil => exact fun before rest heq => absurd heq (by simp)
  | cons request rest ih =>
    have hhead : request = .increment → tracked.toNat ≠ UInt64.size - 1 := by
      rintro rfl
      have hleast : tracked.toNat + (increments rest + 1) ≤ knownFrom tracked (.increment :: rest) :=
        le_foldr_max _ _
      omega
    have htail : Unbroken (step tracked request).1 rest := ih (by rwa [knownFrom_step rest hhead])
    intro before later heq
    match before with
    | [] =>
      obtain ⟨rfl, -⟩ := List.cons.inj heq
      exact hhead rfl
    | _ :: before =>
      obtain ⟨rfl, hrest⟩ := List.cons.inj heq
      exact htail before later hrest

/-! ## The answers -/

theorem run_cons (tracked : UInt64) (request : Request) (rest : List Request) :
    run tracked (request :: rest) =
      (step tracked request).2 :: run (step tracked request).1 rest :=
  rfl

theorem run_append (tracked : UInt64) (before rest : List Request) :
    run tracked (before ++ rest) = run tracked before ++ run (after tracked before) rest := by
  induction before generalizing tracked with
  | nil => rfl
  | cons request before ih => rw [List.cons_append, run_cons, run_cons, ih, after_cons, List.cons_append]

theorem length_run (tracked : UInt64) (requests : List Request) :
    (run tracked requests).length = requests.length := by
  induction requests generalizing tracked with
  | nil => rfl
  | cons request rest ih => rw [run_cons, List.length_cons, List.length_cons, ih]

/-- The answer to a request in a list is that of the single request, given what is tracked by
then. -/
theorem run_getElem? (tracked : UInt64) (before rest : List Request) (request : Request) :
    (run tracked (before ++ request :: rest))[before.length]? =
      some (step (after tracked before) request).2 := by
  have hlength : before.length = (run tracked before).length := (length_run ..).symm
  rw [run_append, hlength, List.getElem?_append_right (Nat.le_refl _), Nat.sub_self, run_cons]
  rfl

theorem after_snoc (tracked : UInt64) (before : List Request) (request : Request) :
    after tracked (before ++ [request]) = (step (after tracked before) request).1 :=
  after_append tracked before [request]

/-! ## Broadcasts -/

/-- From any tracked nonce on, the nonces of the broadcasts go up, and each is at least what the
node had reported for it. -/
theorem broadcasts_from (tracked : UInt64) (attempts : List Attempt) :
    (broadcasts tracked attempts).Pairwise (fun earlier later => earlier.nonce < later.nonce) ∧
      ∀ b ∈ broadcasts tracked attempts, tracked ≤ b.nonce ∧ b.reported ≤ b.nonce := by
  induction attempts generalizing tracked with
  | nil => exact ⟨.nil, fun b hmem => absurd hmem List.not_mem_nil⟩
  | cons a rest ih =>
    obtain ⟨node, taken⟩ := a
    cases node with
    | error cause => exact ih tracked
    | ok reported =>
      obtain ⟨nonce, hnonce⟩ : ∃ nonce, nonce = reconcile tracked reported := ⟨_, rfl⟩
      have hnat : nonce.toNat = max tracked.toNat reported.toNat := by rw [hnonce, toNat_reconcile]
      have htracked : tracked ≤ nonce := UInt64.le_iff_toNat_le.mpr (by omega)
      have hreported : reported ≤ nonce := UInt64.le_iff_toNat_le.mpr (by omega)
      rw [broadcasts, step_current, ← hnonce]
      dsimp only
      cases taken with
      | false =>
        obtain ⟨hup, hall⟩ := ih nonce
        exact ⟨hup, fun b hmem => ⟨UInt64.le_trans htracked (hall b hmem).1, (hall b hmem).2⟩⟩
      | true =>
        rw [if_pos rfl]
        by_cases hlast : nonce.toNat = UInt64.size - 1
        · -- the largest nonce was used: the caller ends with this broadcast
          rw [step_increment_last hlast]
          refine ⟨List.pairwise_singleton _ _, fun b hmem => ?_⟩
          rw [List.mem_singleton.mp hmem]
          exact ⟨htracked, hreported⟩
        · obtain ⟨hstep, hnext⟩ := step_increment hlast
          rw [hstep]
          obtain ⟨hup, hall⟩ := ih (nonce + 1)
          have habove : ∀ b ∈ broadcasts (nonce + 1) rest, nonce < b.nonce := by
            intro b hmem
            have hle := UInt64.le_iff_toNat_le.mp (hall b hmem).1
            exact UInt64.lt_iff_toNat_lt.mpr (by omega)
          refine ⟨List.pairwise_cons.mpr ⟨habove, hup⟩, fun b hmem => ?_⟩
          rcases List.mem_cons.mp hmem with rfl | hmem
          · exact ⟨htracked, hreported⟩
          · exact ⟨UInt64.le_trans htracked (UInt64.le_of_lt (habove b hmem)), (hall b hmem).2⟩

/-! ## What a tracker can be relied on for -/

/-- What a tracker that starts at zero does with a list of requests. -/
structure Tracked (requests : List Request) : Prop where
  /-- While the nonces last, the tracked one is the largest known at every moment. -/
  largest : Unbroken 0 requests → ∀ before rest, requests = before ++ rest →
    (after 0 before).toNat = largestKnown before
  /-- Whoever asks is told the nonce that is tracked from then on. -/
  told : ∀ before node rest, requests = before ++ .current (.ok node) :: rest →
    (run 0 requests)[before.length]? = some (.ok (after 0 (before ++ [.current (.ok node)])))
  /-- So is whoever moves the tracker on. -/
  moved : ∀ before rest, requests = before ++ .increment :: rest →
    (after 0 before).toNat ≠ UInt64.size - 1 →
    (run 0 requests)[before.length]? = some (.ok (after 0 (before ++ [.increment])))
  /-- A query that fails changes nothing. -/
  failed : ∀ before cause rest, requests = before ++ .current (.error cause) :: rest →
    (run 0 requests)[before.length]? = some (.error cause) ∧
      after 0 (before ++ [.current (.error cause)]) = after 0 before
  /-- Nor does an increment of the largest nonce, which is a fault. -/
  exhausted : ∀ before rest, requests = before ++ .increment :: rest →
    (after 0 before).toNat = UInt64.size - 1 →
    (run 0 requests)[before.length]? = some (.fault .sumOverflow) ∧
      after 0 (before ++ [.increment]) = after 0 before
  /-- The tracked nonce never goes down. -/
  forward : ∀ before rest, requests = before ++ rest → after 0 before ≤ after 0 requests

/-- A tracker follows the largest nonce that is known, and those who broadcast with it never use a
nonce twice nor one below what the node had reported. -/
theorem nonces_tracked :
    (∀ requests, Tracked requests) ∧
      ∀ attempts,
        (broadcasts 0 attempts).Pairwise (fun earlier later => earlier.nonce < later.nonce) ∧
          ∀ b ∈ broadcasts 0 attempts, b.reported ≤ b.nonce := by
  refine ⟨fun requests => ?_, fun attempts => ?_⟩
  · exact {
      largest := by
        rintro hunbroken before rest rfl
        rw [toNat_after hunbroken.of_append, knownFrom_zero]
      told := by
        rintro before node rest rfl
        rw [run_getElem?, after_snoc, step_current]
      moved := by
        rintro before rest rfl hlast
        rw [run_getElem?, after_snoc, (step_increment hlast).1]
      failed := by
        rintro before cause rest rfl
        rw [run_getElem?, after_snoc]
        exact ⟨rfl, rfl⟩
      exhausted := by
        rintro before rest rfl hlast
        rw [run_getElem?, after_snoc, step_increment_last hlast]
        exact ⟨rfl, rfl⟩
      forward := by
        rintro before rest rfl
        rw [after_append]
        exact le_after _ _ }
  · obtain ⟨hup, hall⟩ := broadcasts_from 0 attempts
    exact ⟨hup, fun b hmem => (hall b hmem).2⟩

/-- The node reports three, then lags behind two broadcasts, then is ahead. -/
def leapfrog : List Request :=
  [.current (.ok 3), .increment, .increment, .current (.ok 2), .current (.error .subscriptionClosed),
    .current (.ok 9), .increment]

/-- What the node reported last, and the increment after it, make up the tracked nonce. -/
theorem nonces_tracked_leapfrog :
    Unbroken 0 leapfrog ∧ (after 0 leapfrog).toNat = largestKnown leapfrog ∧
      largestKnown leapfrog = 10 := by
  have hunbroken : Unbroken 0 leapfrog :=
    unbroken_of_knownFrom_lt (by rw [knownFrom_zero]; decide)
  exact ⟨hunbroken,
    (nonces_tracked.1 leapfrog).largest hunbroken leapfrog [] (List.append_nil _).symm, by decide⟩

end ChainWatch.Nonce
