import ChainWatch.Error
import ChainWatch.Metrics.Gauge

/-!
# Nonces

The next nonce of an account is known from two sides: what was sent from here, and what the node
has seen. The larger of the two wins. Every value that is handed out or reached is shown on a
gauge, a signed 64-bit number. Whoever broadcasts moves the tracker on once for every broadcast that
the node took, and never for one that failed.
-/

namespace ChainWatch.Nonce

/-- The larger of the tracked nonce and the one the node reports. -/
def reconcile (tracked node : UInt64) : UInt64 := if tracked < node then node else tracked

/-- The nonce after one more broadcast; there is none after the largest. -/
def advance (tracked : UInt64) : Except Fault UInt64 :=
  if tracked.toNat + 1 < UInt64.size then .ok (tracked + 1) else .error .sumOverflow

/-- What is asked of the tracker: the nonce to use, given what the node answers, or to move past
a nonce that was broadcast. -/
inductive Request where
  | current (node : Except ChainError UInt64)
  | increment

/-- The tracked nonce after a request, and what the caller gets. -/
def step (tracked : UInt64) : Request → UInt64 × Outcome UInt64
  | .current (.ok node) => (reconcile tracked node, .ok (reconcile tracked node))
  | .current (.error cause) => (tracked, .error cause)
  | .increment =>
    match advance tracked with
    | .ok next => (next, .ok next)
    | .error cause => (tracked, .fault cause)

/-- The answers to a list of requests. -/
def run (tracked : UInt64) : List Request → List (Outcome UInt64)
  | [] => []
  | r :: rest =>
    let (next, answer) := step tracked r
    answer :: run next rest

/-- The tracked nonce after a list of requests. -/
def after (tracked : UInt64) (requests : List Request) : UInt64 :=
  requests.foldl (fun n r => (step n r).1) tracked

/-! ## Broadcasting with a tracker

A caller asks for the nonce, broadcasts with it, and moves the tracker past it once the node has
taken the broadcast. -/

/-- A try to broadcast: what the node answers when it is asked for the nonce, and whether it takes
what is then broadcast. -/
structure Attempt where
  node : Except ChainError UInt64
  taken : Bool

/-- A broadcast that the node took: its nonce, and the one that the node had reported for it. -/
structure Broadcast where
  nonce : UInt64
  reported : UInt64

/-- The broadcasts that the node takes from a caller that makes these attempts, one after another.
Without a nonce nothing is broadcast; a fault ends the caller. -/
def broadcasts (tracked : UInt64) : List Attempt → List Broadcast
  | [] => []
  | a :: rest =>
    match a.node, step tracked (.current a.node) with
    | .ok reported, (told, .ok nonce) =>
      if a.taken then
        ⟨nonce, reported⟩ ::
          match step told .increment with
          | (next, .ok _) => broadcasts next rest
          | _ => []
      else broadcasts told rest
    | _, (kept, _) => broadcasts kept rest

/-! ## The larger side wins -/

theorem toNat_reconcile (tracked node : UInt64) :
    (reconcile tracked node).toNat = max tracked.toNat node.toNat := by
  unfold reconcile
  split <;> rename_i h <;> rw [UInt64.lt_iff_toNat_lt] at h <;> omega

end ChainWatch.Nonce
