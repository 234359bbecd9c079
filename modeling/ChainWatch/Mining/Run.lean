import ChainWatch.Mining.Window

/-!
# Runs of a waiter

A run goes in rounds: a check window and, where it ends without a receipt, a replacement. A round
starts from a position, which says what the time is, which transaction was broadcast last and how
many calls of each sort were made; it ends at the next position or ends the run.

A price at the ceiling ends the run, and so does a ceiling that leaves no room for a replacement a
node accepts. A failed replacement, a failed block lookup and a block without base fee end it with
an error. `run` is given a number of rounds and says `none` where the run goes on beyond them.
-/

namespace ChainWatch.Mining

/-- Where a run stands between two rounds. -/
structure Position where
  now : Nat
  /-- The latest broadcast. -/
  current : Transaction
  lookups : Nat
  blocks : Nat
  resubmissions : Nat

/-- What was asked and counted. -/
structure Trace where
  calls : List (Call × Nat)
  samples : List Metrics.Sample

/-- The trace of nothing. -/
def Trace.empty : Trace := ⟨[], []⟩

/-- One trace after the other. -/
def Trace.append (a b : Trace) : Trace := ⟨a.calls ++ b.calls, a.samples ++ b.samples⟩

instance : Append Trace := ⟨Trace.append⟩

/-- The end of a run. -/
structure Ending where
  outcome : Except ChainError Verdict
  finished : Nat

/-- What the next round is, if there is one. -/
inductive Next where
  | goOn (position : Position)
  | finish (ending : Ending)

/-- A stop without a receipt, counted under its reason. -/
def giveUp (reason : GiveUpReason) (last : Transaction) (now : Nat) : Trace × Ending :=
  (⟨[], [.giveUp reason.label]⟩, ⟨.ok (.gaveUp reason last), now⟩)

/-- How the next price came out. -/
inductive Pricing where
  | offer (offer : FeeOffer)
  | giveUp (reason : GiveUpReason)
  | failed (cause : ChainError)

/-- The price of the next replacement: what was asked for it, how it came out, when, and how many
block lookups were made in all. -/
structure Priced where
  calls : List (Call × Nat)
  pricing : Pricing
  now : Nat
  blocks : Nat

/-- The dynamic price that the latest block asks for. -/
def priceFromBlock (w : Waiter) (cap tip : Word) : Except ChainError Header → Pricing
  | .error cause => .failed cause
  | .ok header =>
    match header.baseFee with
    | none => .failed .baseFeeUnavailable
    | some baseFee =>
      match Fee.raiseDynamic cap tip baseFee w.ceiling with
      | .offer newCap newTip => .offer (.dynamic newCap newTip)
      | .floorAboveCeiling _ => .giveUp .floorAboveCeiling

/-- Prices the next replacement; a dynamic price asks for the latest block first. -/
def price (w : Waiter) (s : Surroundings) (p : Position) (now : Nat) : Priced :=
  match p.current.offer with
  | .legacy amount => ⟨[], .offer (.legacy (Fee.raiseLegacy amount w.ceiling)), now, p.blocks⟩
  | .dynamic cap tip =>
    let reply := s.block p.blocks
    ⟨[(.latestBlock, now)], priceFromBlock w cap tip reply.answer, now + reply.delay, p.blocks + 1⟩

/-- The error of a replacement that failed: kept if it says so itself, else with its text. -/
def resubmissionError : ChainError → ChainError
  | .resubmission cause => .resubmission cause
  | other => .resubmission other.message

/-- Broadcasts a replacement for the first transaction's nonce and gas limit. -/
def replace (s : Surroundings) (first : Transaction) (p : Position) (offer : FeeOffer)
    (now lookups blocks : Nat) : Trace × Next :=
  let options : GasOptions := ⟨first.nonce, first.gasLimit, offer⟩
  let reply := s.resubmit p.resubmissions options
  let calls := [(Call.resubmit options, now)]
  match reply.answer with
  | .ok replacement =>
    (⟨calls, [.escalation offer.kind.label]⟩,
     .goOn ⟨now + reply.delay, replacement, lookups, blocks, p.resubmissions + 1⟩)
  | .error cause =>
    (⟨calls, [.escalation offer.kind.label, .giveUp resubmissionFailedLabel]⟩,
     .finish ⟨.error (resubmissionError cause), now + reply.delay⟩)

/-- What follows a window without a receipt that ended at `now`. -/
def escalate (w : Waiter) (s : Surroundings) (first : Transaction) (p : Position)
    (now lookups : Nat) : Trace × Next :=
  if w.ceiling ≤ p.current.offer.ceilingPrice then
    let (trace, ending) := giveUp .ceilingReached p.current now
    (trace, .finish ending)
  else
    let priced := price w s p now
    match priced.pricing with
    | .failed cause => (⟨priced.calls, []⟩, .finish ⟨.error cause, priced.now⟩)
    | .giveUp reason =>
      let (trace, ending) := giveUp reason p.current priced.now
      (⟨priced.calls, []⟩ ++ trace, .finish ending)
    | .offer offer =>
      let (trace, next) := replace s first p offer priced.now lookups priced.blocks
      (⟨priced.calls, []⟩ ++ trace, next)

/-- One round: a window for the latest broadcast, then a replacement for it. -/
def round (w : Waiter) (s : Surroundings) (first : Transaction) (p : Position) : Trace × Next :=
  let hash := p.current.hash
  let seen := window (fun n => s.receipt n hash) w.window w.poll p.now p.lookups
  let calls := seen.lookups.map fun time => (Call.lookup hash, time)
  match seen.found with
  | some (receipt, time) =>
    (⟨calls, [.mined]⟩, .finish ⟨.ok (.mined p.current receipt), time⟩)
  | none =>
    let (trace, next) :=
      escalate w s first p (p.now + w.window) (p.lookups + seen.lookups.length)
    (⟨calls, []⟩ ++ trace, next)

/-- At most `rounds` rounds from a position. -/
def rounds (w : Waiter) (s : Surroundings) (first : Transaction) :
    Nat → Position → Trace × Option Ending
  | 0, _ => (.empty, none)
  | left + 1, p =>
    let (trace, next) := round w s first p
    match next with
    | .finish ending => (trace, some ending)
    | .goOn position =>
      let (later, ending) := rounds w s first left position
      (trace ++ later, ending)

/-- A run that starts with the broadcast of `first` at time zero, through at most `limit`
rounds. A first transaction that is priced at the ceiling or above is never followed. -/
def run (w : Waiter) (s : Surroundings) (first : Transaction) (limit : Nat) :
    Trace × Option Ending :=
  if w.ceiling ≤ first.offer.ceilingPrice then
    let (trace, ending) := giveUp .firstAtCeiling first 0
    (trace, some ending)
  else rounds w s first limit ⟨0, first, 0, 0, 0⟩

/-- A waiter that has to look for receipts needs a positive poll interval. -/
def fault? (w : Waiter) (first : Transaction) : Option Fault :=
  if w.poll = 0 ∧ first.offer.ceilingPrice < w.ceiling then some .zeroPeriod else none

/-- What a waiter makes of a transaction in at most `limit` rounds: a fault before anything is
asked, or the ending of the run; `none` where the run goes on. -/
def Waiter.follow (w : Waiter) (s : Surroundings) (first : Transaction) (limit : Nat) :
    Trace × Option (Except Fault Ending) :=
  match fault? w first with
  | some cause => (.empty, some (.error cause))
  | none =>
    let (trace, ending) := run w s first limit
    (trace, ending.map .ok)

/-! ## Runs whose callback is a list -/

/-- What a caller does when it is asked for a replacement: it fails, or broadcasts a transaction
that carries what was asked except where it says otherwise. -/
structure Resubmission where
  delay : Nat
  failure : Option ChainError
  hash : Option Hash
  nonce : Option Word
  gasLimit : Option Word
  offer : Option FeeOffer

/-- Broadcasts what is asked, at once. -/
def Resubmission.faithful : Resubmission := ⟨0, none, none, none, none, none⟩

/-- The transaction that comes of it; the hash is that of the number where none is given. -/
def Resubmission.answer (r : Resubmission) (number : Nat) (options : GasOptions) :
    Node.Timed Transaction :=
  ⟨r.delay,
    match r.failure with
    | some cause => .error cause
    | none =>
      .ok ⟨r.hash.getD (.ofUInt64 (UInt64.ofNat number)), r.nonce.getD options.nonce,
        r.gasLimit.getD options.gasLimit, r.offer.getD options.offer⟩⟩

/-- The caller that goes through a list and is faithful from then on; the hashes of its
transactions count up from 101. -/
def listedResubmissions (list : List Resubmission) (n : Nat) : GasOptions → Node.Timed Transaction :=
  (list.getD n .faithful).answer (101 + n)

/-- As many rounds as a run with a listed caller can need: from any price, a faithful caller
reaches any ceiling within four thousand. -/
def roundsNeeded (list : List Resubmission) : Nat := (list.length + 1) * 4000

end ChainWatch.Mining
