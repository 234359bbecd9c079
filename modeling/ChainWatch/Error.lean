import ChainWatch.Duration
import ChainWatch.Storage.OsError
import ChainWatch.Text.Quoted

/-!
# What can go wrong

`ChainError` lists the causes of failure; the wording of each is in `ChainError.message`. Two
questions are asked of an error: whether trying again can help, and whether a person should be
told.

A `Fault` is not an answer: it is a broken precondition that stops the computation at once.
-/

namespace ChainWatch

/-- The causes of failure. -/
inductive ChainError where
  /-- The node refused a call or answered it badly. -/
  | rpc (method message : String)
  /-- No permit of the rate limiter came free in time. -/
  | permitTimeout (timeout : Duration)
  /-- A dynamic fee cannot be raised on a chain without base fees. -/
  | baseFeeUnavailable
  /-- A replacement could not be broadcast. -/
  | resubmission (cause : String)
  /-- The remote end closed a subscription. -/
  | subscriptionClosed
  /-- Resubscribing took longer than allowed. -/
  | resubscriptionExhausted
  /-- A name that may not become part of a path. -/
  | invalidName (name : String) (longest : Nat)
  /-- A file operation failed; a path's bytes need not be text. -/
  | storage (path : List UInt8) (cause : Storage.OsError)
  | config (reason : String)
  | internal (reason : String)
deriving DecidableEq

namespace ChainError

/-- The name of the cause. -/
def kind : ChainError → String
  | rpc .. => "Rpc"
  | permitTimeout .. => "PermitTimeout"
  | baseFeeUnavailable => "BaseFeeUnavailable"
  | resubmission .. => "Resubmission"
  | subscriptionClosed => "SubscriptionClosed"
  | resubscriptionExhausted => "ResubscriptionExhausted"
  | invalidName .. => "InvalidName"
  | storage .. => "Storage"
  | config .. => "Config"
  | internal .. => "Internal"

/-- The text of an error. -/
def message : ChainError → String
  | rpc method text => "RPC call " ++ method ++ " failed: " ++ text
  | permitTimeout timeout => "Timed out after " ++ timeout.text ++ " waiting for an RPC permit"
  | baseFeeUnavailable =>
    "Latest block carries no base fee; dynamic fee escalation is not possible"
  | resubmission cause => "Transaction resubmission failed: " ++ cause
  | subscriptionClosed => "Subscription closed by the remote end"
  | resubscriptionExhausted => "Resubscription gave up after exhausting its backoff"
  | invalidName name longest =>
    "Invalid name " ++ Text.quote name ++ ": must be 1 to " ++ toString longest
      ++ " characters without path separators or a leading dot"
  | storage path cause => "Storage error at " ++ Text.quotePath path ++ ": " ++ cause.message
  | config reason => "Configuration error: " ++ reason
  | internal reason => "Internal error: " ++ reason

/-- Can the same request succeed when it is made again? -/
def retryable : ChainError → Bool
  | rpc .. | permitTimeout .. | subscriptionClosed => true
  | _ => false

/-- Should a person be told? -/
def alerts : ChainError → Bool
  | baseFeeUnavailable | resubmission .. | resubscriptionExhausted => true
  | _ => false

/-- The text of the file error inside, if there is one. -/
def osMessage? : ChainError → Option String
  | storage _ cause => some cause.message
  | _ => none

end ChainError

/-- Broken preconditions. -/
inductive Fault where
  /-- A sum passed the end of its word. -/
  | sumOverflow
  /-- A ticker was asked to tick without a pause. -/
  | zeroPeriod
  /-- A duration's seconds passed 64 bits. -/
  | durationOverflow
  /-- A number from the node does not fit 64 bits. -/
  | wideNumber
  /-- More slots were asked for than can be managed. -/
  | tooManySlots
deriving DecidableEq

/-- The text of a fault. -/
def Fault.message : Fault → String
  | sumOverflow => "attempt to add with overflow"
  | zeroPeriod => "`period` must be non-zero."
  | durationOverflow => "overflow in Duration::new"
  | wideNumber => "Integer overflow when casting to u64"
  | tooManySlots => "a semaphore may not have more than MAX_PERMITS permits (2305843009213693951)"

/-- An answer, an error, or a fault. -/
inductive Outcome (α : Type) where
  | ok (value : α)
  | error (cause : ChainError)
  | fault (cause : Fault)
deriving DecidableEq

/-- An answer or an error as an outcome. -/
def Outcome.ofExcept {α : Type} : Except ChainError α → Outcome α
  | .ok value => .ok value
  | .error cause => .error cause

end ChainWatch
