import ChainWatch.Fee

/-!
# Counter samples

Every component reports what it does as samples; each sample adds one to the counter it belongs
to. How much the counters grew is the number of samples of each series, in the bytewise order of
the series.
-/

namespace ChainWatch.Metrics

/-- One increment of a counter. -/
inductive Sample where
  | rpcCall (method : String)
  | permitTimeout
  | resubscription
  | resubscriptionAlert
  | subscribeFailure
  | escalation (kind : String)
  | mined
  | giveUp (reason : String)
deriving DecidableEq

namespace Sample

/-- The counter's name. -/
def family : Sample → String
  | rpcCall _ => "ethlike_rpc_calls_total"
  | permitTimeout => "ethlike_rpc_permit_timeouts_total"
  | resubscription => "ethlike_resubscriptions_total"
  | resubscriptionAlert => "ethlike_resubscription_alerts_total"
  | subscribeFailure => "ethlike_subscribe_failures_total"
  | escalation _ => "ethlike_tx_escalations_total"
  | mined => "ethlike_tx_mined_total"
  | giveUp _ => "ethlike_tx_give_ups_total"

/-- The label that tells the series of one counter apart: its name and value. -/
def label? : Sample → Option (String × String)
  | rpcCall method => some ("method", method)
  | escalation kind => some ("kind", kind)
  | giveUp reason => some ("reason", reason)
  | _ => none

/-- The series in plain text. -/
def plainSeries (s : Sample) : String :=
  match s.label? with
  | none => s.family
  | some (name, value) => s.family ++ "\x7b" ++ name ++ "=" ++ value ++ "\x7d"

end Sample

/-- Adds one to the count of a key, which joins the end if it is new. -/
def addOne (counts : List (String × Nat)) (key : String) : List (String × Nat) :=
  match counts with
  | [] => [(key, 1)]
  | (k, n) :: rest => if k = key then (k, n + 1) :: rest else (k, n) :: addOne rest key

/-- How often each series occurs among the samples. -/
def growth (samples : List Sample) : List (String × Nat) :=
  samples.foldl (fun counts s => addOne counts s.plainSeries) []

end ChainWatch.Metrics
