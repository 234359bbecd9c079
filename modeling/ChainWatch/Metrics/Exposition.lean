import ChainWatch.Metrics.Gauge
import ChainWatch.Metrics.Sample

/-!
# Exposition of metrics

Metrics are served as text: for every family a line that says what it shows, a line that says
what type it has, and then one line a series with its value. Values go through a double on their
way, so large ones come out as the nearest double.
-/

namespace ChainWatch.Metrics

/-- What a counter counts. -/
def Sample.help : Sample → String
  | rpcCall _ => "Total rate limited RPC calls by method"
  | permitTimeout => "Total calls that gave up waiting for a rate limiter permit"
  | resubscription => "Total resubscription attempts scheduled after a subscription ended or failed"
  | resubscriptionAlert => "Total resubscription attempts made faster than the alert threshold"
  | subscribeFailure => "Total failed subscribe attempts"
  | escalation _ => "Total fee escalations by fee kind"
  | mined => "Total transactions seen mined by a mining waiter"
  | giveUp _ => "Total mining waiters that stopped before the transaction was mined"

/-- A character of a label's value as it is written between quotes. -/
def escapeLabel (c : Char) : List Char :=
  match c with
  | '\\' => ['\\', '\\']
  | '\n' => ['\\', 'n']
  | '"' => ['\\', '"']
  | c => [c]

/-- The series as it is written. -/
def Sample.series (s : Sample) : String :=
  match s.label? with
  | none => s.family
  | some (name, value) =>
    s.family ++ "\x7b" ++ name ++ "=\"" ++ String.ofList (value.toList.flatMap escapeLabel) ++ "\"\x7d"

/-- The lines that stand above a family's series. -/
def about (name help type : String) : List String :=
  ["# HELP " ++ name ++ " " ++ help, "# TYPE " ++ name ++ " " ++ type]

/-- The natural number nearest to `n` that a double of 53 significant bits can hold; of two, the
one with an even significand. -/
def nearestDouble (n : Nat) : Nat :=
  let unit := 1 <<< (n.log2 + 1 - 53)
  let below := n / unit
  let rest := n % unit
  if unit < 2 * rest ∨ (2 * rest = unit ∧ below % 2 = 1) then (below + 1) * unit else below * unit

/-- A gauge's value as it is read back from the text, where the largest number is the last. -/
def readBack (value : Int) : Int :=
  if value < 0 then -(nearestDouble value.natAbs : Int)
  else min (nearestDouble value.natAbs : Int) Int64.maxValue.toInt

/-- What a component records. -/
inductive Record where
  | count (sample : Sample)
  | set (gauge : Gauge) (value : UInt64)

/-- One series with how much it grew, or what it was set to, and the lines above it. -/
structure Line where
  series : String
  value : Int
  about : List String

/-- The series that a record belongs to. -/
def Record.series : Record → String
  | count sample => sample.series
  | set gauge _ => gauge.name

/-- The line that a first record makes. -/
def Record.line : Record → Line
  | count sample => ⟨sample.series, 1, Metrics.about sample.family sample.help "counter"⟩
  | set gauge value => ⟨gauge.name, readBack (reading value), Metrics.about gauge.name gauge.help "gauge"⟩

/-- What a further record makes of its line. -/
def Record.update (r : Record) (line : Line) : Line :=
  match r with
  | count _ => { line with value := line.value + 1 }
  | set _ value => { line with value := readBack (reading value) }

/-- Puts a record into its line; the lines stay in the bytewise order of their series. -/
def insert (r : Record) : List Line → List Line
  | [] => [r.line]
  | line :: rest =>
    if r.series = line.series then r.update line :: rest
    else if r.series < line.series then r.line :: line :: rest
    else line :: insert r rest

/-- What a list of records changes. -/
def changes (records : List Record) : List Line := records.foldl (fun lines r => insert r lines) []

end ChainWatch.Metrics
