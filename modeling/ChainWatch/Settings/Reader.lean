import ChainWatch.Settings.Basic
import ChainWatch.Settings.Template
import ChainWatch.Text.Utf8
import ChainWatch.Toml.Document

/-!
# Reading settings

Settings are read from a TOML document after its placeholders were filled in. A section is a table,
or an array that gives the values in the order of the fields; what it leaves out has its default,
and what nobody asks for is passed over. A moment in place of a section says nothing about any
field. Settings that can be read are then checked.
-/

namespace ChainWatch

open Toml (Node Entries)

/-! ## Sections -/

/-- The values of a section, by name or in order. -/
inductive Section where
  | named (entries : Entries)
  | ordered (values : List Node)

namespace Section

def ofNode? : Node → Option Section
  | .table _ entries => some (.named entries)
  | .moment => some (.named [])
  | .array items => some (.ordered items)
  | .tables elements => some (.ordered elements)
  | _ => none

/-- The value of a field. -/
def value? (s : Section) (index : Nat) (key : String) : Option Node :=
  match s with
  | named entries => entries.lookup key
  | ordered values => values[index]?

/-- A field that must be given. -/
def required {α : Type} (s : Section) (index : Nat) (key : String) (read : Node → Option α) :
    Option α :=
  s.value? index key >>= read

/-- A field that may be left out. -/
def optional {α : Type} (s : Section) (index : Nat) (key : String) (read : Node → Option α)
    (fallback : α) : Option α :=
  match s.value? index key with
  | some node => read node
  | none => some fallback

end Section

/-! ## Values -/

def readText? : Node → Option String
  | .string text => some text
  | _ => none

def readFlag? : Node → Option Bool
  | .boolean b => some b
  | _ => none

/-- A whole number from zero up to a bound. -/
def readBounded? (bound : Nat) : Node → Option Nat
  | .integer n => if 0 ≤ n ∧ n ≤ bound then some n.toNat else none
  | _ => none

def readUInt64? (node : Node) : Option UInt64 := (readBounded? (UInt64.size - 1) node).map UInt64.ofNat

def readUInt32? (node : Node) : Option UInt32 := (readBounded? (UInt32.size - 1) node).map UInt32.ofNat

def readUInt16? (node : Node) : Option UInt16 := (readBounded? (UInt16.size - 1) node).map UInt16.ofNat

/-- A value whose absence is `none`. -/
def readSome? {α : Type} (read : Node → Option α) (node : Node) : Option (Option α) :=
  (read node).map some

/-- An account, as hexadecimal text or as its twenty bytes. -/
def readAccount? : Node → Option Account
  | .string text => Account.read? text
  | .array items => do
    let bytes ← items.mapM fun item => (readBounded? 255 item).map UInt8.ofNat
    if bytes.length = 20 then some (.ofBytes bytes) else none
  | _ => none

/-! ## The sections of the settings -/

def ChainSettings.read? (node : Node) : Option ChainSettings := do
  let s ← Section.ofNode? node
  let name ← s.required 0 "name" readText?
  let wsUrl ← s.required 1 "ws_url" readText?
  let account ←
    match s with
    | .named _ => s.optional 2 "account" (readSome? readAccount?) none
    | .ordered _ => s.required 2 "account" (readSome? readAccount?)
  let poll ← s.optional 3 "block_poll_interval_ms" readUInt64? defaultBlockPollMillis
  let dedupe ← s.optional 4 "head_dedupe_secs" readUInt64? defaultHeadDedupeSeconds
  return ⟨name, wsUrl, account, poll, dedupe⟩

def RateSettings.read? (node : Node) : Option RateSettings := do
  let s ← Section.ofNode? node
  let requests ← s.optional 0 "requests_per_second" readUInt32? default.requestsPerSecond
  let concurrency ← s.optional 1 "concurrency_limit" readUInt64? default.concurrency
  let timeout ← s.optional 2 "acquire_permit_timeout_secs" readUInt64? default.permitTimeoutSeconds
  return ⟨requests, concurrency, timeout⟩

def MiningSettings.read? (node : Node) : Option MiningSettings := do
  let s ← Section.ofNode? node
  let check ← s.optional 0 "check_interval_secs" readUInt64? default.checkSeconds
  let poll ← s.optional 1 "receipt_poll_interval_ms" readUInt64? default.receiptPollMillis
  let ceiling ← s.optional 2 "max_gas_price_gwei" readUInt64? default.maxGasPriceGwei
  return ⟨check, poll, ceiling⟩

def ResubscribeSettings.read? (node : Node) : Option ResubscribeSettings := do
  let s ← Section.ofNode? node
  let backoff ← s.optional 0 "backoff_max_secs" readUInt64? default.backoffMaxSeconds
  let alert ← s.optional 1 "alert_threshold_secs" readUInt64? default.alertThresholdSeconds
  let elapsed ← s.optional 2 "max_elapsed_secs" (readSome? readUInt64?) default.maxElapsedSeconds
  let buffer ← s.optional 3 "event_buffer" readUInt64? default.eventBuffer
  return ⟨backoff, alert, elapsed, buffer⟩

def StorageSettings.read? (node : Node) : Option StorageSettings := do
  let s ← Section.ofNode? node
  let dataDir ← s.optional 0 "data_dir" readText? default.dataDir
  return ⟨dataDir⟩

def MetricsSettings.read? (node : Node) : Option MetricsSettings := do
  let s ← Section.ofNode? node
  let enabled ← s.optional 0 "enabled" readFlag? default.enabled
  let host ← s.optional 1 "host" readText? default.host
  let port ← s.optional 2 "port" readUInt16? default.port
  return ⟨enabled, host, port⟩

def LoggingSettings.read? (node : Node) : Option LoggingSettings := do
  let s ← Section.ofNode? node
  let json ← s.optional 0 "json" readFlag? default.json
  let filter ← s.optional 1 "filter" (readSome? readText?) default.filter
  return ⟨json, filter⟩

namespace Settings

/-- The settings that a document holds. -/
def ofDocument? (entries : Entries) : Option Settings := do
  let s := Section.named entries
  let chain ← s.required 0 "chain" ChainSettings.read?
  let rateLimit ← s.optional 1 "rate_limit" RateSettings.read? .default
  let mining ← s.optional 2 "mining" MiningSettings.read? .default
  let resubscribe ← s.optional 3 "resubscribe" ResubscribeSettings.read? .default
  let storage ← s.optional 4 "storage" StorageSettings.read? .default
  let metrics ← s.optional 5 "metrics" MetricsSettings.read? .default
  let logging ← s.optional 6 "logging" LoggingSettings.read? .default
  return ⟨chain, rateLimit, mining, resubscribe, storage, metrics, logging⟩

/-- Why there are no settings. -/
inductive Failure where
  /-- The file cannot be read, or holds no text. -/
  | unreadable (path : String)
  /-- The text is no document, or a field has the wrong type. -/
  | malformed
  | flawed (flaw : SettingsFlaw)
deriving DecidableEq

def Failure.message : Failure → String
  | unreadable path => "Failed to read config file: " ++ Text.quotePath (Text.utf8 path)
  | malformed => "Failed to parse configuration"
  | flawed flaw => flaw.message

/-- The settings that a text holds. -/
def parse (env : Template.Environment) (text : String) : Except Failure Settings :=
  match Toml.Document.read? (Template.fill env text) >>= ofDocument? with
  | none => .error .malformed
  | some settings =>
    match settings.flaw? with
    | some flaw => .error (.flawed flaw)
    | none => .ok settings

/-- The settings in a file, given its content if there is one. -/
def load (env : Template.Environment) (path : String) (content : Option (List UInt8)) :
    Except Failure Settings :=
  match content >>= Text.utf8? with
  | none => .error (.unreadable path)
  | some text => parse env text

/-- The variable that names the settings file. -/
def pathVariable : String := "ETHLIKE_CONFIG"

/-- The settings file where the variable is not set. -/
def defaultPath : String := "config/default.toml"

/-- The path of the settings file. -/
def pathIn (env : Template.Environment) : String := (env pathVariable).getD defaultPath

end Settings

end ChainWatch
