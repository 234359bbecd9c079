import ChainWatch.Duration
import ChainWatch.Error
import ChainWatch.Hex

/-!
# Settings

What the watcher is told: the chain to follow, the limits on calls, how stuck transactions are
replaced, how lost subscriptions come back, and where things are kept. `Settings.check` names the
first setting that no component could run with.
-/

namespace ChainWatch

/-- The chain and the account to watch. -/
structure ChainSettings where
  name : String
  wsUrl : String
  /-- The account whose nonce is reconciled. -/
  account : Option Account
  blockPollMillis : UInt64
  headDedupeSeconds : UInt64

/-- Limits on calls to the node; zero means no limit. -/
structure RateSettings where
  requestsPerSecond : UInt32
  concurrency : UInt64
  permitTimeoutSeconds : UInt64

/-- How stuck transactions are replaced. -/
structure MiningSettings where
  checkSeconds : UInt64
  receiptPollMillis : UInt64
  maxGasPriceGwei : UInt64

/-- How lost subscriptions come back. -/
structure ResubscribeSettings where
  backoffMaxSeconds : UInt64
  alertThresholdSeconds : UInt64
  maxElapsedSeconds : Option UInt64
  eventBuffer : UInt64

structure StorageSettings where
  dataDir : String

structure MetricsSettings where
  enabled : Bool
  host : String
  port : UInt16

structure LoggingSettings where
  json : Bool
  filter : Option String

structure Settings where
  chain : ChainSettings
  rateLimit : RateSettings
  mining : MiningSettings
  resubscribe : ResubscribeSettings
  storage : StorageSettings
  metrics : MetricsSettings
  logging : LoggingSettings

/-! ## Defaults -/

def RateSettings.default : RateSettings := ⟨0, 0, 300⟩

def MiningSettings.default : MiningSettings := ⟨60, 1000, 500⟩

def ResubscribeSettings.default : ResubscribeSettings := ⟨120, 15, none, 16⟩

def StorageSettings.default : StorageSettings := ⟨"data"⟩

def MetricsSettings.default : MetricsSettings := ⟨true, "0.0.0.0", 9090⟩

def LoggingSettings.default : LoggingSettings := ⟨false, none⟩

/-- How often the block height is asked for where the settings do not say: every second. -/
def ChainSettings.defaultBlockPollMillis : UInt64 := 1000

/-- How long a head counts as seen where the settings do not say: ten minutes. -/
def ChainSettings.defaultHeadDedupeSeconds : UInt64 := 600

/-! ## What the components take from them -/

def ChainSettings.blockPoll (s : ChainSettings) : Duration := .ofMillis s.blockPollMillis.toNat

def ChainSettings.headDedupe (s : ChainSettings) : Duration := .ofSeconds s.headDedupeSeconds.toNat

/-- How long a call waits for a permit; zero seconds mean as long as it takes to get the default. -/
def RateSettings.permitTimeout (s : RateSettings) : Option Duration :=
  if s.permitTimeoutSeconds = 0 then none else some (.ofSeconds s.permitTimeoutSeconds.toNat)

def MiningSettings.check (s : MiningSettings) : Duration := .ofSeconds s.checkSeconds.toNat

def MiningSettings.receiptPoll (s : MiningSettings) : Duration :=
  .ofMillis s.receiptPollMillis.toNat

/-- The ceiling on prices: a gwei is a billion of the smallest unit. -/
def MiningSettings.ceiling (s : MiningSettings) : Word :=
  .clamp (s.maxGasPriceGwei.toNat * 1000000000)

def ResubscribeSettings.backoffMax (s : ResubscribeSettings) : Duration :=
  .ofSeconds s.backoffMaxSeconds.toNat

def ResubscribeSettings.alertThreshold (s : ResubscribeSettings) : Duration :=
  .ofSeconds s.alertThresholdSeconds.toNat

def ResubscribeSettings.maxElapsed (s : ResubscribeSettings) : Option Duration :=
  s.maxElapsedSeconds.map fun n => .ofSeconds n.toNat

/-! ## Checks -/

/-- What is wrong with settings that can be read. -/
inductive SettingsFlaw where
  | noUrl (chain : String)
  | notPositive (key : String)
deriving DecidableEq

def SettingsFlaw.message : SettingsFlaw → String
  | noUrl chain => "Chain " ++ chain ++ " has no WebSocket URL configured"
  | notPositive key => key ++ " must be positive"

/-- The settings that must not be zero, with their values, in the order of the checks. -/
def Settings.mustBePositive (s : Settings) : List (String × UInt64) :=
  [("mining.check_interval_secs", s.mining.checkSeconds),
   ("mining.receipt_poll_interval_ms", s.mining.receiptPollMillis),
   ("chain.block_poll_interval_ms", s.chain.blockPollMillis),
   ("chain.head_dedupe_secs", s.chain.headDedupeSeconds),
   ("resubscribe.backoff_max_secs", s.resubscribe.backoffMaxSeconds)]

/-- The first flaw of the settings. -/
def Settings.flaw? (s : Settings) : Option SettingsFlaw :=
  if s.chain.wsUrl.isEmpty then some (.noUrl s.chain.name)
  else (s.mustBePositive.find? fun entry => entry.2 == 0).map fun entry => .notPositive entry.1

end ChainWatch
