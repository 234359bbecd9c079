import ChainWatch.Log.Filter
import ChainWatch.HeadFollower
import ChainWatch.Settings.Reader
import ChainWatch.Storage.Layout

/-!
# The watcher

The watcher reads its settings, starts logging, tells what it remembers of the chain, and connects
to the node. This module takes it up to the connection: what is logged, and what ends it. Files
are seen from the directory in which the watcher runs.
-/

namespace ChainWatch.Watcher

/-- What the watcher calls itself. -/
def greeting : String := "Starting ethlike-watcher v0.1.0"

/-- The target of the watcher's own log lines. -/
def logTarget : String := "ethlike_watcher"

/-- The field that a log line has. -/
def logFields : List String := ["message"]

/-- The variable that overrides the filter of the settings. -/
def filterVariable : String := "RUST_LOG"

/-- What is logged where nothing is said about it. -/
def defaultFilter : String := "info,ethlike_support=debug,ethlike_watcher=debug"

/-- The filter to use, and what is said about its directives. -/
def chooseFilter (env : Template.Environment) (s : LoggingSettings) : Log.Filter × List String :=
  match (env filterVariable).bind Log.Filter.read? with
  | some filter => (filter, [])
  | none => Log.Filter.readWhatIsRight (s.filter.getD defaultFilter)

/-- How a run ended before a connection stood. -/
structure Report where
  /-- The lines that were logged, all of them at level info. -/
  lines : List String
  /-- Are they written as JSON? -/
  asJson : Bool
  /-- What was said about the log filter. -/
  complaints : List String
  /-- What ended the run. -/
  failure : String
deriving DecidableEq

/-- A text up to its first line break. -/
def lineOf (text : String) : String := (text.splitOn "\n").headD ""

namespace Report

/-- A run that ended before it could log anything. -/
def silent (failure : String) : Report := ⟨[], false, [], failure⟩

/-- The code with which the program ends: it never succeeds without a connection. -/
def exitCode : UInt32 := 1

/-- The first line of what went wrong. -/
def firstLine (r : Report) : String := lineOf (r.complaints.head?.getD r.failure)

/-- The log lines as the output tells them apart: in plain text one ends where its message has a
line break. -/
def logged (r : Report) : List String := if r.asJson then r.lines else r.lines.map lineOf

end Report

/-- What is said of the recorded head. -/
def headLine (content : List UInt8) : String := "Last recorded head: " ++ Text.utf8Lossy content

/-- The lines about the records of the store. -/
def recordLines (records : List Storage.Record) : List String :=
  records.filterMap fun r =>
    if r.directory = HeadFollower.headsDirectory ∧ r.name = HeadFollower.latestName then
      some (headLine r.content)
    else none

/-- The content of the file with this path. -/
def contentOf (files : Storage.FileTree) (path : String) : Option (List UInt8) :=
  (Storage.FileTree.targetNames? (Text.utf8 path)).bind fun names => (files.read names).toOption

/-- Goes on with settings that are in order and the store that they name. -/
def start (env : Template.Environment) (store : Storage.Store) (files : Storage.FileTree)
    (s : Settings) : Report :=
  let (filter, complaints) := chooseFilter env s.logging
  let shown (lines : List String) : List String :=
    if filter.shows logTarget logFields .info then lines else []
  let report (lines : List String) (failure : String) : Report :=
    ⟨shown ([greeting, "Loaded configuration for chain " ++ s.chain.name] ++ lines), s.logging.json,
      complaints, failure⟩
  match (store.readAll.run files).2 with
  | .ok records => report (recordLines records) ("Failed to connect to " ++ s.chain.wsUrl)
  | .error e => report [] e.message
  | .fault f => report [] f.message

/-- Runs the watcher up to the connection. -/
def run (env : Template.Environment) (files : Storage.FileTree) : Report :=
  let path := Settings.pathIn env
  match Settings.load env path (contentOf files path) with
  | .ok settings => start env (.ofText settings.storage.dataDir) files settings
  | .error failure => .silent failure.message

end ChainWatch.Watcher
