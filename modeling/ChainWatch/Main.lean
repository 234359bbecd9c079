import ChainWatch.Log.Line
import ChainWatch.Watcher

/-!
# The command line of the watcher

The program takes no arguments. It looks up the variables that its settings mention, reads the
settings file and the records of the store, and prints what the watcher has to say.
-/

namespace ChainWatch.CommandLine

/-- The variables with these names. -/
def lookUp (names : List String) : IO Template.Environment := do
  let mut found : List (String × String) := []
  for name in names do
    match ← IO.getEnv name with
    | some value => found := (name, value) :: found
    | none => pure ()
  let known := found
  return fun name => known.lookup name

/-- The content of a file, if it can be read. -/
def contentAt (path : String) : IO (Option (List UInt8)) := do
  try
    return some (← IO.FS.readBinFile path).toList
  catch _ => return none

/-- Puts what a directory holds into a tree, below a path; deeper directories stay empty. -/
def withEntries (tree : Storage.FileTree) (above : Storage.Path) (dir : IO.FS.DirEntry) :
    IO Storage.FileTree := do
  let mut tree := tree.withDir above
  for entry in ← dir.path.readDir do
    let path := above ++ [Text.utf8 entry.fileName]
    if ← entry.path.isDir then tree := tree.withDir path
    else tree := tree.withFile path (← IO.FS.readBinFile entry.path).toList
  return tree

/-- The live records below a data directory. -/
def recordsBelow (dataDir : String) : IO Storage.FileTree := do
  let area := Storage.Area.current.name
  let top : IO.FS.DirEntry := ⟨dataDir, "current"⟩
  if !(← top.path.pathExists) then return .empty
  if !(← top.path.isDir) then return Storage.FileTree.empty.withFile [area] []
  let mut tree := Storage.FileTree.empty.withDir [area]
  for entry in ← top.path.readDir do
    if ← entry.path.isDir then
      tree ← withEntries tree [area, Text.utf8 entry.fileName] entry
  return tree

/-- Prints what a run of the watcher logged and what ended it. -/
def printReport (r : Watcher.Report) : IO UInt32 := do
  for line in r.lines do
    IO.println ((if r.asJson then Log.jsonLine else Log.plainLine) .info Watcher.logTarget line)
  for complaint in r.complaints do
    IO.eprintln complaint
  IO.eprintln ("Error: " ++ r.failure)
  return Watcher.Report.exitCode

/-- Runs the watcher. -/
def run : IO UInt32 := do
  let path := Settings.pathIn (← lookUp [Settings.pathVariable])
  let content ← contentAt path
  let mentioned := (Template.names 0 ((content.bind Text.utf8?).getD "").toList).map String.ofList
  let env ← lookUp (Watcher.filterVariable :: mentioned)
  match Settings.load env path content with
  | .error failure => printReport (.silent failure.message)
  | .ok settings =>
    let store := Storage.Store.mk [] (Text.utf8 settings.storage.dataDir)
    printReport (Watcher.start env store (← recordsBelow settings.storage.dataDir) settings)

end ChainWatch.CommandLine

def main : IO UInt32 := ChainWatch.CommandLine.run
