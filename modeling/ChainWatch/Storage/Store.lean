import ChainWatch.Storage.Program
import ChainWatch.Text.Utf8

/-!
# The store: named records on disk

A store keeps records under a data directory in three areas:

* `current/<directory>/<name>` holds live records, each overwritten by the next save;
* `snapshot/<directory>/<name>.<suffix>` holds copies that are written once, where the suffix
  counts nanoseconds;
* `archive/<directory>/<name>` holds what was retired.

A save writes to a temporary file next to the record and then renames it, so a reader finds the
old content or the new one. Names that could leave their directory, or be taken for a temporary
file, are refused before anything is touched.
-/

namespace ChainWatch.Storage

/-- Where a store lives: the way down from the top of the tree, and how that way is written. -/
structure Store where
  root : Path
  rootText : Bytes

/-- A live record. -/
structure Record where
  directory : String
  name : String
  content : Bytes
deriving DecidableEq

/-- The areas of a store. -/
inductive Area where
  | current
  | snapshot
  | archive
deriving DecidableEq

/-- The name of an area's directory. -/
def Area.name : Area → Name
  | current => Text.utf8 "current"
  | snapshot => Text.utf8 "snapshot"
  | archive => Text.utf8 "archive"

/-! ## Names -/

/-- The longest acceptable name, in characters. -/
def longestRecordName : Nat := 128

/-- May a text name a directory or a record? -/
def acceptable (name : String) : Bool :=
  let cs := name.toList
  cs != [] && cs.length ≤ longestRecordName && cs.head? != some '.'
    && cs.all fun c => c != '/' && c != '\\' && c.toNat != 0

/-- The name of the temporary file of a record that is being saved. -/
def temporaryName (name : String) : String := "." ++ name ++ ".tmp"

/-- Is this the name of a temporary file? -/
def isTemporary (name : String) : Bool :=
  name.toList.head? == some '.' && (Text.utf8 ".tmp").isSuffixOf (Text.utf8 name)

/-- The name of a snapshot file. -/
def snapshotName (name : String) (suffix : Int) : String := name ++ "." ++ toString suffix

/-- The largest suffix of a snapshot. -/
def lastSuffix : Int := Int64.maxValue.toInt

namespace Store

/-- The store whose data directory is written like this, seen from the top of the tree. What is
written from the root of the system lies outside of the tree. -/
def ofText (dataDir : String) : Store :=
  let bytes := Text.utf8 dataDir
  ⟨(FileTree.targetNames? bytes).getD [Text.utf8 ".."], bytes⟩

/-- How the file with these names below the data directory is written. -/
def pathText (s : Store) (names : List Name) : Bytes :=
  names.foldl (fun text name =>
    if text = [] ∨ text.getLast? = some 47 then text ++ name else text ++ [47] ++ name) s.rootText

/-- Where the file with these names below the data directory is. -/
def path (s : Store) (names : List Name) : Path := s.root ++ names

/-- The error of a file operation on the file with these names. -/
def failure (s : Store) (names : List Name) (cause : OsError) : ChainError :=
  .storage (s.pathText names) cause

open Program

/-- Refuses a name that is not acceptable. -/
def checkName (name : String) : Program Unit :=
  if acceptable name then pure () else fail (.invalidName name longestRecordName)

/-! ## Building blocks -/

/-- Makes a directory and those above it; the names are given from the last one up. What is there
already is fine if it leads to a directory. -/
def makeDirsUp (toError : OsError → ChainError) : List Name → Program Unit
  | [] => do
    match ← act (.makeDir []) with
    | .ok () => pure ()
    | .error cause => if ← act (.isDir []) then pure () else fail (toError cause)
  | name :: above => do
    let p := (name :: above).reverse
    match ← act (.makeDir p) with
    | .ok () => pure ()
    | .error cause =>
      if cause = .noEntry then
        makeDirsUp toError above
        match ← act (.makeDir p) with
        | .ok () => pure ()
        | .error again => if ← act (.isDir p) then pure () else fail (toError again)
      else if ← act (.isDir p) then pure ()
      else fail (toError cause)

/-- Makes the directory with these names below the data directory, and those above it. -/
def makeDirs (s : Store) (names : List Name) : Program Unit :=
  makeDirsUp (s.failure names) (s.path names).reverse

/-- Writes pieces to an open file, one after the other. -/
def writePieces (number : Nat) : Nat → List Bytes → Program Unit
  | _, [] => pure ()
  | offset, piece :: rest => do
    act (.writeAt number offset piece)
    writePieces number (offset + piece.length) rest

/-! ## Operations -/

/-- Puts a record in place; its content is written in the given pieces. -/
def save (s : Store) (pieces : List Bytes) (directory name : String) : Program Unit := do
  checkName name
  checkName directory
  let dir := [Area.current.name, Text.utf8 directory]
  s.makeDirs dir
  let temporary := dir ++ [Text.utf8 (temporaryName name)]
  let final := dir ++ [Text.utf8 name]
  let number ← orFail (s.failure temporary) (← act (.openEmptied (s.path temporary)))
  writePieces number 0 pieces
  orFail (s.failure final) (← act (.rename (s.path temporary) (s.path final)))

/-- Writes to the first free suffix from `suffix` on; `left` more suffixes follow it. -/
def snapshotFrom (s : Store) (pieces : List Bytes) (dir : List Name) (name : String) :
    (left : Nat) → (suffix : Int) → Program Bytes
  | left, suffix => do
    let file := dir ++ [Text.utf8 (snapshotName name suffix)]
    match ← act (.openNew (s.path file)) with
    | .ok number =>
      writePieces number 0 pieces
      pure (s.pathText file)
    | .error cause =>
      if cause = .alreadyExists then
        match left with
        | 0 => .done (.fault .sumOverflow)
        | left + 1 => s.snapshotFrom pieces dir name left (suffix + 1)
      else fail (s.failure file cause)

/-- Writes a copy of a record once; `clock` is the time in nanoseconds. Ends with how the copy's
path is written. -/
def snapshot (s : Store) (clock : Int) (pieces : List Bytes) (directory name : String) :
    Program Bytes := do
  checkName name
  checkName directory
  let dir := [Area.snapshot.name, Text.utf8 directory]
  s.makeDirs dir
  s.snapshotFrom pieces dir name (lastSuffix - clock).toNat clock

/-- The records among the entries of a directory. -/
def readFiles (s : Store) (directory : String) : List (Name × Bool) → Program (List Record)
  | [] => pure []
  | (file, _) :: rest => do
    match Text.utf8? file with
    | none => s.readFiles directory rest
    | some name =>
      if isTemporary name then s.readFiles directory rest
      else
        let names := [Area.current.name, Text.utf8 directory, file]
        let content ← orFail (s.failure names) (← act (.read (s.path names)))
        return ⟨directory, name, content⟩ :: (← s.readFiles directory rest)

/-- The records below the entries of the current area. -/
def readDirs (s : Store) : List (Name × Bool) → Program (List Record)
  | [] => pure []
  | (entry, isDir) :: rest => do
    match Text.utf8? entry with
    | none => s.readDirs rest
    | some directory =>
      if isDir then
        let names := [Area.current.name, entry]
        let files ← orFail (s.failure names) (← act (.list (s.path names)))
        let records ← s.readFiles directory files
        return records ++ (← s.readDirs rest)
      else s.readDirs rest

/-- All live records. -/
def readAll (s : Store) : Program (List Record) := do
  let names := [Area.current.name]
  match ← act (.list (s.path names)) with
  | .ok entries => s.readDirs entries
  | .error cause => if cause = .noEntry then pure [] else fail (s.failure names cause)

/-- Moves entries of one directory to another, one by one. -/
def moveEntries (s : Store) (src dst : List Name) : List (Name × Bool) → Program Unit
  | [] => pure ()
  | (entry, _) :: rest => do
    let target := dst ++ [entry]
    orFail (s.failure target) (← act (.rename (s.path (src ++ [entry])) (s.path target)))
    s.moveEntries src dst rest

/-- Retires the records of a directory: all at once where nothing of it was retired before, else
one by one. -/
def archive (s : Store) (directory : String) : Program Unit := do
  checkName directory
  let src := [Area.current.name, Text.utf8 directory]
  let dst := [Area.archive.name, Text.utf8 directory]
  if ← orFail (s.failure src) (← act (.present (s.path src))) then
    s.makeDirs [Area.archive.name]
    if ← orFail (s.failure dst) (← act (.present (s.path dst))) then
      let entries ← orFail (s.failure src) (← act (.list (s.path src)))
      s.moveEntries src dst entries
      orFail (s.failure src) (← act (.removeDir (s.path src)))
    else
      orFail (s.failure dst) (← act (.rename (s.path src) (s.path dst)))

/-- Takes away a record. -/
def delete (s : Store) (directory name : String) : Program Unit := do
  checkName name
  checkName directory
  let names := [Area.current.name, Text.utf8 directory, Text.utf8 name]
  orFail (s.failure names) (← act (.unlink (s.path names)))

end Store

end ChainWatch.Storage
