import ChainWatch.Storage.OsError

/-!
# File trees

A file tree is what a file system holds below one directory, its top: directories, files and
links by their paths. A path is the list of the names on the way down. Files have numbers, and the
contents belong to the number: whoever has opened a file goes on writing to it when it has been
renamed.

The operations follow the rules of the system. Names on the way to the end of a path are followed
through links, at most forty of them; what is not below the top counts as missing. A name has at
most 255 bytes. In which order the entries of a directory are listed is up to the system; a tree
comes with an order, which no operation changes and of which nothing is asked.
-/

namespace ChainWatch.Storage

abbrev Bytes := List UInt8

/-- The name of a directory entry. -/
abbrev Name := List UInt8

/-- The names on the way down from the top. -/
abbrev Path := List Name

/-- What a path can lead to. -/
inductive Item where
  | dir
  | file (number : Nat)
  | link (target : Bytes)
deriving DecidableEq

/-- Is one name before the other, byte by byte? -/
def nameLe : Name → Name → Bool
  | [], _ => true
  | _ :: _, [] => false
  | a :: as, b :: bs => if a = b then nameLe as bs else a < b

/-- The order in which entries are listed. It may be another one in each directory, and change with
the entries. -/
structure EntryOrder where
  arrange : Path → List (Name × Bool) → List (Name × Bool)
  perm : ∀ p entries, (arrange p entries).Perm entries

/-- Every directory is listed in the order of the names. -/
def EntryOrder.byName : EntryOrder where
  arrange _ entries := entries.mergeSort fun a b => nameLe a.1 b.1
  perm _ entries := List.mergeSort_perm entries _

/-- The files below one directory. The top itself is not listed. -/
structure FileTree where
  items : List (Path × Item)
  /-- The contents by the number of the file. -/
  contents : List Bytes
  order : EntryOrder

namespace FileTree

/-- Nothing below the top. -/
def empty : FileTree := ⟨[], [], .byName⟩

/-- The longest name the system allows, in bytes. -/
def longestName : Nat := 255

/-- How many links may be followed on one way. -/
def mostLinks : Nat := 40

/-- What stands at a path, no link followed. -/
def item? (t : FileTree) (p : Path) : Option Item :=
  if p = [] then some .dir else t.items.lookup p

/-- The content of a file. -/
def content (t : FileTree) (number : Nat) : Bytes := t.contents.getD number []

/-- Puts an item at a path, in place of what stood there. -/
def put (t : FileTree) (p : Path) (item : Item) : FileTree :=
  { t with items := (p, item) :: t.items.filter fun entry => entry.1 ≠ p }

/-- Takes away what stands at a path. -/
def erase (t : FileTree) (p : Path) : FileTree :=
  { t with items := t.items.filter fun entry => entry.1 ≠ p }

/-- The items directly below a path, each with its name. -/
def children (t : FileTree) (p : Path) : List (Name × Item) :=
  t.items.filterMap fun (q, item) =>
    match q.getLast? with
    | some name => if q.dropLast = p then some (name, item) else none
    | none => none

/-! ## Finding the way -/

/-- Where a way through the tree ends. -/
inductive Located where
  | found (p : Path) (item : Item)
  /-- The directory is there and the last name is not. -/
  | missing (dir : Path) (name : Name)
  | failed (cause : OsError)

/-- The names of a link's target, `none` for one that starts at the root of the system. A slash at
the end asks for a directory, like a last name that is a dot. -/
def targetNames? (target : Bytes) : Option (List Name) :=
  if target.head? = some 47 then none
  else
    let names := (target.splitOn 47).filter fun name => name ≠ []
    some (if target.getLast? = some 47 then names ++ [[46]] else names)

/-- Follows names from a directory; `links` more links may be followed on the way, and one at the
end only if `followLast`. -/
def locate (t : FileTree) (followLast : Bool) (links : Nat) (here : Path) : List Name → Located
  | [] => .found here .dir
  | name :: rest =>
    if name = [46] then locate t followLast links here rest
    else if name = [46, 46] then
      if here = [] then .failed .noEntry else locate t followLast links here.dropLast rest
    else if longestName < name.length then .failed .nameTooLong
    else
      match t.item? (here ++ [name]) with
      | none => if rest = [] then .missing here name else .failed .noEntry
      | some .dir => locate t followLast links (here ++ [name]) rest
      | some (.file number) =>
        if rest = [] then .found (here ++ [name]) (.file number) else .failed .notDirectory
      | some (.link target) =>
        if rest = [] ∧ followLast = false then .found (here ++ [name]) (.link target)
        else
          match links with
          | 0 => .failed .tooManyLinks
          | links + 1 =>
            match targetNames? target with
            | none => .failed .noEntry
            | some names => locate t followLast links here (names ++ rest)
termination_by names => (links, names.length)

/-- Where a path leads when a link at its end is followed. -/
def follow (t : FileTree) (p : Path) : Located := t.locate true mostLinks [] p

/-- Where a path leads when a link at its end is taken for itself. -/
def itself (t : FileTree) (p : Path) : Located := t.locate false mostLinks [] p

/-! ## Questions -/

/-- Does a path lead to a directory? -/
def isDir (t : FileTree) (p : Path) : Bool :=
  match t.follow p with
  | .found _ .dir => true
  | _ => false

/-- Does a path lead anywhere? Only a missing name means no. -/
def present (t : FileTree) (p : Path) : Except OsError Bool :=
  match t.follow p with
  | .found _ _ => .ok true
  | .missing _ _ => .ok false
  | .failed cause => if cause = .noEntry then .ok false else .error cause

/-- The entries of a directory, each with whether it is itself a directory. -/
def list (t : FileTree) (p : Path) : Except OsError (List (Name × Bool)) :=
  match t.follow p with
  | .found q .dir =>
    .ok (t.order.arrange q ((t.children q).map fun (name, item) => (name, item == .dir)))
  | .found _ _ => .error .notDirectory
  | .missing _ _ => .error .noEntry
  | .failed cause => .error cause

/-- The content of the file that a path leads to. -/
def read (t : FileTree) (p : Path) : Except OsError Bytes :=
  match t.follow p with
  | .found _ (.file number) => .ok (t.content number)
  | .found _ _ => .error .isDirectory
  | .missing _ _ => .error .noEntry
  | .failed cause => .error cause

/-! ## Changes -/

/-- Makes a directory where nothing is. -/
def makeDir (t : FileTree) (p : Path) : FileTree × Except OsError Unit :=
  match t.itself p with
  | .missing dir name => (t.put (dir ++ [name]) .dir, .ok ())
  | .found _ _ => (t, .error .alreadyExists)
  | .failed cause => (t, .error cause)

/-- A new empty file at a path where nothing is, with its number. -/
def addFile (t : FileTree) (p : Path) : FileTree × Nat :=
  let number := t.contents.length
  ({ t.put p (.file number) with contents := t.contents ++ [[]] }, number)

/-- Opens a file for writing from its start, emptied if it was there and made if not. -/
def openEmptied (t : FileTree) (p : Path) : FileTree × Except OsError Nat :=
  match t.follow p with
  | .found _ (.file number) => ({ t with contents := t.contents.set number [] }, .ok number)
  | .found _ _ => (t, .error .isDirectory)
  | .missing dir name =>
    let (made, number) := t.addFile (dir ++ [name])
    (made, .ok number)
  | .failed cause => (t, .error cause)

/-- Opens a file that must not be there yet. -/
def openNew (t : FileTree) (p : Path) : FileTree × Except OsError Nat :=
  match t.itself p with
  | .missing dir name =>
    let (made, number) := t.addFile (dir ++ [name])
    (made, .ok number)
  | .found _ _ => (t, .error .alreadyExists)
  | .failed cause => (t, .error cause)

/-- A content with `piece` written over it from `offset` on; a gap before it is filled with
zeros. -/
def overwrite (old : Bytes) (offset : Nat) (piece : Bytes) : Bytes :=
  old.take offset ++ List.replicate (offset - old.length) 0 ++ piece
    ++ old.drop (offset + piece.length)

/-- Writes a piece to an open file. -/
def writeAt (t : FileTree) (number offset : Nat) (piece : Bytes) : FileTree :=
  { t with contents := t.contents.set number (overwrite (t.content number) offset piece) }

/-- Moves an item, and all below it, from one path to another. -/
def move (t : FileTree) (src dst : Path) : FileTree :=
  let kept := t.items.filter fun entry => entry.1 ≠ dst
  { t with
    items := kept.map fun (p, item) =>
      if src.isPrefixOf p then (dst ++ p.drop src.length, item) else (p, item) }

/-- Is the way from `a` to `b` one down, of at least one name? -/
def strictlyAbove (a b : Path) : Bool := a.isPrefixOf b && a != b

/-- May an item take the place of another? A directory may take that of an empty directory only,
anything else that of anything else. -/
def replaces (t : FileTree) (item : Item) (p : Path) (old : Item) : Except OsError Unit :=
  match item, old with
  | .dir, .dir => if t.children p = [] then .ok () else .error .notEmpty
  | .dir, _ => .error .notDirectory
  | _, .dir => .error .isDirectory
  | _, _ => .ok ()

/-- Gives an item another path; what stood there gives way in the same moment. -/
def rename (t : FileTree) (src dst : Path) : FileTree × Except OsError Unit :=
  match t.itself src, t.itself dst with
  | .failed cause, _ => (t, .error cause)
  | .missing _ _, .failed cause =>
    (t, .error (if cause = .nameTooLong then .noEntry else cause))
  | .missing _ _, _ => (t, .error .noEntry)
  | .found _ _, .failed cause => (t, .error cause)
  | .found p item, .missing dir name =>
    if p.isPrefixOf dir ∧ item = .dir then (t, .error .invalid)
    else (t.move p (dir ++ [name]), .ok ())
  | .found p item, .found q old =>
    if p = q then (t, .ok ())
    else if strictlyAbove p q then (t, .error .invalid)
    else if strictlyAbove q p then (t, .error .notEmpty)
    else
      match t.replaces item q old with
      | .ok () => (t.move p q, .ok ())
      | .error cause => (t, .error cause)

/-- Takes away a file or a link. -/
def unlink (t : FileTree) (p : Path) : FileTree × Except OsError Unit :=
  match t.itself p with
  | .found _ .dir => (t, .error .isDirectory)
  | .found q _ => (t.erase q, .ok ())
  | .missing _ _ => (t, .error .noEntry)
  | .failed cause => (t, .error cause)

/-- Takes away an empty directory. -/
def removeDir (t : FileTree) (p : Path) : FileTree × Except OsError Unit :=
  match t.itself p with
  | .found q .dir => if t.children q = [] then (t.erase q, .ok ()) else (t, .error .notEmpty)
  | .found _ _ => (t, .error .notDirectory)
  | .missing _ _ => (t, .error .noEntry)
  | .failed cause => (t, .error cause)

/-- Makes a link where nothing is. -/
def makeLink (t : FileTree) (p : Path) (target : Bytes) : FileTree × Except OsError Unit :=
  match t.itself p with
  | .missing dir name => (t.put (dir ++ [name]) (.link target), .ok ())
  | .found _ _ => (t, .error .alreadyExists)
  | .failed cause => (t, .error cause)

end FileTree

end ChainWatch.Storage
