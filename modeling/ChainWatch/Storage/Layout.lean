import ChainWatch.Storage.Store

/-!
# Laying out and listing a file tree

A file tree can be laid out by hand, each item with the directories above it, and listed: every
path with what stands there, in the order of the paths' texts.
-/

namespace ChainWatch.Storage.FileTree

open Program

/-- The names that a written path consists of. -/
def namesOf (text : Bytes) : List Name := (text.splitOn 47).filter fun name => name ≠ []

/-- The tree with a directory, and those above it. -/
def withDir (t : FileTree) (p : Path) : FileTree :=
  ((Store.makeDirsUp (ChainError.storage []) p.reverse).run t).1

/-- The tree with a file of this content, and the directories above it. -/
def withFile (t : FileTree) (p : Path) (data : Bytes) : FileTree :=
  match (t.withDir p.dropLast).openEmptied p with
  | (opened, .ok number) => opened.writeAt number 0 data
  | (same, .error _) => same

/-- The tree with a link, and the directories above it. -/
def withLink (t : FileTree) (p : Path) (target : Bytes) : FileTree :=
  ((t.withDir p.dropLast).makeLink p target).1

/-- What a listing says of an item. -/
inductive Listed where
  | dir
  | file (content : Bytes)
  | link (target : Bytes)

/-- A path as it is written. -/
def textOf (p : Path) : Bytes := ([47] : Bytes).intercalate p

/-- All paths with what stands there. -/
def listing (t : FileTree) : List (Path × Listed) :=
  let shown : Item → Listed
    | .dir => .dir
    | .file number => .file (t.content number)
    | .link target => .link target
  (t.items.map fun (p, item) => (p, shown item)).mergeSort fun a b => nameLe (textOf a.1) (textOf b.1)

end ChainWatch.Storage.FileTree
