import ChainWatch.Toml.Node
import ChainWatch.Toml.Quoting
import ChainWatch.Toml.Scalar

/-!
# TOML documents

A document is read line by line: comments, headers, and keys with their values. The values under a
header are collected in a draft of their table, which joins the document at the next header.
`Document.read?` gives the table of all of it, or `none` where the text is no document.
-/

namespace ChainWatch.Toml

/-! ## Values -/

/-- The elements of an array, after its opening bracket. -/
def readItems (value : Reader Node) : (fuel : Nat) → Reader (List Node)
  | 0, _ => none
  | fuel + 1, cs =>
    let cs := skipFiller (cs.length + 1) cs
    match cs with
    | ']' :: rest => some ([], rest)
    | _ => do
      let (item, rest) ← value cs
      let rest := skipFiller (rest.length + 1) rest
      match rest with
      | ',' :: rest =>
        let (items, rest) ← readItems value fuel rest
        return (item :: items, rest)
      | ']' :: rest => return ([item], rest)
      | _ => none

/-- The keys and values between braces, added to a draft; `first` is false after a comma, when
another key has to come. -/
def readBraced (value : Reader Node) : (fuel : Nat) → (first : Bool) → Draft → Reader Draft
  | 0, _, _, _ => none
  | fuel + 1, first, draft, cs =>
    match skipBlanks cs, first with
    | '}' :: rest, true => some (draft, rest)
    | cs, _ => do
      let ((path, key), rest) ← readKey cs
      let rest ← after? '=' rest
      let (node, rest) ← value (skipBlanks rest)
      let draft ← addValue true path key node draft
      match skipBlanks rest with
      | ',' :: rest => readBraced value fuel false draft rest
      | '}' :: rest => return (draft, rest)
      | _ => none

/-- A value; arrays and tables in braces may nest `depth` deep. -/
def readValue : (depth : Nat) → Reader Node
  | depth, cs =>
    match cs with
    | [] => none
    | c :: rest =>
      if c = '"' || c = '\'' then (readString cs).map fun (text, rest) => (.string text, rest)
      else if c = '[' then
        match depth with
        | 0 => none
        | depth + 1 =>
          (readItems (readValue depth) (rest.length + 1) rest).map fun (items, rest) =>
            (.array items, rest)
      else if c = '{' then
        match depth with
        | 0 => none
        | depth + 1 =>
          (readBraced (readValue depth) (rest.length + 1) true ⟨⟨true, false, false⟩, []⟩ rest).map
            fun (draft, rest) => (draft.node, rest)
      else
        match cs with
        | 't' :: 'r' :: 'u' :: 'e' :: rest => some (.boolean true, rest)
        | 'f' :: 'a' :: 'l' :: 's' :: 'e' :: rest => some (.boolean false, rest)
        | _ =>
          match readMoment cs with
          | some result => some result
          | none => readNumber cs

/-! ## Tables under headers -/

/-- A document in the making: what is finished, and the table that is being collected. -/
structure Progress where
  root : Draft
  /-- The header of the table that is being collected, without its last key; `none` before the
  first header. -/
  header : Option (List String × String)
  /-- Is it one of several tables under a double header? -/
  repeated : Bool
  draft : Draft

def Progress.start : Progress := ⟨.headed, none, false, .headed⟩

/-- Puts the collected table in its place. -/
def Progress.settle (p : Progress) : Option Draft :=
  match p.header with
  | none => some p.draft
  | some (path, key) =>
    within false false (fun parent =>
      match parent.entries.lookup key with
      | none =>
        let node := if p.repeated then .tables [p.draft.node] else p.draft.node
        some ⟨parent.origin, parent.entries ++ [(key, node)]⟩
      | some (.tables elements) =>
        if p.repeated then
          some ⟨parent.origin, setEntry key (.tables (elements ++ [p.draft.node])) parent.entries⟩
        else none
      | some _ => none) path p.root

/-- The table that a header finds in place, which is only one implied by a longer header. -/
def impliedBefore (root : Draft) (path : List String) (key : String) : Option (Draft × Draft) := do
  let seen ← within false false some path root
  let parent ← descend path seen
  match parent.entries.lookup key with
  | none => return (seen, .headed)
  | some (.table origin entries) =>
    if origin.implied && !origin.dotted && !origin.inBraces then
      let root ← within false false (fun parent =>
        some ⟨parent.origin, parent.entries.filter fun entry => entry.1 ≠ key⟩) path root
      return (root, ⟨⟨false, false, false⟩, entries⟩)
    else none
  | some _ => none
where
  descend : List String → Draft → Option Draft
    | [], d => some d
    | k :: ks, d =>
      match d.entries.lookup k with
      | some (.table origin entries) => descend ks ⟨origin, entries⟩
      | some (.tables elements) =>
        match elements.getLast? with
        | some (.table origin entries) => descend ks ⟨origin, entries⟩
        | _ => none
      | _ => none

/-- Goes on to the table of a header. -/
def Progress.openTable (p : Progress) (path : List String) (key : String) : Option Progress := do
  let settled ← p.settle
  let (root, draft) ← impliedBefore settled path key
  return ⟨root, some (path, key), false, draft⟩

/-- Goes on to another table of a double header. -/
def Progress.openRepeated (p : Progress) (path : List String) (key : String) : Option Progress := do
  let settled ← p.settle
  let root ← within false false (fun parent =>
    match parent.entries.lookup key with
    | none => some ⟨parent.origin, parent.entries ++ [(key, .tables [])]⟩
    | some (.tables _) => some parent
    | some _ => none) path settled
  return ⟨root, some (path, key), true, .headed⟩

/-! ## Lines -/

/-- Reads a header, after its first bracket. -/
def readHeader (p : Progress) : Reader Progress
  | '[' :: rest => do
    let ((path, key), rest) ← readKey rest
    let rest ← after? ']' rest
    let rest ← after? ']' rest
    let rest ← afterLineRest? rest
    let next ← p.openRepeated path key
    return (next, rest)
  | cs => do
    let ((path, key), rest) ← readKey cs
    let rest ← after? ']' rest
    let rest ← afterLineRest? rest
    let next ← p.openTable path key
    return (next, rest)

/-- Reads a key with its value. -/
def readEntry (p : Progress) : Reader Progress := fun cs => do
  let ((path, key), rest) ← readKey cs
  let rest ← after? '=' rest
  let (node, rest) ← readValue (nestingBound - 1) (skipBlanks rest)
  let rest ← afterLineRest? rest
  let draft ← addValue false path key node p.draft
  return ({ p with draft := draft }, rest)

/-- Reads all lines. -/
def readLines : (fuel : Nat) → Progress → List Char → Option Progress
  | 0, _, _ => none
  | fuel + 1, p, cs =>
    match skipBlanks cs with
    | [] => some p
    | '#' :: rest => do
      let rest ← afterLineEnd? (skipComment ('#' :: rest))
      readLines fuel p rest
    | '[' :: rest => do
      let (next, rest) ← readHeader p rest
      readLines fuel next rest
    | '\n' :: rest => readLines fuel p rest
    | '\r' :: rest => do
      let rest ← afterNewline? ('\r' :: rest)
      readLines fuel p rest
    | cs => do
      let (next, rest) ← readEntry p cs
      readLines fuel next rest

/-- The text without a byte order mark at its front. -/
def dropMark : List Char → List Char
  | c :: rest => if c.toNat = 0xfeff then rest else c :: rest
  | [] => []

/-- The entries of the document that a text writes. -/
def Document.read? (text : String) : Option Entries := do
  let cs := dropMark text.toList
  let p ← readLines (cs.length + 1) .start cs
  let root ← p.settle
  return root.entries

end ChainWatch.Toml
