/-!
# What a TOML document holds

A document is a table: values by key. Tables come about in three ways, and the way decides who may
add to them later: written out under a header or in braces, implied by a longer header, or implied
by a dotted key. `within` goes down a path of keys, makes the tables that are missing, and refuses
the ways that the format forbids.
-/

namespace ChainWatch.Toml

/-- How a table came about. -/
structure TableOrigin where
  /-- Written in braces. -/
  inBraces : Bool
  /-- Only implied so far. -/
  implied : Bool
  /-- Implied by a dotted key. -/
  dotted : Bool
deriving DecidableEq

/-- A value of a document. Where nobody asks for more than the type, the value is left out. -/
inductive Node where
  | string (text : String)
  | integer (n : Int)
  | float
  | boolean (b : Bool)
  | moment
  | array (items : List Node)
  | table (origin : TableOrigin) (entries : List (String × Node))
  /-- Tables that were given one after the other under a double header. -/
  | tables (elements : List Node)

abbrev Entries := List (String × Node)

/-- A table under construction. -/
structure Draft where
  origin : TableOrigin
  entries : Entries

/-- An empty table that was written out under a header. -/
def Draft.headed : Draft := ⟨⟨false, false, false⟩, []⟩

def Draft.node (d : Draft) : Node := .table d.origin d.entries

/-- The entries with the value of one key replaced, or the key added at the end. -/
def setEntry (key : String) (node : Node) : Entries → Entries
  | [] => [(key, node)]
  | (k, old) :: rest => if k = key then (k, node) :: rest else (k, old) :: setEntry key node rest

/-- Changes the table at the end of a path. Missing tables on the way are made; `dotted` says
whether the path is that of a dotted key, which may pass only through implied tables. -/
def within (inBraces dotted : Bool) (change : Draft → Option Draft) :
    List String → Draft → Option Draft
  | [], d => change d
  | key :: path, d =>
    let store (child : Draft) : Draft := ⟨d.origin, setEntry key child.node d.entries⟩
    match d.entries.lookup key with
    | none => do
      let child ← within inBraces dotted change path ⟨⟨inBraces, true, dotted⟩, []⟩
      return store child
    | some (.table origin entries) =>
      if origin.inBraces ≠ inBraces then none
      else if dotted ∧ ¬ origin.implied then none
      else do
        let child ← within inBraces dotted change path ⟨origin, entries⟩
        return store child
    | some (.tables elements) =>
      match elements.getLast? with
      | some (.table origin entries) => do
        let child ← within inBraces dotted change path ⟨origin, entries⟩
        return ⟨d.origin, setEntry key (.tables (elements.dropLast ++ [child.node])) d.entries⟩
      | _ => none
    | some _ => none

/-- Adds the value of a key, dotted if the path before its last part is not empty. A table takes
either dotted or plain keys, and each key once. -/
def addValue (inBraces : Bool) (path : List String) (key : String) (node : Node) (d : Draft) :
    Option Draft :=
  within inBraces (path ≠ []) (fun target =>
    if target.origin.dotted = decide (path = []) then none
    else if (target.entries.lookup key).isSome then none
    else some ⟨target.origin, target.entries ++ [(key, node)]⟩) path d

end ChainWatch.Toml
