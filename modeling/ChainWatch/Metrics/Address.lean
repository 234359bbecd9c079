import ChainWatch.Error

/-!
# Addresses to listen on

Metrics are served on a socket address: four decimal numbers, or groups of hexadecimal digits
in brackets, and a port. A decimal part of the first kind has no leading zero. In the second
kind `::` stands for at least one group of zeros, the last two groups may be written as an
address of the first kind, and a number after `%` names the network it belongs to.
-/

namespace ChainWatch.Metrics

/-- A socket address. -/
inductive Address where
  | v4 (parts : List Nat) (port : Nat)
  | v6 (groups : List Nat) (scope port : Nat)
deriving DecidableEq

namespace Address

/-! ## Reading -/

/-- The value of a digit in a base of up to sixteen. -/
def digit? (base : Nat) (c : Char) : Option Nat :=
  let value :=
    if '0' ≤ c ∧ c ≤ '9' then c.toNat - 48
    else if 'a' ≤ c ∧ c ≤ 'f' then c.toNat - 87
    else if 'A' ≤ c ∧ c ≤ 'F' then c.toNat - 55
    else base
  if value < base then some value else none

/-- A number below `bound` of at most `most` digits at the front of a text, and what follows. -/
def number? (base bound : Nat) (most : Option Nat) (cs : List Char) : Option (Nat × List Char) :=
  let digits := cs.takeWhile fun c => (digit? base c).isSome
  let value := digits.foldl (fun n c => n * base + (digit? base c).getD 0) 0
  if digits ≠ [] ∧ most.all (digits.length ≤ ·) ∧ value < bound then
    some (value, cs.drop digits.length)
  else none

/-- What follows a given character. -/
def after? (c : Char) : List Char → Option (List Char)
  | d :: rest => if d = c then some rest else none
  | [] => none

/-- One decimal part; only zero itself starts with a zero. -/
def part? (cs : List Char) : Option (Nat × List Char) := do
  let (value, rest) ← number? 10 256 (some 3) cs
  if cs.head? = some '0' ∧ rest.length + 1 < cs.length then none else some (value, rest)

/-- Four decimal parts. -/
def parts? (cs : List Char) : Option (List Nat × List Char) := do
  let (a, cs) ← part? cs
  let (b, cs) ← part? (← after? '.' cs)
  let (c, cs) ← part? (← after? '.' cs)
  let (d, cs) ← part? (← after? '.' cs)
  return ([a, b, c, d], cs)

/-- The separator in front of every group but the first. -/
def separated (isFirst : Bool) (cs : List Char) : Option (List Char) :=
  if isFirst then some cs else after? ':' cs

/-- Two groups written as four decimal parts. -/
def embedded? (isFirst : Bool) (cs : List Char) : Option (List Nat × List Char) := do
  match ← parts? (← separated isFirst cs) with
  | ([a, b, c, d], rest) => some ([a * 256 + b, c * 256 + d], rest)
  | _ => none

/-- At most `room` groups, whether the last two were decimal, and what follows. -/
def groups : (room : Nat) → (isFirst : Bool) → List Char → List Nat × Bool × List Char
  | 0, _, cs => ([], false, cs)
  | room + 1, isFirst, cs =>
    match if 0 < room then embedded? isFirst cs else none with
    | some (pair, rest) => (pair, true, rest)
    | none =>
      match (separated isFirst cs).bind (number? 16 65536 (some 4)) with
      | some (group, rest) =>
        let (more, decimal, rest) := groups room false rest
        (group :: more, decimal, rest)
      | none => ([], false, cs)

/-- Eight groups, some of them perhaps left out. -/
def allGroups? (cs : List Char) : Option (List Nat × List Char) := do
  let (front, decimal, cs) := groups 8 true cs
  if front.length = 8 then return (front, cs)
  if decimal then none
  let (back, _, cs) := groups (7 - front.length) true (← after? ':' (← after? ':' cs))
  return (front ++ List.replicate (8 - front.length - back.length) 0 ++ back, cs)

/-- The port at the end of a text. -/
def port? (cs : List Char) : Option Nat := do
  let (port, rest) ← number? 10 65536 none (← after? ':' cs)
  if rest = [] then some port else none

def v4? (cs : List Char) : Option Address := do
  let (parts, cs) ← parts? cs
  return .v4 parts (← port? cs)

def scope? (cs : List Char) : Option (Nat × List Char) :=
  match after? '%' cs with
  | some rest => number? 10 UInt32.size none rest
  | none => some (0, cs)

def v6? (cs : List Char) : Option Address := do
  let (groups, cs) ← allGroups? (← after? '[' cs)
  let (scope, cs) ← scope? cs
  return .v6 groups scope (← port? (← after? ']' cs))

/-- An address from its text. -/
def read? (s : String) : Option Address := (v4? s.toList).or (v6? s.toList)

/-! ## Writing -/

def partsText (parts : List Nat) : String := ".".intercalate (parts.map toString)

def groupsText (groups : List Nat) : String :=
  ":".intercalate (groups.map fun g => String.ofList (Nat.toDigits 16 g))

/-- How many groups at the front are zero. -/
def zeros (groups : List Nat) : Nat := (groups.takeWhile (· == 0)).length

/-- Start and length of the first of the longest runs of zeros. -/
def longestZeros : (start : Nat) → List Nat → Nat × Nat
  | start, [] => (start, 0)
  | start, g :: rest =>
    let here := zeros (g :: rest)
    let later := longestZeros (start + 1) rest
    if later.2 ≤ here then (start, here) else later

def hostText (groups : List Nat) : String :=
  match groups with
  | [0, 0, 0, 0, 0, 65535, high, low] =>
    "::ffff:" ++ partsText [high / 256, high % 256, low / 256, low % 256]
  | groups =>
    let (start, length) := longestZeros 0 groups
    if 1 < length then groupsText (groups.take start) ++ "::" ++ groupsText (groups.drop (start + length))
    else groupsText groups

/-- The address as it is shown. -/
def text : Address → String
  | v4 parts port => partsText parts ++ ":" ++ toString port
  | v6 groups scope port =>
    "[" ++ hostText groups ++ (if scope = 0 then "" else "%" ++ toString scope) ++ "]:" ++ toString port

/-! ## Listening -/

/-- Does the address belong to every machine? The wildcards and the loopback addresses do. -/
def isLocal : Address → Bool
  | v4 parts _ => parts == [0, 0, 0, 0] || parts.head? == some 127
  | v6 groups _ _ =>
    groups.take 7 == List.replicate 7 0 && (groups.getLast?).all (· ≤ 1)

/-- Tries to listen on an address that nobody else uses. -/
def listen (address : Address) : Except ChainError Unit :=
  if address.isLocal then .ok ()
  else .error (.internal
    ("Failed to bind " ++ address.text ++ ": " ++ (Storage.OsError.code 99).message))

end Address

/-- Tries to listen on a host's port. -/
def listenOn (host : String) (port : UInt16) : Except ChainError Unit :=
  match Address.read? (host ++ ":" ++ toString port.toNat) with
  | some address => address.listen
  | none => .error (.config "Invalid metrics address: invalid socket address syntax")

end ChainWatch.Metrics
