import ChainWatch.Hex
import ChainWatch.Toml.Lexical

/-!
# Strings and keys

Strings stand between double quotes, with escapes, or between single quotes, without. Three quotes
open a string of several lines: a newline right after them is dropped, and a backslash before the
end of a line drops all blanks and newlines up to the next other character. Up to two quotes may
stand right before the closing three.
-/

namespace ChainWatch.Toml

/-- May a character stand for itself in a string with escapes? -/
def isBasicChar (c : Char) : Bool :=
  c = '\t' || c = ' ' || c = '!' || ('#' ≤ c && c ≤ '[') || (']' ≤ c && c ≤ '~') || 0x80 ≤ c.toNat

/-- May a character stand in a string without escapes? -/
def isLiteralChar (c : Char) : Bool :=
  c = '\t' || (' ' ≤ c && c ≤ '&') || ('(' ≤ c && c ≤ '~') || 0x80 ≤ c.toNat

/-- The character with the number that `count` hexadecimal digits write. -/
def readCodePoint? (count : Nat) (cs : List Char) : Option (Char × List Char) := do
  let digits ← (cs.take count).mapM Hex.digitValue?
  if digits.length = count then
    let n := digits.foldl (fun n d => n * 16 + d) 0
    if n.isValidChar then some (Char.ofNat n, cs.drop count) else none
  else none

/-- The character that an escape stands for; the backslash is read already. -/
def readEscape? : Reader Char
  | 'b' :: rest => some (Char.ofNat 8, rest)
  | 'f' :: rest => some (Char.ofNat 12, rest)
  | 'n' :: rest => some ('\n', rest)
  | 'r' :: rest => some ('\r', rest)
  | 't' :: rest => some ('\t', rest)
  | '"' :: rest => some ('"', rest)
  | '\\' :: rest => some ('\\', rest)
  | 'u' :: rest => readCodePoint? 4 rest
  | 'U' :: rest => readCodePoint? 8 rest
  | _ => none

/-- A character in front of what was read after it. -/
def consRead (c : Char) : Option (List Char × List Char) → Option (List Char × List Char)
  | some (text, rest) => some (c :: text, rest)
  | none => none

/-- A string of one line with escapes, after its opening quote. -/
def readBasic : (fuel : Nat) → Reader (List Char)
  | 0, _ => none
  | _, [] => none
  | fuel + 1, c :: rest =>
    if c = '"' then some ([], rest)
    else if c = '\\' then
      match readEscape? rest with
      | some (escaped, rest) => consRead escaped (readBasic fuel rest)
      | none => none
    else if isBasicChar c then consRead c (readBasic fuel rest)
    else none

/-- A string of one line without escapes, after its opening quote. -/
def readLiteral (cs : List Char) : Option (List Char × List Char) :=
  match cs.dropWhile isLiteralChar with
  | '\'' :: rest => some (cs.takeWhile isLiteralChar, rest)
  | _ => none

/-- What a run of quotes means in a string of several lines: it ends the string with some quotes
before the end, or it is part of the string. -/
inductive QuoteRun where
  | closes (before : Nat) (rest : List Char)
  | part (count : Nat) (rest : List Char)

/-- Reads a run of quotes. -/
def readQuoteRun (quote : Char) (cs : List Char) : QuoteRun :=
  let count := (cs.takeWhile (· = quote)).length
  if count < 3 then .part count (cs.drop count)
  else
    let before := min (count - 3) 2
    .closes before (cs.drop (before + 3))

/-- The text after a backslash that ends its line. -/
def afterLineContinuation? (cs : List Char) : Option (List Char) :=
  match afterNewline? (skipBlanks cs) with
  | none => none
  | some rest => some (skipGap rest.length rest)
where
  skipGap : Nat → List Char → List Char
    | 0, cs => cs
    | fuel + 1, cs =>
      let cs := skipBlanks cs
      match afterNewline? cs with
      | some rest => skipGap fuel rest
      | none => cs

/-- A string of several lines with escapes, after its opening quotes. -/
def readLongBasic : (fuel : Nat) → Reader (List Char)
  | 0, _ => none
  | _, [] => none
  | fuel + 1, c :: rest =>
    if c = '"' then
      match readQuoteRun '"' (c :: rest) with
      | .closes before rest => some (List.replicate before '"', rest)
      | .part count rest =>
        (readLongBasic fuel rest).map fun (text, rest) => (List.replicate count '"' ++ text, rest)
    else if c = '\\' then
      match afterLineContinuation? rest with
      | some rest => readLongBasic fuel rest
      | none =>
        match readEscape? rest with
        | some (escaped, rest) => consRead escaped (readLongBasic fuel rest)
        | none => none
    else
      match afterNewline? (c :: rest) with
      | some rest => consRead '\n' (readLongBasic fuel rest)
      | none => if isBasicChar c then consRead c (readLongBasic fuel rest) else none

/-- A string of several lines without escapes, after its opening quotes. -/
def readLongLiteral : (fuel : Nat) → Reader (List Char)
  | 0, _ => none
  | _, [] => none
  | fuel + 1, c :: rest =>
    if c = '\'' then
      match readQuoteRun '\'' (c :: rest) with
      | .closes before rest => some (List.replicate before '\'', rest)
      | .part count rest =>
        (readLongLiteral fuel rest).map fun (text, rest) =>
          (List.replicate count '\'' ++ text, rest)
    else
      match afterNewline? (c :: rest) with
      | some rest => consRead '\n' (readLongLiteral fuel rest)
      | none => if isLiteralChar c then consRead c (readLongLiteral fuel rest) else none

/-- The text without a newline at its front. -/
def dropNewline (cs : List Char) : List Char := (afterNewline? cs).getD cs

/-- A string of any of the four sorts. -/
def readString : Reader String := fun cs =>
  let text : Option (List Char × List Char) :=
    match cs with
    | '"' :: '"' :: '"' :: rest => readLongBasic (rest.length + 1) (dropNewline rest)
    | '\'' :: '\'' :: '\'' :: rest => readLongLiteral (rest.length + 1) (dropNewline rest)
    | '"' :: rest => readBasic (rest.length + 1) rest
    | '\'' :: rest => readLiteral rest
    | _ => none
  text.map fun (text, rest) => (String.ofList text, rest)

/-! ## Keys -/

/-- May a character stand in a key without quotes? -/
def isBareKeyChar (c : Char) : Bool := c.isAlphanum || c = '-' || c = '_'

/-- One part of a key. -/
def readKeyPart : Reader String
  | '"' :: rest => (readBasic (rest.length + 1) rest).map fun (k, rest) => (String.ofList k, rest)
  | '\'' :: rest => (readLiteral rest).map fun (k, rest) => (String.ofList k, rest)
  | cs =>
    let bare := cs.takeWhile isBareKeyChar
    if bare = [] then none else some (String.ofList bare, cs.dropWhile isBareKeyChar)

/-- The parts of a key between dots, blanks around each. -/
def readKeyParts : (fuel : Nat) → Reader (List String)
  | 0, _ => none
  | fuel + 1, cs => do
    let (part, rest) ← readKeyPart (skipBlanks cs)
    let rest := skipBlanks rest
    match rest with
    | '.' :: more =>
      let (parts, rest) ← readKeyParts fuel more
      return (part :: parts, rest)
    | _ => return ([part], rest)

/-- A key: the parts before the last one, and the last one. -/
def readKey : Reader (List String × String) := fun cs => do
  let (parts, rest) ← readKeyParts (cs.length + 1) cs
  if nestingBound ≤ parts.length then none
  else
    let last ← parts.getLast?
    return ((parts.dropLast, last), rest)

end ChainWatch.Toml
