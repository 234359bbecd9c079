/-!
# The small parts of TOML text

Readers take the characters that are left and give back what they read with the characters after
it, or nothing where the text does not start that way.
-/

namespace ChainWatch.Toml

/-- Reads from the front of the characters. -/
abbrev Reader (α : Type) := List Char → Option (α × List Char)

/-- A path of keys may have at most this many parts less one; values may nest as deep. -/
def nestingBound : Nat := 80

def isBlank (c : Char) : Bool := c = ' ' || c = '\t'

def skipBlanks (cs : List Char) : List Char := cs.dropWhile isBlank

/-- The text after a line feed, which may follow a carriage return. -/
def afterNewline? : List Char → Option (List Char)
  | '\n' :: rest => some rest
  | '\r' :: '\n' :: rest => some rest
  | _ => none

/-- May a character stand in a comment? -/
def isCommentChar (c : Char) : Bool := c = '\t' || (' ' ≤ c && c ≤ '~') || 0x80 ≤ c.toNat

/-- The text without a comment at its front. -/
def skipComment : List Char → List Char
  | '#' :: rest => rest.dropWhile isCommentChar
  | cs => cs

/-- The text after the end of a line, which the end of the text is as well. -/
def afterLineEnd? : List Char → Option (List Char)
  | [] => some []
  | cs => afterNewline? cs

/-- The text after blanks, a comment and the end of the line. -/
def afterLineRest? (cs : List Char) : Option (List Char) :=
  afterLineEnd? (skipComment (skipBlanks cs))

/-- The text without blanks, newlines, and comments that end with a newline; it loses something in
each of at most `fuel` turns. -/
def skipFiller : (fuel : Nat) → List Char → List Char
  | 0, cs => cs
  | fuel + 1, cs =>
    let cs := skipBlanks cs
    match afterNewline? (skipComment cs) with
    | some rest => skipFiller fuel rest
    | none => cs

/-- The text after an expected character. -/
def after? (c : Char) : List Char → Option (List Char)
  | d :: rest => if d = c then some rest else none
  | [] => none

end ChainWatch.Toml
