import ChainWatch.Text.Hidden
import ChainWatch.Text.Utf8

/-!
# Quoted text

Names, paths and messages inside other messages stand in double quotes. Quotes, backslashes and
the common controls are written with a backslash, hidden characters by their number in lower-case
hexadecimal; everything else stands for itself. Paths escape the single quote as well, and write
bytes that are no text by their two upper-case hexadecimal digits.
-/

namespace ChainWatch.Text

/-- Which optional characters a quoted text escapes. -/
structure QuoteStyle where
  escapesApostrophe : Bool

/-- Names and messages keep an apostrophe as it is. -/
def textStyle : QuoteStyle := ⟨false⟩

/-- Paths escape an apostrophe. -/
def pathStyle : QuoteStyle := ⟨true⟩

/-- The lower-case hexadecimal digits of a number. -/
def hexDigits (n : Nat) : String := String.ofList (Nat.toDigits 16 n)

/-- How one character is written between the quotes. -/
def escapeChar (style : QuoteStyle) (c : Char) : String :=
  if c = '"' then "\\\""
  else if c = '\\' then "\\\\"
  else if c = '\n' then "\\n"
  else if c = '\r' then "\\r"
  else if c = '\t' then "\\t"
  else if c.toNat = 0 then "\\0"
  else if c = '\'' && style.escapesApostrophe then "\\'"
  else if isHidden c then "\\u\x7b" ++ hexDigits c.toNat ++ "\x7d"
  else c.toString

/-- How a byte that belongs to no character is written between the quotes. -/
def escapeByte (b : UInt8) : String :=
  let digits := (hexDigits b.toNat).toUpper
  if b < 16 then "\\x0" ++ digits else "\\x" ++ digits

/-- A text in double quotes. -/
def quote (s : String) : String :=
  "\"" ++ String.join (s.toList.map (escapeChar textStyle)) ++ "\""

/-- A path in double quotes. -/
def quotePath (bytes : List UInt8) : String :=
  let written (piece : Utf8Piece) : String :=
    match piece with
    | .char c => escapeChar pathStyle c
    | .bad bad => String.join (bad.map escapeByte)
  "\"" ++ String.join ((utf8Pieces bytes).map written) ++ "\""

end ChainWatch.Text
