/-!
# Log filters

A filter says which lines are logged. It is a list of directives, divided by commas. A directive
names a level, a target, or both (`target=level`); after the target may stand, in brackets, a span
and, in braces, a field. A target without a level stands for all levels of that target.

A line is logged if the most specific directive that is about it reaches its level. A directive is
about the targets that begin with its own; the longer its target and the more fields it names, the
more specific it is. Directives about spans are about no line outside of a span, and no line that
is asked about here stands inside of one.
-/

namespace ChainWatch.Log

inductive Level where
  | off
  | error
  | warn
  | info
  | debug
  | trace
deriving DecidableEq

namespace Level

/-- How much a level lets through. -/
def rank : Level → Nat
  | off => 0
  | error => 1
  | warn => 2
  | info => 3
  | debug => 4
  | trace => 5

def all : List Level := [off, error, warn, info, debug, trace]

/-- The word for a level. -/
def word : Level → String
  | off => "off"
  | error => "error"
  | warn => "warn"
  | info => "info"
  | debug => "debug"
  | trace => "trace"

/-- How a line of this level is marked. -/
def mark (l : Level) : String := l.word.map Char.toUpper

/-- The number that a text of digits stands for; a plus may stand in front. -/
def number? (cs : List Char) : Option Nat :=
  let digits := match cs with
    | '+' :: rest => rest
    | cs => cs
  if digits ≠ [] ∧ digits.all Char.isDigit then
    some (digits.foldl (fun n c => n * 10 + (c.toNat - 48)) 0)
  else none

/-- A level from its number or from its word in any case. -/
def read? (cs : List Char) : Option Level :=
  match number? cs with
  | some n => all.find? fun l => l.rank == n
  | none => all.find? fun l => l.word.toList == cs.map Char.toLower

end Level

/-- A directive about lines. -/
structure Directive where
  /-- What its targets begin with; without one it is about all targets. -/
  target : Option String
  /-- The fields that its lines have. -/
  fields : List String
  /-- Is it about lines at all, or about spans only? -/
  aboutLines : Bool
  level : Level
deriving DecidableEq

/-- What can be wrong with a directive. -/
inductive Flaw where
  | malformed
  | unknownLevel
deriving DecidableEq

def Flaw.message : Flaw → String
  | malformed => "invalid filter directive"
  | unknownLevel =>
    "error parsing level filter: expected one of \"off\", \"error\", \"warn\", \"info\", \"debug\", \"trace\", or a number 0-5"

namespace Directive

/-- May a directive start with this character? Characters outside of ASCII all count as letters. -/
def canStart (c : Char) : Bool :=
  c == '-' || c == ':' || c == '_' || c.isAlphanum || 128 ≤ c.toNat

/-- The level that stands behind an equals sign; none stands for all levels. -/
def levelAfter (cs : List Char) : Except Flaw Level :=
  if cs = [] then .ok .trace
  else match Level.read? cs with
    | some level => .ok level
    | none => .error .unknownLevel

/-- What follows the brackets: nothing, or a level. -/
def closing (target : Option String) (fields : List String) (aboutLines : Bool) :
    List Char → Except Flaw Directive
  | [] => .ok ⟨target, fields, aboutLines, .trace⟩
  | '=' :: rest => (levelAfter rest).map fun level => ⟨target, fields, aboutLines, level⟩
  | _ => .error .malformed

/-- What stands behind an opening bracket. -/
def inBrackets (target : Option String) (cs : List Char) : Except Flaw Directive :=
  let span := cs.takeWhile fun c => c != ']' && c != '\x7b'
  match cs.drop span.length with
  | ']' :: rest => closing target [] false rest
  | '\x7b' :: inner =>
    let field := inner.takeWhile (· != '\x7d')
    match field, inner.drop field.length with
    | _ :: _, '\x7d' :: ']' :: rest =>
      closing target [String.ofList (field.takeWhile (· != '='))] (span = [] ∧ '=' ∉ field) rest
    | _, _ => .error .malformed
  | _ => .error .malformed

/-- A text without the blanks around it. -/
def trim (cs : List Char) : List Char :=
  ((cs.dropWhile Char.isWhitespace).reverse.dropWhile Char.isWhitespace).reverse

/-- A directive from its text. -/
def read (text : String) : Except Flaw Directive :=
  let cs := trim text.toList
  match cs with
  | [] => .error .malformed
  | '[' :: rest => inBrackets none rest
  | c :: _ =>
    if !canStart c then .error .malformed
    else
      let head := cs.takeWhile fun c => c != '=' && c != '['
      let target := some (String.ofList head)
      match cs.drop head.length with
      | '=' :: rest => (levelAfter rest).map fun level => ⟨target, [], true, level⟩
      | '[' :: rest => inBrackets target rest
      | _ =>
        match Level.read? head with
        | some level => .ok ⟨none, [], true, level⟩
        | none => .ok ⟨target, [], true, .trace⟩

/-- Is the directive about lines of this target with these fields? -/
def concerns (d : Directive) (target : String) (fields : List String) : Bool :=
  d.aboutLines && (d.target.all fun t => t.toList.isPrefixOf target.toList)
    && d.fields.all fields.contains

/-- How specific a directive is: first by its target, then by its fields. -/
def isAsSpecific (a b : Directive) : Bool :=
  let length (d : Directive) : Nat := d.target.elim 0 fun t => t.utf8ByteSize + 1
  length b < length a || (length a == length b && b.fields.length ≤ a.fields.length)

end Directive

/-- Directives, in the order in which they were given. -/
abbrev Filter := List Directive

namespace Filter

/-- The directives of a text. -/
def pieces (text : String) : List String := (text.splitOn ",").filter fun piece => piece ≠ ""

/-- A filter from its text, if all of it is right. -/
def read? (text : String) : Option Filter :=
  (pieces text).mapM fun piece => (Directive.read piece).toOption

/-- The right directives of a text, and what is said about the others. -/
def readWhatIsRight (text : String) : Filter × List String :=
  let readings := (pieces text).map fun piece => (piece, Directive.read piece)
  (readings.filterMap fun (_, reading) => reading.toOption,
    readings.filterMap fun (piece, reading) =>
      match reading with
      | .ok _ => none
      | .error flaw => some ("ignoring `" ++ piece ++ "`: " ++ flaw.message))

/-- The most specific of the directives about a line; of two that are alike, the later one. -/
def mostSpecific (f : Filter) (target : String) (fields : List String) : Option Directive :=
  f.foldl (fun best d =>
    if !d.concerns target fields then best
    else match best with
      | none => some d
      | some b => if d.isAsSpecific b then some d else some b) none

/-- The level that an empty filter lets through. -/
def emptyLevel : Level := .error

/-- Is a line of this level logged? -/
def shows (f : Filter) (target : String) (fields : List String) (level : Level) : Bool :=
  if f.isEmpty then level.rank ≤ emptyLevel.rank
  else match f.mostSpecific target fields with
    | some d => level.rank ≤ d.level.rank
    | none => false

end Filter

end ChainWatch.Log
