/-!
# Placeholders

Settings may hold placeholders for variables of the environment: a dollar sign and, in braces, a
name of capital letters, digits and underscores that does not start with a digit. They are found
from the left, without overlap, in the text as it was written.

`fill` takes them one after the other and puts the value of each in place of every occurrence of it
in the text as it has become by then. `fillAtOnce` puts in the values where the placeholders stand
and looks at nothing twice.
-/

namespace ChainWatch.Template

/-- The values of variables; one that is unset reads as empty. -/
abbrev Environment := String → Option String

def isNameStart (c : Char) : Bool := c.isUpper || c = '_'

def isNameChar (c : Char) : Bool := c.isUpper || c.isDigit || c = '_'

/-- The name in the placeholder at the front of the text. -/
def nameAt? : List Char → Option (List Char)
  | '$' :: '\x7b' :: c :: rest =>
    if isNameStart c then
      let more := rest.takeWhile isNameChar
      if (rest.drop more.length).head? = some '\x7d' then some (c :: more) else none
    else none
  | _ => none

/-- The placeholder of a name. -/
def placeholder (name : List Char) : List Char := '$' :: '\x7b' :: name ++ ['\x7d']

/-- The names in the placeholders of a text, after passing over `skip` characters. -/
def names : (skip : Nat) → List Char → List (List Char)
  | _, [] => []
  | skip + 1, _ :: rest => names skip rest
  | 0, c :: rest =>
    match nameAt? (c :: rest) with
    | some name => name :: names (name.length + 2) rest
    | none => names 0 rest

/-- The text with each occurrence of a pattern replaced, found from the left without overlap, after
dropping `skip` characters. -/
def replaceAll (pattern value : List Char) : (skip : Nat) → List Char → List Char
  | _, [] => []
  | skip + 1, _ :: rest => replaceAll pattern value skip rest
  | 0, c :: rest =>
    if pattern.isPrefixOf (c :: rest) then
      value ++ replaceAll pattern value (pattern.length - 1) rest
    else c :: replaceAll pattern value 0 rest

/-- The value of a name. -/
def valueOf (env : Environment) (name : List Char) : List Char :=
  ((env (String.ofList name)).getD "").toList

/-- The text with its placeholders filled in, one after the other. -/
def fill (env : Environment) (text : String) : String :=
  String.ofList <| (names 0 text.toList).foldl
    (fun filled name => replaceAll (placeholder name) (valueOf env name) 0 filled) text.toList

/-- The characters with each placeholder replaced where it stands, after dropping `skip`. -/
def fillFrom (env : Environment) : (skip : Nat) → List Char → List Char
  | _, [] => []
  | skip + 1, _ :: rest => fillFrom env skip rest
  | 0, c :: rest =>
    match nameAt? (c :: rest) with
    | some name => valueOf env name ++ fillFrom env (name.length + 2) rest
    | none => c :: fillFrom env 0 rest

/-- The text with all placeholders filled in at once. -/
def fillAtOnce (env : Environment) (text : String) : String :=
  String.ofList (fillFrom env 0 text.toList)

end ChainWatch.Template
