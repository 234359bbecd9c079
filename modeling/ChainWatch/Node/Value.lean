import ChainWatch.Text.Quoted
import ChainWatch.Transaction

/-!
# Values that nodes send

Nodes answer with trees of named fields, lists, texts and numbers. Amounts, hashes and raw bytes
are always texts of hexadecimal digits; a bare number is never taken for one.

A reader turns a value into a value of the domain or refuses it. A shape lists what an object has
to look like: the fields it has to have, and what may stand in them; fields that no rule names are
free.
-/

namespace ChainWatch.Node

/-- A value as a node sends it. A number keeps its text. -/
inductive Value where
  | null
  | bool (value : Bool)
  | number (digits : String)
  | text (value : String)
  | list (values : List Value)
  | object (fields : List (String × Value))
deriving Inhabited

namespace Value

mutual

/-- A value written out with the kind of each of its parts. -/
def describe : Value → String
  | null => "Null"
  | bool value => "Bool(" ++ toString value ++ ")"
  | number digits => "Number(" ++ digits ++ ")"
  | text value => "String(" ++ Text.quote value ++ ")"
  | list values => "Array [" ++ ", ".intercalate (describeAll values) ++ "]"
  | object fields => "Object \x7b" ++ ", ".intercalate (describeFields fields) ++ "\x7d"

def describeAll : List Value → List String
  | [] => []
  | value :: rest => value.describe :: describeAll rest

def describeFields : List (String × Value) → List String
  | [] => []
  | (name, value) :: rest => (Text.quote name ++ ": " ++ value.describe) :: describeFields rest

end

/-! ## Readers -/

def text? : Value → Option String
  | text value => some value
  | _ => none

/-- A number below `2 ^ 64`. -/
def number64? (v : Value) : Option UInt64 :=
  v.text?.bind fun s => (Hex.readNumber? 8 s).map UInt64.ofNat

def amount? (v : Value) : Option Word :=
  v.text?.bind fun s => (Hex.readNumber? 32 s).map Word.clamp

def hash? (v : Value) : Option Hash := v.text?.bind Hash.read?

def account? (v : Value) : Option Account := v.text?.bind Account.read?

/-- Exactly `count` bytes. -/
def fixed? (count : Nat) (v : Value) : Option (List UInt8) := v.text?.bind (Hex.readFixed? count)

/-- Any number of bytes, as pairs of digits and nothing between them. -/
def bytes? (v : Value) : Option (List UInt8) := v.text?.bind fun s => Hex.pairs? (Hex.strip0x s.toList)

/-- The first field of an object with the given name. -/
def field? (v : Value) (name : String) : Option Value :=
  match v with
  | object fields => fields.lookup name
  | _ => none

/-- What a reader finds in a field; nothing where the field is missing, null or unreadable. -/
def get? {α : Type} (v : Value) (name : String) (read : Value → Option α) : Option α :=
  (v.field? name).bind read

/-! ## Shapes -/

def isNull : Value → Bool
  | null => true
  | _ => false

def isBool : Value → Bool
  | bool _ => true
  | _ => false

def isText (v : Value) : Bool := v.text?.isSome

def isNumber64 (v : Value) : Bool := v.number64?.isSome

def isAmount (v : Value) : Bool := v.amount?.isSome

def isHash (v : Value) : Bool := v.hash?.isSome

def isAccount (v : Value) : Bool := v.account?.isSome

def isFixed (count : Nat) (v : Value) : Bool := (v.fixed? count).isSome

def isBytes (v : Value) : Bool := v.bytes?.isSome

/-- A list of which every value passes the test. -/
def isListOf (test : Value → Bool) : Value → Bool
  | list values => values.all test
  | _ => false

end Value

/-- When a field may be left out. -/
inductive Presence where
  /-- The field is there and holds a value. -/
  | required
  /-- The field may be missing, but not null. -/
  | omissible
  /-- The field may be missing or null. -/
  | optional
deriving DecidableEq

/-- What an object holds under one name. -/
structure FieldRule where
  name : String
  presence : Presence
  test : Value → Bool

/-- Is a value, or the lack of one, right for the field? -/
def FieldRule.admits (rule : FieldRule) : Option Value → Bool
  | none => rule.presence != .required
  | some v => (rule.presence == .optional && v.isNull) || rule.test v

/-- The fields that matter of an object. -/
abbrev Shape := List FieldRule

namespace Shape

/-- Is the value an object of this shape? -/
def admits (shape : Shape) : Value → Bool
  | .object fields => shape.all fun rule => rule.admits (fields.lookup rule.name)
  | _ => false

/-- The same of a list that gives the values of all fields in order. -/
def admitsInOrder (shape : Shape) : Value → Bool
  | .list values =>
    values.length == shape.length
      && (shape.zip values).all fun (rule, value) => rule.admits (some value)
  | _ => false

/-- Fields of one presence. -/
def fields (presence : Presence) (rules : List (String × (Value → Bool))) : Shape :=
  rules.map fun (name, test) => ⟨name, presence, test⟩

end Shape

end ChainWatch.Node
