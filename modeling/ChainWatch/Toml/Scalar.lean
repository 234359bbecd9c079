import ChainWatch.Hex
import ChainWatch.Toml.Lexical
import ChainWatch.Toml.Node

/-!
# Numbers, dates and times

Whole numbers are decimal, without leading zeros, or in base 16, 8 or 2 without a sign; an
underscore may stand between two digits; they have 64 bits. Numbers with a fraction or an exponent
are floats; one that rounds to positive infinity is refused. Dates and times are checked against
the calendar and the clock.
-/

namespace ChainWatch.Toml

/-- The digits that follow a first one, each alone or after an underscore. -/
def moreDigits (isDigit : Char → Bool) : Reader (List Char)
  | [] => some ([], [])
  | '_' :: rest =>
    match rest with
    | d :: _ => if isDigit d then moreDigits isDigit rest else none
    | [] => none
  | c :: rest =>
    if isDigit c then (moreDigits isDigit rest).map fun (ds, rest) => (c :: ds, rest)
    else some ([], c :: rest)

/-- At least one digit. -/
def readDigits (isDigit : Char → Bool) : Reader (List Char)
  | c :: rest =>
    if isDigit c then (moreDigits isDigit rest).map fun (ds, rest) => (c :: ds, rest) else none
  | [] => none

/-- The number that digits write in a base. -/
def digitsValue (base : Nat) (ds : List Char) : Nat :=
  ds.foldl (fun n d => n * base + (Hex.digitValue? d).getD 0) 0

/-- Is there a minus at the front? And the text without its sign. -/
def readSign : List Char → Bool × List Char
  | '-' :: rest => (true, rest)
  | '+' :: rest => (false, rest)
  | cs => (false, cs)

/-- A decimal number without sign: a lone zero, or digits that start with another one. -/
def readDecimal : Reader (List Char)
  | '0' :: rest => some (['0'], rest)
  | cs => readDigits Char.isDigit cs

/-- A whole number within 64 bits. -/
def integerNode? (n : Int) : Option Node :=
  if Int64.minValue.toInt ≤ n ∧ n ≤ Int64.maxValue.toInt then some (.integer n) else none

/-- Does a positive number, given by its digits and the power of ten it is multiplied with, round
to infinity? The bound lies half a step above the largest float. -/
def roundsToInfinity (digits : List Char) (power : Int) : Bool :=
  let digits := digits.dropWhile (· = '0')
  let bound : Nat := 1 <<< 1024 - 1 <<< 970
  let scale := power + digits.length
  if digits = [] then false
  else if 310 < scale then true
  else if scale < 308 then false
  else if 0 ≤ power then bound ≤ digitsValue 10 digits * Nat.pow 10 power.toNat
  else bound * Nat.pow 10 (-power).toNat ≤ digitsValue 10 digits

/-- The exponent of a float, if the text starts with one. -/
def readExponent : Reader Int
  | e :: rest =>
    if e = 'e' || e = 'E' then
      let (negative, rest) := readSign rest
      (readDigits Char.isDigit rest).map fun (ds, rest) =>
        (if negative then -(digitsValue 10 ds : Int) else digitsValue 10 ds, rest)
    else none
  | [] => none

/-- A float or a whole number that starts with the given digits. -/
def finishNumber (negative : Bool) (whole : List Char) (cs : List Char) :
    Option (Node × List Char) :=
  let float (fraction : List Char) (exponent : Int) (rest : List Char) : Option (Node × List Char) :=
    if !negative && roundsToInfinity (whole ++ fraction) (exponent - fraction.length) then none
    else some (.float, rest)
  match cs with
  | '.' :: rest => do
    let (fraction, rest) ← readDigits Char.isDigit rest
    match rest with
    | e :: _ =>
      if e = 'e' || e = 'E' then
        let (exponent, rest) ← readExponent rest
        float fraction exponent rest
      else float fraction 0 rest
    | [] => float fraction 0 rest
  | e :: _ =>
    if e = 'e' || e = 'E' then do
      let (exponent, rest) ← readExponent cs
      float [] exponent rest
    else (integerNode? (signed negative whole)).map (·, cs)
  | [] => (integerNode? (signed negative whole)).map (·, cs)
where
  signed (negative : Bool) (whole : List Char) : Int :=
    if negative then -(digitsValue 10 whole : Int) else digitsValue 10 whole

def isHexDigit (c : Char) : Bool := (Hex.digitValue? c).isSome

/-- A number in another base, after its two first characters. -/
def readBased (base : Nat) (isDigit : Char → Bool) : Reader Node := fun cs => do
  let (ds, rest) ← readDigits isDigit cs
  let node ← integerNode? (digitsValue base ds)
  return (node, rest)

/-- A whole number or a float. -/
def readNumber : Reader Node
  | '0' :: 'x' :: rest => readBased 16 isHexDigit rest
  | '0' :: 'o' :: rest => readBased 8 (fun c => '0' ≤ c && c ≤ '7') rest
  | '0' :: 'b' :: rest => readBased 2 (fun c => c = '0' || c = '1') rest
  | cs =>
    let (negative, rest) := readSign cs
    match rest with
    | 'i' :: 'n' :: 'f' :: rest => some (.float, rest)
    | 'n' :: 'a' :: 'n' :: rest => some (.float, rest)
    | _ => do
      let (whole, rest) ← readDecimal rest
      finishNumber negative whole rest

/-! ## Dates and times -/

/-- A number of exactly `count` digits within bounds. -/
def readFixed (count low high : Nat) : Reader Nat := fun cs =>
  let ds := cs.take count
  if ds.length = count ∧ ds.all Char.isDigit then
    let n := digitsValue 10 ds
    if low ≤ n ∧ n ≤ high then some (n, cs.drop count) else none
  else none

def isLeapYear (year : Nat) : Bool := year % 4 = 0 && (year % 100 ≠ 0 || year % 400 = 0)

def daysInMonth (year month : Nat) : Nat :=
  if month = 2 then (if isLeapYear year then 29 else 28)
  else if month = 4 ∨ month = 6 ∨ month = 9 ∨ month = 11 then 30
  else 31

/-- The text after a date. -/
def afterDate? (cs : List Char) : Option (List Char) := do
  let (year, cs) ← readFixed 4 0 9999 cs
  let cs ← after? '-' cs
  let (month, cs) ← readFixed 2 1 12 cs
  let cs ← after? '-' cs
  let (day, cs) ← readFixed 2 1 31 cs
  if day ≤ daysInMonth year month then some cs else none

/-- The text after a time of day; a minute may have a leap second. -/
def afterTime? (cs : List Char) : Option (List Char) := do
  let (_, cs) ← readFixed 2 0 23 cs
  let cs ← after? ':' cs
  let (_, cs) ← readFixed 2 0 59 cs
  let cs ← after? ':' cs
  let (_, cs) ← readFixed 2 0 60 cs
  match cs with
  | '.' :: d :: rest => if d.isDigit then some (rest.dropWhile Char.isDigit) else some cs
  | _ => some cs

/-- The text after an offset from universal time, if there is one. -/
def afterOffset (cs : List Char) : List Char :=
  match cs with
  | 'Z' :: rest => rest
  | 'z' :: rest => rest
  | c :: rest =>
    if c = '+' || c = '-' then
      let offset : Option (List Char) := do
        let (_, cs) ← readFixed 2 0 23 rest
        let cs ← after? ':' cs
        let (_, cs) ← readFixed 2 0 59 cs
        return cs
      offset.getD cs
    else cs
  | [] => []

/-- A date, a time, or both with or without an offset. -/
def readMoment : Reader Node := fun cs =>
  match afterDate? cs with
  | some rest =>
    match rest with
    | d :: more =>
      if d = 'T' || d = 't' || d = ' ' then
        match afterTime? more with
        | some rest => some (.moment, afterOffset rest)
        | none => some (.moment, rest)
      else some (.moment, rest)
    | [] => some (.moment, [])
  | none => (afterTime? cs).map (.moment, ·)

end ChainWatch.Toml
