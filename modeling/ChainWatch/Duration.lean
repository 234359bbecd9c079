/-!
# Durations

A duration is a whole number of nanoseconds. Its text uses the largest of the units s, ms, µs and
ns in which the whole part is positive, and writes the remainder as an exact decimal fraction
without trailing zeros.
-/

namespace ChainWatch

/-- A length of time in nanoseconds. -/
structure Duration where
  nanos : Nat
deriving DecidableEq, Inhabited

namespace Duration

def ofMillis (ms : Nat) : Duration := ⟨ms * 1000000⟩

def ofSeconds (s : Nat) : Duration := ⟨s * 1000000000⟩

/-- The whole seconds of a duration. -/
def seconds (d : Duration) : Nat := d.nanos / 1000000000

/-- The nanoseconds beyond the whole seconds. -/
def subsecond (d : Duration) : Nat := d.nanos % 1000000000

/-- The whole milliseconds of a duration. -/
def millis (d : Duration) : Nat := d.nanos / 1000000

theorem millis_ofMillis (ms : Nat) : (ofMillis ms).millis = ms :=
  Nat.mul_div_cancel ms (by decide)

/-- Seconds and nanoseconds together, unless the whole seconds pass 64 bits. -/
def ofParts? (seconds nanos : Nat) : Option Duration :=
  let d : Duration := ⟨seconds * 1000000000 + nanos⟩
  if d.seconds < UInt64.size then some d else none

/-- The digits of `n` as a decimal fraction of `width` places, trailing zeros left out. -/
def fraction (width n : Nat) : String :=
  let digits := (toString n).toList
  let padded := List.replicate (width - digits.length) '0' ++ digits
  String.ofList (padded.reverse.dropWhile (· = '0')).reverse

/-- `n` counts of a unit that is `10 ^ width` nanoseconds long. -/
def inUnit (n width : Nat) (unit : String) : String :=
  let length := Nat.pow 10 width
  let rest := n % length
  let whole := toString (n / length)
  if rest = 0 then whole ++ unit else whole ++ "." ++ fraction width rest ++ unit

/-- The text of a duration. -/
def text (d : Duration) : String :=
  if 1000000000 ≤ d.nanos then inUnit d.nanos 9 "s"
  else if 1000000 ≤ d.nanos then inUnit d.nanos 6 "ms"
  else if 1000 ≤ d.nanos then inUnit d.nanos 3 "µs"
  else inUnit d.nanos 0 "ns"

end Duration

end ChainWatch
