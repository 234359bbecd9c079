import ChainWatch.Word

/-!
# Hexadecimal text, hashes and accounts

Hashes are 32 bytes and accounts 20; both are written as `0x` and two lower-case digits a byte.

Nodes and settings files give such values as text, with or without the `0x`. The text has a fixed
or bounded number of characters; blanks between the digits count towards that number and are then
passed over. Digits pair up from the left, an odd number of characters starting with a half byte,
and a digit that finds no partner at the end is dropped.
-/

namespace ChainWatch

/-- The number that bytes, most significant first, stand for. -/
def bigEndian (bytes : List UInt8) : Nat := bytes.foldl (fun n b => n * 256 + b.toNat) 0

namespace Hex

/-- The lower-case digit of a value below sixteen. -/
def digit (n : Nat) : Char := "0123456789abcdef".toList.getD n '0'

/-- Exactly `width` lower-case digits of `n`, the most significant ones cut off. -/
def fixed (width n : Nat) : List Char :=
  match width with
  | 0 => []
  | width + 1 => fixed width (n / 16) ++ [digit (n % 16)]

/-- Two lower-case digits for each byte. -/
def ofBytes (bytes : List UInt8) : String :=
  String.ofList (bytes.flatMap fun b => [digit (b.toNat / 16), digit (b.toNat % 16)])

/-- The value of one digit of either case. -/
def digitValue? (c : Char) : Option Nat :=
  if '0' ≤ c ∧ c ≤ '9' then some (c.toNat - 48)
  else if 'a' ≤ c ∧ c ≤ 'f' then some (c.toNat - 87)
  else if 'A' ≤ c ∧ c ≤ 'F' then some (c.toNat - 55)
  else none

/-- The bytes of a text of digit pairs and nothing else. -/
def pairs? : List Char → Option (List UInt8)
  | [] => some []
  | [_] => none
  | a :: b :: rest => do
    let high ← digitValue? a
    let low ← digitValue? b
    let bytes ← pairs? rest
    return UInt8.ofNat (high * 16 + low) :: bytes

/-- The characters that may stand between digits. -/
def isBlank (c : Char) : Bool := c = ' ' || c = '\r' || c = '\n' || c = '\t'

/-- Pairs digits up, blanks passed over; `half` is the digit that waits for its partner. -/
def pairLoosely (half : Option Nat) : List Char → Option (List UInt8)
  | [] => some []
  | c :: rest =>
    if isBlank c then pairLoosely half rest
    else do
      let value ← digitValue? c
      match half with
      | none => pairLoosely (some value) rest
      | some high =>
        let bytes ← pairLoosely none rest
        return UInt8.ofNat (high * 16 + value) :: bytes

/-- How many characters a hexadecimal text may have after its `0x`. -/
inductive Extent where
  /-- Exactly two for each of this many bytes. -/
  | exactly (bytes : Nat)
  /-- At least one, and at most two for each of this many bytes. -/
  | upTo (bytes : Nat)

/-- Does the text's size in bytes suit the extent? -/
def Extent.admits : Extent → Nat → Bool
  | exactly bytes, size => size == 2 * bytes
  | upTo bytes, size => 0 < size && size ≤ 2 * bytes

/-- The text without one leading `0x`. -/
def strip0x (cs : List Char) : List Char :=
  match cs with
  | '0' :: 'x' :: rest => rest
  | _ => cs

/-- The bytes of a hexadecimal text of the given extent; fewer than its characters promise where
blanks took the place of digits. -/
def read? (extent : Extent) (s : String) : Option (List UInt8) :=
  let digits := strip0x s.toList
  let size := (String.ofList digits).utf8ByteSize
  if extent.admits size then
    pairLoosely (if size % 2 = 1 then some 0 else none) digits
  else none

/-- Exactly `count` bytes: those of the text, then zeros. -/
def readFixed? (count : Nat) (s : String) : Option (List UInt8) :=
  (read? (.exactly count) s).map fun bytes => bytes ++ List.replicate (count - bytes.length) 0

/-- The number of at most `count` bytes that the text's digits stand for. -/
def readNumber? (count : Nat) (s : String) : Option Nat := (read? (.upTo count) s).map bigEndian

end Hex

/-- A 32-byte hash, as the number its bytes stand for. -/
structure Hash where
  value : Word
deriving DecidableEq, Inhabited

namespace Hash

/-- The hash with a small value. -/
def ofUInt64 (n : UInt64) : Hash := ⟨Word.clamp n.toNat⟩

def ofBytes (bytes : List UInt8) : Hash := ⟨Word.clamp (bigEndian bytes)⟩

def text (h : Hash) : String := "0x" ++ String.ofList (Hex.fixed 64 h.value.toNat)

/-- A hash from its hexadecimal text. -/
def read? (s : String) : Option Hash := (Hex.readFixed? 32 s).map ofBytes

end Hash

/-- The number of accounts, two to the 160th power. -/
abbrev Account.size : Nat := 0x10000000000000000000000000000000000000000

/-- A 20-byte account, as the number its bytes stand for. -/
structure Account where
  value : Nat
  value_lt : value < Account.size
deriving DecidableEq

namespace Account

def ofBytes (bytes : List UInt8) : Account :=
  ⟨bigEndian bytes % size, Nat.mod_lt _ (by decide)⟩

def zero : Account := ofBytes []

instance : Inhabited Account := ⟨zero⟩

def text (a : Account) : String := "0x" ++ String.ofList (Hex.fixed 40 a.value)

/-- An account from its hexadecimal text. -/
def read? (s : String) : Option Account := (Hex.readFixed? 20 s).map ofBytes

end Account

end ChainWatch
