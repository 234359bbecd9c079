/-!
# Characters in bytes

Bytes that should hold text are cut into characters and bad sequences. A bad sequence is as long
as the bytes could still have begun a character; what follows it is read afresh. Readers either
refuse bytes with a bad sequence, or put the replacement character in its place.
-/

namespace ChainWatch.Text

/-- A piece of bytes that should hold text. -/
inductive Utf8Piece where
  | char (c : Char)
  | bad (bytes : List UInt8)
deriving DecidableEq

/-- How many bytes follow a first byte, and between which bounds the second one lies. -/
def sequenceShape? (b : UInt8) : Option (Nat × UInt8 × UInt8) :=
  if b < 0xc2 then none
  else if b < 0xe0 then some (1, 0x80, 0xbf)
  else if b = 0xe0 then some (2, 0xa0, 0xbf)
  else if b = 0xed then some (2, 0x80, 0x9f)
  else if b < 0xf0 then some (2, 0x80, 0xbf)
  else if b = 0xf0 then some (3, 0x90, 0xbf)
  else if b < 0xf4 then some (3, 0x80, 0xbf)
  else if b = 0xf4 then some (3, 0x80, 0x8f)
  else none

/-- The character of a complete sequence. -/
def sequenceChar (bytes : List UInt8) : Char :=
  let low (b : UInt8) := b.toNat % 64
  Char.ofNat <|
    match bytes with
    | [a, b] => (a.toNat % 32) * 64 + low b
    | [a, b, c] => (a.toNat % 16) * 4096 + low b * 64 + low c
    | [a, b, c, d] => (a.toNat % 8) * 262144 + low b * 4096 + low c * 64 + low d
    | _ => 0

/-- The part of `rest`, at most `count` bytes, that continues a sequence; the first of them is
held to the given bounds. -/
def continuation (low high : UInt8) : Nat → List UInt8 → List UInt8
  | 0, _ => []
  | _, [] => []
  | count + 1, b :: rest =>
    if low ≤ b && b ≤ high then b :: continuation 0x80 0xbf count rest else []

/-- The first piece of nonempty bytes, and how many bytes it takes. -/
def firstPiece (b : UInt8) (rest : List UInt8) : Utf8Piece × Nat :=
  if b < 0x80 then (.char (Char.ofNat b.toNat), 1)
  else
    match sequenceShape? b with
    | none => (.bad [b], 1)
    | some (count, low, high) =>
      let more := continuation low high count rest
      if more.length = count then (.char (sequenceChar (b :: more)), count + 1)
      else (.bad (b :: more), more.length + 1)

theorem firstPiece_size_pos (b : UInt8) (rest : List UInt8) : 0 < (firstPiece b rest).2 := by
  unfold firstPiece
  split
  · simp
  · split
    · simp
    · simp only
      split <;> simp

/-- All pieces of some bytes. -/
def utf8Pieces : List UInt8 → List Utf8Piece
  | [] => []
  | b :: rest =>
    (firstPiece b rest).1 :: utf8Pieces ((b :: rest).drop (firstPiece b rest).2)
termination_by bytes => bytes.length
decreasing_by
  have := firstPiece_size_pos b rest
  simp only [List.length_drop, List.length_cons]
  omega

/-- The character of a piece that is one. -/
def Utf8Piece.char? : Utf8Piece → Option Char
  | char c => some c
  | bad _ => none

/-- The text that bytes hold, if they hold nothing else. -/
def utf8? (bytes : List UInt8) : Option String :=
  ((utf8Pieces bytes).mapM Utf8Piece.char?).map String.ofList

/-- The text that bytes hold, with the replacement character for each bad sequence. -/
def utf8Lossy (bytes : List UInt8) : String :=
  String.ofList ((utf8Pieces bytes).map fun piece => piece.char?.getD (Char.ofNat 0xfffd))

/-- The bytes of a text. -/
def utf8 (s : String) : List UInt8 := s.toUTF8.toList

end ChainWatch.Text
