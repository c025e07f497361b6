/-!
# Delta segments

A segment of a mapping text is a run of signed numbers in Base64 digits. A digit carries five bits of
a number, lowest first, and a sixth bit that says whether the number goes on; the lowest bit of a
finished number is its sign. Reading never fails: a character that is no Base64 digit counts as zero
digits, one for each of its UTF-8 bytes, and a number cut off by the end of the segment is dropped.
-/

namespace OriginMap.Delta

/-- The number that a byte stands for as a Base64 digit; zero for a byte outside the alphabet. -/
def digit (byte : UInt8) : Nat :=
  let n := byte.toNat
  if 65 ≤ n ∧ n ≤ 90 then n - 65
  else if 97 ≤ n ∧ n ≤ 122 then n - 71
  else if 48 ≤ n ∧ n ≤ 57 then n + 4
  else if n = 43 then 62
  else if n = 47 then 63
  else 0

/-- A number in the making: the bits so far and the place of the next ones. The place is counted in
a 32-bit word. -/
structure Accumulator where
  /-- The bits read so far, sign bit included. -/
  value : Nat
  /-- Where the next five bits go. -/
  shift : UInt32
  deriving DecidableEq, Repr

/-- Nothing read yet. -/
def Accumulator.start : Accumulator := ⟨0, 0⟩

/-- Places past this one no longer fit a signed 64-bit number; bits beyond it are dropped. -/
def lastPlace : UInt32 := 55

/-- Adds five bits at the next place. The place comes round in its word, as it does in a program that is
built without overflow checks; one that is built with them stops there. -/
def Accumulator.add (acc : Accumulator) (bits : Nat) : Accumulator where
  value := if acc.shift ≤ lastPlace then acc.value ||| (bits <<< acc.shift.toNat) else acc.value
  shift := acc.shift + 5

/-- The signed number of a finished magnitude: its lowest bit is the sign. -/
def signed (magnitude : Nat) : Int :=
  if magnitude % 2 = 1 then -((magnitude / 2 : Nat) : Int) else ((magnitude / 2 : Nat) : Int)

/-- The numbers in the bytes that follow a number in the making. -/
def decodeFrom (acc : Accumulator) : List UInt8 → List Int
  | [] => []
  | byte :: rest =>
    let next := acc.add (digit byte % 32)
    if 32 ≤ digit byte then decodeFrom next rest
    else signed next.value :: decodeFrom .start rest

/-- The numbers of a segment. -/
def decode (segment : List Char) : List Int :=
  decodeFrom .start (segment.flatMap String.utf8EncodeChar)

/-- The character of a Base64 digit. -/
def digitChar (d : Nat) : Char :=
  Char.ofNat
    (if d < 26 then d + 65 else if d < 52 then d + 71 else if d < 62 then d - 4
     else if d = 62 then 43 else 47)

/-- The digits of a magnitude, lowest first, all but the last marked as going on. -/
def encodeMagnitude (magnitude : Nat) : List Char :=
  if magnitude < 32 then [digitChar magnitude]
  else digitChar (magnitude % 32 + 32) :: encodeMagnitude (magnitude / 32)

/-- The magnitude of a signed number, with the sign as its lowest bit. -/
def magnitude (value : Int) : Nat :=
  if value < 0 then 2 * value.natAbs + 1 else 2 * value.natAbs

/-- The shortest segment that holds the given numbers. -/
def encode (values : List Int) : List Char :=
  values.flatMap fun value => encodeMagnitude (magnitude value)

end OriginMap.Delta
