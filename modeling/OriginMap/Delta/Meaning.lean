import Mathlib.Data.Nat.Digits.Defs
import OriginMap.Delta

/-!
# What a segment means

The numbers of a segment, told without an accumulator. Its bytes fall into runs: after each byte of a
run but the last the number goes on, and so a run holds one number. Bytes after the last run hold none.
-/

namespace OriginMap.Delta

/-- The Base64 alphabet: the digits in their order. -/
def alphabet : List Char := "ABCDEFGHIJKLMNOPQRSTUVWXYZabcdefghijklmnopqrstuvwxyz0123456789+/".toList

/-- Whether a number goes on after a byte, which then is in the upper half of the alphabet. -/
def goesOn (byte : UInt8) : Bool :=
  let c := Char.ofNat byte.toNat
  'g' ≤ c && c ≤ 'z' || '0' ≤ c && c ≤ '9' || c = '+' || c = '/'

/-- The bytes of one number. -/
structure Run where
  /-- The bytes after which the number goes on. -/
  front : List UInt8
  /-- The byte that ends it. -/
  last : UInt8
  /-- The number goes on after each byte in front. -/
  goes : ∀ byte ∈ front, goesOn byte = true
  /-- It does not after the last. -/
  ends : goesOn last = false

/-- All bytes of a run. -/
def Run.bytes (run : Run) : List UInt8 := run.front ++ [run.last]

/-- The five bits that a byte adds to a number. -/
def bits (byte : UInt8) : ℕ := digit byte % 32

/-- What bytes come to: the first twelve of them count, the bits of each thirty-two times as much as those
of the byte before. -/
def magnitudeOf (bytes : List UInt8) : ℕ := Nat.ofDigits 32 ((bytes.take 12).map bits)

/-- The number that a run holds. -/
def Run.value (run : Run) : ℤ := signed (magnitudeOf run.bytes)

/-- The places of all bits of a run fit the 32-bit word in which a reader counts them. -/
def Run.Fits (run : Run) : Prop := 5 * run.front.length < UInt32.size

end OriginMap.Delta
