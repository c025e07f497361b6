import OriginMap.Bytes
import OriginMap.Text.Binary64

/-!
# JSON tokens

JSON is read from bytes in one pass, and the first fault met from the left decides. This module reads
what has no parts: blanks, literals, strings and numbers, and says which fault a value of the wrong
kind is. A reader takes the bytes ahead and gives back those after what it read.
-/

namespace OriginMap.Json

/-- Why bytes cannot be read. -/
inductive Fault where
  /-- They are not JSON. -/
  | malformed
  /-- They end too early. -/
  | truncated
  /-- They are JSON of another shape than wanted. -/
  | mismatched
  deriving DecidableEq, Repr

/-- The name of the kind of fault. -/
def Fault.category : Fault → String
  | malformed => "syntax"
  | truncated => "eof"
  | mismatched => "data"

/-- Reads a value from the bytes ahead and gives the bytes after it. -/
abbrev Reader (α : Type) := Bytes → Except Fault (α × Bytes)

/-- The byte of an ASCII character. -/
def ascii (c : Char) : UInt8 := UInt8.ofNat c.toNat

/-- Space, tab, line feed and carriage return. -/
def isBlank (b : UInt8) : Bool := b = 0x20 || b = 0x09 || b = 0x0A || b = 0x0D

/-- The bytes from the first one that is not blank. -/
def skipBlank (bytes : Bytes) : Bytes := bytes.dropWhile isBlank

/-- Whether a byte is an ASCII digit. -/
def isDigit (b : UInt8) : Bool := 0x30 ≤ b && b ≤ 0x39

/-- The value of an ASCII digit. -/
def digitValue (b : UInt8) : Nat := b.toNat - 48

/-- Reads the rest of a literal. -/
def literal : List Char → Bytes → Except Fault Bytes
  | [], rest => .ok rest
  | _ :: _, [] => .error .truncated
  | c :: more, b :: rest => if b = ascii c then literal more rest else .error .malformed

/-! ## Strings -/

/-- The value of a hexadecimal digit of either case. -/
def hexValue? (b : UInt8) : Option Nat :=
  let n := b.toNat
  if 48 ≤ n ∧ n ≤ 57 then some (n - 48)
  else if 97 ≤ n ∧ n ≤ 102 then some (n - 87)
  else if 65 ≤ n ∧ n ≤ 70 then some (n - 55)
  else none

/-- The number of four hexadecimal digits. -/
def hexValue4? (b₀ b₁ b₂ b₃ : UInt8) : Option Nat := do
  return (((← hexValue? b₀) * 16 + (← hexValue? b₁)) * 16 + (← hexValue? b₂)) * 16 + (← hexValue? b₃)

/-- The byte that a one-letter escape stands for. -/
def shortEscape? (b : UInt8) : Option UInt8 :=
  if b = ascii '"' then some (ascii '"')
  else if b = ascii '\\' then some (ascii '\\')
  else if b = ascii '/' then some (ascii '/')
  else if b = ascii 'b' then some 0x08
  else if b = ascii 'f' then some 0x0C
  else if b = ascii 'n' then some 0x0A
  else if b = ascii 'r' then some 0x0D
  else if b = ascii 't' then some 0x09
  else none

/-- Whether a number is the first half of a surrogate pair. -/
def isLeading (n : Nat) : Bool := 0xD800 ≤ n && n ≤ 0xDBFF

/-- Whether a number is the second half of a surrogate pair. -/
def isTrailing (n : Nat) : Bool := 0xDC00 ≤ n && n ≤ 0xDFFF

/-- The character of a surrogate pair. -/
def pairChar (leading trailing : Nat) : Char :=
  Char.ofNat (0x10000 + (leading - 0xD800) * 0x400 + (trailing - 0xDC00))

/-- Puts the bytes of a character before bytes kept in reverse. -/
def pushChar (c : Char) (seen : Bytes) : Bytes := (String.utf8EncodeChar c).reverse ++ seen

/-- Reads a string from after its opening quote; `seen` holds the bytes of its text so far, last one
first. Escapes are replaced, and a surrogate must have its partner. -/
def stringBytes (seen : Bytes) : Reader Bytes
  | [] => .error .truncated
  | b :: rest =>
    if b = ascii '"' then .ok (seen.reverse, rest)
    else if b < 0x20 then .error .malformed
    else if b ≠ ascii '\\' then stringBytes (b :: seen) rest
    else
      match rest with
      | [] => .error .truncated
      | e :: rest =>
        if e ≠ ascii 'u' then
          match shortEscape? e with
          | some c => stringBytes (c :: seen) rest
          | none => .error .malformed
        else
          match rest with
          | a₀ :: a₁ :: a₂ :: a₃ :: rest =>
            match hexValue4? a₀ a₁ a₂ a₃ with
            | none => .error .malformed
            | some n =>
              if isTrailing n then .error .malformed
              else if isLeading n then
                match rest with
                | [] => .error .truncated
                | s :: rest =>
                  if s ≠ ascii '\\' then .error .malformed
                  else
                    match rest with
                    | [] => .error .truncated
                    | u :: rest =>
                      if u ≠ ascii 'u' then .error .malformed
                      else
                        match rest with
                        | c₀ :: c₁ :: c₂ :: c₃ :: rest =>
                          match hexValue4? c₀ c₁ c₂ c₃ with
                          | none => .error .malformed
                          | some m =>
                            if isTrailing m then stringBytes (pushChar (pairChar n m) seen) rest
                            else .error .malformed
                        | _ => .error .truncated
              else stringBytes (pushChar (Char.ofNat n) seen) rest
          | _ => .error .truncated

/-- Reads a string from after its opening quote. Its text must be UTF-8, which is judged at the closing
quote. -/
def string : Reader String := fun bytes => do
  let (text, rest) ← stringBytes [] bytes
  match ofUtf8? text with
  | some s => return (s, rest)
  | none => .error .malformed

/-- Passes over a string from after its opening quote. Neither its encoding nor its surrogates are
judged. -/
def skipString : Bytes → Except Fault Bytes
  | [] => .error .truncated
  | b :: rest =>
    if b = ascii '"' then .ok rest
    else if b < 0x20 then .error .malformed
    else if b ≠ ascii '\\' then skipString rest
    else
      match rest with
      | [] => .error .truncated
      | e :: rest =>
        if e ≠ ascii 'u' then
          if (shortEscape? e).isSome then skipString rest else .error .malformed
        else
          match rest with
          | a₀ :: a₁ :: a₂ :: a₃ :: rest =>
            if (hexValue4? a₀ a₁ a₂ a₃).isSome then skipString rest else .error .malformed
          | _ => .error .truncated

/-! ## Numbers -/

/-- A number as far as it matters: its value if it is a natural number below 2^64 in plain notation. -/
abbrev Number := Option UInt64

/-- The significant digits of a number being read: those that fit a 64-bit word, and how many were
left out after them. -/
structure Significand where
  /-- The digits kept. -/
  value : Nat
  /-- How many digits were left out. -/
  dropped : Nat
  deriving DecidableEq, Repr

/-- Takes one more digit in, as long as no digit was left out and the word holds it. -/
def Significand.push (s : Significand) (digit : Nat) : Significand :=
  if s.dropped = 0 ∧ s.value * 10 + digit < UInt64.size then ⟨s.value * 10 + digit, 0⟩
  else ⟨s.value, s.dropped + 1⟩

/-- Takes a run of digits in. -/
def Significand.pushAll (s : Significand) (digits : Bytes) : Significand :=
  digits.foldl (fun s b => s.push (digitValue b)) s

/-- Reads the exponent of a number from after its mark. A number beyond the range of binary floating
point is no JSON number. -/
def exponent (significand : Nat) (scale : Int) : Reader Number := fun bytes =>
  let (negative, bytes) := match bytes with
    | b :: rest => if b = ascii '+' then (false, rest) else if b = ascii '-' then (true, rest) else (false, bytes)
    | [] => (false, bytes)
  match bytes with
  | [] => .error .truncated
  | b :: _ =>
    if !isDigit b then .error .malformed
    else
      let n := (bytes.takeWhile isDigit).foldl (fun n b => n * 10 + digitValue b) 0
      let total := if negative then scale - (n : Int) else scale + (n : Int)
      let infinite := if n < 2147483648 then Binary64.productInfinite significand total
        else !negative && significand ≠ 0
      if infinite then .error .malformed else .ok (none, bytes.dropWhile isDigit)

/-- Reads what follows the digits of a number that is not a plain integer: an exponent or nothing. -/
def scaled (significand : Nat) (scale : Int) : Reader Number
  | [] => if Binary64.productInfinite significand scale then .error .malformed else .ok (none, [])
  | b :: rest =>
    if b = ascii 'e' || b = ascii 'E' then exponent significand scale rest
    else if Binary64.productInfinite significand scale then .error .malformed
    else .ok (none, b :: rest)

/-- Reads the fraction of a number from after its point. Digits that no longer fit the significand are
passed over. -/
def fraction (before : Significand) : Reader Number
  | [] => .error .truncated
  | b :: rest =>
    if !isDigit b then .error .malformed
    else
      let digits := (b :: rest).takeWhile isDigit
      let s := Significand.pushAll ⟨before.value, 0⟩ digits
      let used := digits.length - s.dropped
      scaled s.value ((before.dropped : Int) - (used : Int)) ((b :: rest).dropWhile isDigit)

/-- Reads a number from its first digit; `negative` says whether a minus sign went before. -/
def number (negative : Bool) : Reader Number
  | [] => .error .truncated
  | b :: rest =>
    if !isDigit b then .error .malformed
    else if b = ascii '0' && rest.head?.any isDigit then .error .malformed
    else
      let s := Significand.pushAll ⟨0, 0⟩ ((b :: rest).takeWhile isDigit)
      match (b :: rest).dropWhile isDigit with
      | [] => plain s []
      | c :: after => if c = ascii '.' then fraction s after else plain s (c :: after)
where
  /-- A number without a fraction. -/
  plain (s : Significand) : Reader Number
    | [] => if s.dropped = 0 then .ok (whole s, []) else scaled s.value s.dropped []
    | c :: after =>
      if s.dropped = 0 && c ≠ ascii 'e' && c ≠ ascii 'E' then .ok (whole s, c :: after)
      else scaled s.value s.dropped (c :: after)
  /-- The value of a plain integer; a negative one, zero included, is no natural number. -/
  whole (s : Significand) : Number := if negative then none else some (UInt64.ofNat s.value)

/-- Passes over digits. -/
def skipDigits (bytes : Bytes) : Bytes := bytes.dropWhile isDigit

/-- Passes over one or more digits. -/
def skipSomeDigits : Bytes → Except Fault Bytes
  | b :: rest => if isDigit b then .ok (skipDigits rest) else .error .malformed
  | [] => .error .malformed

/-- Passes over an exponent if there is one. -/
def skipExponent : Bytes → Except Fault Bytes
  | b :: rest =>
    if b = ascii 'e' || b = ascii 'E' then
      match rest with
      | s :: digits => skipSomeDigits (if s = ascii '+' || s = ascii '-' then digits else s :: digits)
      | [] => .error .malformed
    else .ok (b :: rest)
  | [] => .ok []

/-- Passes over a number from its first digit. Only its grammar is judged, and one that ends too early
is malformed. -/
def skipNumber : Bytes → Except Fault Bytes
  | [] => .error .malformed
  | b :: rest =>
    if !isDigit b then .error .malformed
    else if b = ascii '0' && rest.head?.any isDigit then .error .malformed
    else
      match skipDigits rest with
      | c :: after => if c = ascii '.' then skipSomeDigits after >>= skipExponent else skipExponent (c :: after)
      | [] => .ok []

/-- The fault of a value of another kind than wanted. The text of a literal, string or number is judged
before its kind; a list or an object is refused at its bracket. -/
def wrongKind : Bytes → Fault
  | [] => .truncated
  | b :: rest =>
    if b = ascii 'n' then after (literal ['u', 'l', 'l'] rest)
    else if b = ascii 't' then after (literal ['r', 'u', 'e'] rest)
    else if b = ascii 'f' then after (literal ['a', 'l', 's', 'e'] rest)
    else if b = ascii '-' then after (number true rest)
    else if isDigit b then after (number false (b :: rest))
    else if b = ascii '"' then after (string rest)
    else if b = ascii '[' || b = ascii '\x7b' then .mismatched
    else .malformed
where
  /-- The fault of the text, or of the kind. -/
  after {α : Type} : Except Fault α → Fault
    | .ok _ => .mismatched
    | .error fault => fault

end OriginMap.Json
