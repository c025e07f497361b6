/-!
# Decimal numbers

Numbers as settings and arguments are read: an optional sign and ASCII digits, nothing else. Leading
zeros do not matter. A reader with a bound refuses a number that reaches it.
-/

namespace OriginMap.Text

/-- Whether a character is an ASCII digit. -/
def isDigit (c : Char) : Bool := '0' ≤ c && c ≤ '9'

/-- The value of an ASCII digit. -/
def digitValue (c : Char) : Nat := c.toNat - 48

/-- The number that a run of digits stands for. -/
def digitsValue (digits : List Char) : Nat := digits.foldl (fun n c => 10 * n + digitValue c) 0

/-- The number of a run of one or more ASCII digits. -/
def digits? (text : List Char) : Option Nat :=
  if text.isEmpty || !text.all isDigit then none else some (digitsValue text)

/-- An unsigned number below the bound, with an optional plus sign. -/
def unsigned? (bound : Nat) (text : String) : Option Nat :=
  let digits := match text.toList with
    | '+' :: rest => rest
    | rest => rest
  (digits? digits).filter (· < bound)

/-- An unsigned number below the bound, with an optional plus sign; a minus sign is accepted too, so
that minus zero is zero. -/
def unsignedAllowingMinus? (bound : Nat) (text : String) : Option Nat :=
  match text.toList with
  | '-' :: rest => (digits? rest).filter (· = 0)
  | _ => unsigned? bound text

/-- Decimal notation with at least `width` digits. -/
def padded (width n : Nat) : List Char :=
  let digits := Nat.toDigits 10 n
  List.replicate (width - digits.length) '0' ++ digits

end OriginMap.Text
