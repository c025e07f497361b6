import OriginMap.Text.Blank
import OriginMap.Text.Decimal
import OriginMap.Time.Instant

/-!
# Timestamps

Instants are written as RFC 3339 timestamps in UTC, with a fraction of 0, 3, 6 or 9 digits, whichever
is the shortest exact one. They are read more leniently: blanks before numbers and separators, short
fields, long signed years, any fraction and any offset.
-/

namespace OriginMap.Time

/-- A year: four digits, or a sign and at least four digits outside 0 to 9999. -/
def yearText (year : Int) : List Char :=
  if year < 0 then '-' :: Text.padded 4 year.natAbs
  else if 9999 < year then '+' :: Text.padded 4 year.natAbs
  else Text.padded 4 year.natAbs

/-- A fraction of a second with the fewest of 0, 3, 6 or 9 digits. -/
def fractionText (nanos : Nat) : List Char :=
  if nanos = 0 then []
  else if nanos % 1000000 = 0 then '.' :: Text.padded 3 (nanos / 1000000)
  else if nanos % 1000 = 0 then '.' :: Text.padded 6 (nanos / 1000)
  else '.' :: Text.padded 9 nanos

/-- The timestamp of an instant. -/
def Instant.timestamp (t : Instant) : List Char :=
  let date := Date.ofNumber (t.seconds / daySeconds)
  let ofDay := (t.seconds % daySeconds).toNat
  let leap := secondNanos ≤ t.nanos
  yearText date.year ++ '-' :: Text.padded 2 date.month ++ '-' :: Text.padded 2 date.day
    ++ 'T' :: Text.padded 2 (ofDay / 3600) ++ ':' :: Text.padded 2 (ofDay / 60 % 60)
    ++ ':' :: Text.padded 2 (if leap then ofDay % 60 + 1 else ofDay % 60)
    ++ fractionText (if leap then t.nanos - secondNanos else t.nanos) ++ ['Z']

namespace Timestamp

/-- Up to `limit` digits, and what follows them. -/
def digitRun : Nat → List Char → List Char × List Char
  | limit + 1, c :: rest =>
    if Text.isDigit c then
      let (digits, after) := digitRun limit rest
      (c :: digits, after)
    else ([], c :: rest)
  | _, rest => ([], rest)

/-- A number of one to `limit` digits. -/
def number? (limit : Nat) (text : List Char) : Option (Nat × List Char) :=
  match digitRun limit text with
  | ([], _) => none
  | (digits, rest) => some (Text.digitsValue digits, rest)

/-- A number of one or two digits, after blanks. -/
def field? (text : List Char) : Option (Nat × List Char) := number? 2 (Text.trimStart text)

/-- A year, after blanks: up to four digits, or any number of them after a sign. -/
def year? (text : List Char) : Option (Int × List Char) :=
  match Text.trimStart text with
  | '-' :: rest => (number? rest.length rest).map fun (n, after) => (-(n : Int), after)
  | '+' :: rest => (number? rest.length rest).map fun (n, after) => ((n : Int), after)
  | rest => (number? 4 rest).map fun (n, after) => ((n : Int), after)

/-- A separator, after blanks. -/
def separator? (c : Char) (text : List Char) : Option (List Char) :=
  match Text.trimStart text with
  | [] => none
  | d :: rest => if d = c then some rest else none

/-- The nanoseconds of an optional fraction; digits past the ninth are dropped. -/
def fraction? : List Char → Option (Nat × List Char)
  | '.' :: rest =>
    match digitRun 9 rest with
    | ([], _) => none
    | (digits, after) =>
      some (Text.digitsValue digits * Nat.pow 10 (9 - digits.length), after.dropWhile Text.isDigit)
  | rest => some (0, rest)

/-- Two digits. -/
def twoDigits? : List Char → Option (Nat × List Char)
  | a :: b :: rest =>
    if Text.isDigit a && Text.isDigit b then some (10 * Text.digitValue a + Text.digitValue b, rest) else none
  | _ => none

/-- Seconds that an offset lies ahead of UTC: two digits of hours, any colons and blanks, two digits
of minutes. -/
def offset? (text : List Char) : Option (Int × List Char) := do
  let (hours, rest) ← twoDigits? text
  let (minutes, rest) ← twoDigits? (rest.dropWhile fun c => c = ':' || Text.isBlank c)
  if hours ≤ 23 ∧ minutes ≤ 59 then some ((hours * 3600 + minutes * 60 : Nat), rest) else none

/-- A zone: the letter Z, the word UTC in any case, or a signed offset. -/
def zone? (text : List Char) : Option (Int × List Char) :=
  if (text.take 3).map Char.toUpper = ['U', 'T', 'C'] then some (0, text.drop 3)
  else
    match text with
    | 'Z' :: rest => some (0, rest)
    | 'z' :: rest => some (0, rest)
    | '+' :: rest => offset? rest
    | '-' :: rest => (offset? rest).map fun (ahead, after) => (-ahead, after)
    | '\u2212' :: rest => (offset? rest).map fun (ahead, after) => (-ahead, after)
    | _ => none

/-- The instant of a local date and time of day at an offset, if they exist and are in range. -/
def assemble? (date : Date) (hour minute second nanos : Nat) (ahead : Int) : Option Instant :=
  if date.valid ∧ -262143 ≤ date.year ∧ date.year ≤ 262142 ∧ hour ≤ 23 ∧ minute ≤ 59 ∧ second ≤ 60 then
    let leap := second = 60
    let ofDay := hour * 3600 + minute * 60 + (if leap then 59 else second)
    let t : Instant :=
      ⟨date.number * daySeconds + ofDay - ahead, if leap then nanos + secondNanos else nanos⟩
    if t.kept then some t else none
  else none

/-- Reads a timestamp. -/
def read? (text : List Char) : Option Instant := do
  let (year, rest) ← year? text
  let (month, rest) ← separator? '-' rest >>= field?
  let (day, rest) ← separator? '-' rest >>= field?
  let rest ← match rest with
    | 'T' :: rest => some rest
    | 't' :: rest => some rest
    | ' ' :: rest => some rest
    | _ => none
  let (hour, rest) ← field? rest
  let (minute, rest) ← separator? ':' rest >>= field?
  let (second, rest) ← separator? ':' rest >>= field?
  let (nanos, rest) ← fraction? rest
  let (ahead, rest) ← zone? (Text.trimStart rest)
  if rest.all Text.isBlank then assemble? ⟨year, month, day⟩ hour minute second nanos ahead else none

end Timestamp

end OriginMap.Time
