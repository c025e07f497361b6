import OriginMap.Text.Binary64
import OriginMap.Text.Decimal
import OriginMap.Time.Calendar
import OriginMap.Toml.Value
import OriginMap.Word

/-!
# TOML scalars

Strings in their four forms, and the tokens for numbers, truth values, dates and times. A reader gives
what it read and the characters after it.
-/

namespace OriginMap.Toml

/-- Reads something from the characters ahead and gives the characters after it. -/
abbrev Reader (α : Type) := List Char → Option (α × List Char)

/-- Whether a character may stand in a comment or a string: a tab, or no control character of ASCII. -/
def isPrintable (c : Char) : Bool := c = '\t' || (0x20 ≤ c.toNat && c.toNat ≠ 0x7F)

/-- Reads a line end: a line feed, alone or after a carriage return. -/
def lineEnd? : List Char → Option (List Char)
  | '\n' :: rest => some rest
  | '\r' :: '\n' :: rest => some rest
  | _ => none

/-- The characters from the first one that is no space or tab. -/
def skipSpace (text : List Char) : List Char := text.dropWhile fun c => c = ' ' || c = '\t'

/-! ## Strings -/

/-- The value of a hexadecimal digit of either case. -/
def hexValue? (c : Char) : Option Nat :=
  let n := c.toNat
  if 48 ≤ n ∧ n ≤ 57 then some (n - 48)
  else if 97 ≤ n ∧ n ≤ 102 then some (n - 87)
  else if 65 ≤ n ∧ n ≤ 70 then some (n - 55)
  else none

/-- The number of hexadecimal digits. -/
def hexNumber? (digits : List Char) : Option Nat :=
  digits.foldlM (fun n c => (hexValue? c).map fun d => 16 * n + d) 0

/-- The character of a number, unless it is a surrogate or too large. -/
def scalar? (n : Nat) : Option Char := if n.isValidChar then some (Char.ofNat n) else none

/-- The character of exactly so many hexadecimal digits. -/
def escaped? (count : Nat) (text : List Char) : Option Char :=
  if (text.take count).length = count then hexNumber? (text.take count) >>= scalar? else none

/-- The character that a one-letter escape stands for. -/
def shortEscape? : Char → Option Char
  | 'b' => some '\x08'
  | 't' => some '\t'
  | 'n' => some '\n'
  | 'f' => some '\x0c'
  | 'r' => some '\r'
  | '"' => some '"'
  | '\\' => some '\\'
  | _ => none

/-- Reads a string on one line from after its opening quote; `seen` holds its characters so far, last
one first, and escapes are known between double quotes only. -/
def lineString (quote : Char) : Nat → List Char → Reader String
  | 0, _, _ => none
  | _ + 1, _, [] => none
  | budget + 1, seen, c :: rest =>
    if c = quote then some (String.ofList seen.reverse, rest)
    else if c = '\\' && quote = '"' then
      match rest with
      | 'u' :: rest => do lineString quote budget ((← escaped? 4 rest) :: seen) (rest.drop 4)
      | 'U' :: rest => do lineString quote budget ((← escaped? 8 rest) :: seen) (rest.drop 8)
      | e :: rest => do lineString quote budget ((← shortEscape? e) :: seen) rest
      | [] => none
    else if isPrintable c then lineString quote budget (c :: seen) rest
    else none

/-- The characters after a backslash that ends a line, and after all blanks that follow. -/
def lineJoin? (text : List Char) : Option (List Char) :=
  (lineEnd? (skipSpace text)).map fun rest => blanks rest.length rest
where
  /-- The characters after blanks and line ends. -/
  blanks : Nat → List Char → List Char
    | 0, text => text
    | budget + 1, text =>
      match lineEnd? (skipSpace text) with
      | some rest => blanks budget rest
      | none => skipSpace text

/-- Reads a string over several lines from after its opening quotes. Up to two quotes may stand right
before the closing ones. -/
def blockString (quote : Char) : Nat → List Char → Reader String
  | 0, _, _ => none
  | _ + 1, _, [] => none
  | budget + 1, seen, c :: rest =>
    if c = quote then
      let run := 1 + (rest.takeWhile (· = quote)).length
      if run ≤ 2 then blockString quote budget (List.replicate run quote ++ seen) (rest.drop (run - 1))
      else if run ≤ 5 then
        some (String.ofList (List.replicate (run - 3) quote ++ seen).reverse, rest.drop (run - 1))
      else none
    else if c = '\\' && quote = '"' then
      match rest with
      | 'u' :: rest => do blockString quote budget ((← escaped? 4 rest) :: seen) (rest.drop 4)
      | 'U' :: rest => do blockString quote budget ((← escaped? 8 rest) :: seen) (rest.drop 8)
      | e :: after =>
        match shortEscape? e with
        | some d => blockString quote budget (d :: seen) after
        | none => do blockString quote budget seen (← lineJoin? rest)
      | [] => none
    else
      match lineEnd? (c :: rest) with
      | some rest => blockString quote budget ('\n' :: seen) rest
      | none => if isPrintable c then blockString quote budget (c :: seen) rest else none

/-- Reads a string on one line, with its quotes. -/
def simpleString : Reader String
  | '"' :: rest => lineString '"' (rest.length + 1) [] rest
  | '\'' :: rest => lineString '\'' (rest.length + 1) [] rest
  | _ => none

/-- Reads a string in any form, with its quotes. A line end right after three quotes does not count. -/
def string : Reader String
  | '"' :: '"' :: '"' :: rest =>
    blockString '"' (rest.length + 1) [] ((lineEnd? rest).getD rest)
  | '\'' :: '\'' :: '\'' :: rest =>
    blockString '\'' (rest.length + 1) [] ((lineEnd? rest).getD rest)
  | rest => simpleString rest

/-! ## Numbers -/

/-- Whether a character is an ASCII letter. -/
def isLetter (c : Char) : Bool := ('a' ≤ c && c ≤ 'z') || ('A' ≤ c && c ≤ 'Z')

/-- The digits of a run in which single underscores may stand between digits. -/
def grouped? (isDigit : Char → Bool) (text : List Char) : Option (List Char) :=
  let groups := text.splitOn '_'
  if groups.all fun g => !g.isEmpty && g.all isDigit then some groups.flatten else none

/-- The digits of a decimal integer without sign: no leading zero but a lone one. -/
def integerDigits? (text : List Char) : Option (List Char) :=
  if text = ['0'] then some text
  else if text.head? = some '0' then none
  else grouped? Text.isDigit text

/-- The number of digits in a base. -/
def inBase (base : Nat) (digits : List Char) : Nat :=
  digits.foldl (fun n c => base * n + (hexValue? c).getD 0) 0

/-- A sign, if there is one, and what follows it: whether the sign is a minus. -/
def signed : List Char → Bool × List Char
  | '+' :: rest => (false, rest)
  | '-' :: rest => (true, rest)
  | rest => (false, rest)

/-- An integer of a signed 64-bit word, in decimal, hexadecimal, octal or binary notation. -/
def integer? (token : List Char) : Option Int :=
  let value? : Option Int :=
    match token with
    | '0' :: 'x' :: rest =>
      (grouped? (fun c => (hexValue? c).isSome) rest).map fun digits => (inBase 16 digits : Int)
    | '0' :: 'o' :: rest =>
      (grouped? (fun c => '0' ≤ c && c ≤ '7') rest).map fun digits => (inBase 8 digits : Int)
    | '0' :: 'b' :: rest =>
      (grouped? (fun c => c = '0' || c = '1') rest).map fun digits => (inBase 2 digits : Int)
    | _ =>
      let (negative, rest) := signed token
      (integerDigits? rest).map fun digits =>
        if negative then -(inBase 10 digits : Int) else (inBase 10 digits : Int)
  value?.filter fitsSigned

/-- The exponent that a text after its mark stands for. -/
def exponent? (text : List Char) : Option Int :=
  let (negative, rest) := signed text
  (grouped? Text.isDigit rest).map fun digits =>
    if negative then -(inBase 10 digits : Int) else (inBase 10 digits : Int)

/-- Whether a token is a floating-point number. A positive one must not be infinite once rounded, unless
it says so. -/
def isDecimal (token : List Char) : Bool :=
  let (negative, rest) := signed token
  if rest = ['i', 'n', 'f'] || rest = ['n', 'a', 'n'] then true
  else
    let isMark := fun (c : Char) => c = 'e' || c = 'E'
    let mantissa := rest.takeWhile (!isMark ·)
    let scale := rest.dropWhile (!isMark ·)
    let whole := mantissa.takeWhile (· ≠ '.')
    let fraction := mantissa.dropWhile (· ≠ '.')
    match integerDigits? whole,
      (if fraction.isEmpty then some [] else grouped? Text.isDigit fraction.tail),
      (if scale.isEmpty then some 0 else exponent? scale.tail) with
    | some wholeDigits, some fractionDigits, some power =>
      (!fraction.isEmpty || !scale.isEmpty) &&
        (negative || !Binary64.decimalInfinite (inBase 10 (wholeDigits ++ fractionDigits))
          (power - fractionDigits.length))
    | _, _, _ => false

/-! ## Dates and times -/

/-- Reads exactly so many digits as a number. -/
def fixedDigits? (count : Nat) (text : List Char) : Option (Nat × List Char) :=
  let digits := text.take count
  if digits.length = count && digits.all Text.isDigit then
    some (Text.digitsValue digits, text.drop count)
  else none

/-- Reads a date. -/
def date? (text : List Char) : Option (List Char) := do
  let (year, rest) ← fixedDigits? 4 text
  let '-' :: rest := rest | none
  let (month, rest) ← fixedDigits? 2 rest
  let '-' :: rest := rest | none
  let (day, rest) ← fixedDigits? 2 rest
  if Time.Date.valid ⟨year, month, day⟩ then some rest else none

/-- Reads a time of day with its seconds and an optional fraction. -/
def clock? (text : List Char) : Option (List Char) := do
  let (hour, rest) ← fixedDigits? 2 text
  let ':' :: rest := rest | none
  let (minute, rest) ← fixedDigits? 2 rest
  let ':' :: rest := rest | none
  let (second, rest) ← fixedDigits? 2 rest
  if hour ≤ 23 ∧ minute ≤ 59 ∧ second ≤ 60 then
    match rest with
    | '.' :: digits =>
      if (digits.head?.any Text.isDigit) then some (digits.dropWhile Text.isDigit) else none
    | _ => some rest
  else none

/-- Whether a text is an offset. -/
def isOffset (text : List Char) : Bool :=
  match text with
  | ['Z'] => true
  | ['z'] => true
  | sign :: rest =>
    (sign = '+' || sign = '-') &&
      match fixedDigits? 2 rest with
      | some (hour, ':' :: minutes) =>
        match fixedDigits? 2 minutes with
        | some (minute, []) => hour ≤ 23 && minute ≤ 59
        | _ => false
      | _ => false
  | [] => false

/-- Whether a text is a time of day with an optional offset. -/
def isClockWithOffset (text : List Char) : Bool :=
  match clock? text with
  | some rest => rest.isEmpty || isOffset rest
  | none => false

/-- Whether a token is a date, a time of day, or both. -/
def isMoment (token : List Char) : Bool :=
  match date? token with
  | some [] => true
  | some (c :: rest) => (c = 'T' || c = 't' || c = ' ') && isClockWithOffset rest
  | none => clock? token = some []

/-- Whether a character may stand in a token. -/
def isTokenChar (c : Char) : Bool :=
  isLetter c || Text.isDigit c || c = '+' || c = '-' || c = '_' || c = '.' || c = ':'

/-- The token ahead. A date and a time of day that a single space parts are one token. -/
def token (text : List Char) : List Char × List Char :=
  let first := text.takeWhile isTokenChar
  let rest := text.dropWhile isTokenChar
  match rest with
  | ' ' :: a :: b :: ':' :: after =>
    if date? first = some [] && Text.isDigit a && Text.isDigit b then
      let second := (a :: b :: ':' :: after).takeWhile isTokenChar
      (first ++ ' ' :: second, (a :: b :: ':' :: after).dropWhile isTokenChar)
    else (first, rest)
  | _ => (first, rest)

/-- The value of a token. -/
def tokenValue? (token : List Char) : Option Value :=
  if token = ['t', 'r', 'u', 'e'] then some (.boolean true)
  else if token = ['f', 'a', 'l', 's', 'e'] then some (.boolean false)
  else if isMoment token then some .moment
  else if isDecimal token then some .decimal
  else (integer? token).map .integer

/-- Reads a value without parts. -/
def scalar : Reader Value
  | '"' :: rest => (string ('"' :: rest)).map fun (s, after) => (.text s, after)
  | '\'' :: rest => (string ('\'' :: rest)).map fun (s, after) => (.text s, after)
  | text =>
    let (first, rest) := token text
    (tokenValue? first).map fun value => (value, rest)

end OriginMap.Toml
