import OriginMap.Json.Skip

/-!
# JSON records

Readers for values with known shape: options, lists, and records. A record is an object whose known
members come in any order, each at most once, among unknown ones; or a list that gives the known
members in their order.
-/

namespace OriginMap.Json

/-- Reads a text. -/
def text : Reader String := fun bytes =>
  match skipBlank bytes with
  | b :: rest => if b = ascii '"' then string rest else .error (wrongKind (b :: rest))
  | [] => .error .truncated

/-- Reads a natural number below 2^64. -/
def natural : Reader UInt64 := fun bytes =>
  match skipBlank bytes with
  | [] => .error .truncated
  | b :: rest =>
    if b = ascii '-' || isDigit b then do
      match ← (if b = ascii '-' then number true rest else number false (b :: rest)) with
      | (some n, rest) => return (n, rest)
      | (none, _) => .error .mismatched
    else .error (wrongKind (b :: rest))

/-- Reads a value that may be null. -/
def nullable (read : Reader α) : Reader (Option α) := fun bytes =>
  match skipBlank bytes with
  | b :: rest =>
    if b = ascii 'n' then return (none, ← literal ['u', 'l', 'l'] rest)
    else do
      let (value, rest) ← read (b :: rest)
      return (some value, rest)
  | [] => .error .truncated

/-- Goes on to the next element of a list and gives the bytes from it on; none before the closing
bracket. `first` says that no element was read yet. -/
def nextElement (first : Bool) (bytes : Bytes) : Except Fault (Option Bytes) :=
  match skipBlank bytes with
  | [] => .error .truncated
  | b :: rest =>
    if b = ascii ']' then .ok none
    else if first then .ok (some (b :: rest))
    else if b = ascii ',' then
      match skipBlank rest with
      | [] => .error .truncated
      | c :: after => if c = ascii ']' then .error .malformed else .ok (some (c :: after))
    else .error .malformed

/-- Closes a list after its last element. -/
def closeList (bytes : Bytes) : Except Fault Bytes :=
  match skipBlank bytes with
  | [] => .error .truncated
  | b :: rest => if b = ascii ']' then .ok rest else .error .malformed

/-- Reads the elements of a list, `budget` at most; `seen` holds those read so far, last one first. -/
def elements (read : Reader α) : Nat → Bool → List α → Reader (List α)
  | 0, _, _, _ => .error .truncated
  | budget + 1, first, seen, bytes => do
    match ← nextElement first bytes with
    | none => return (seen.reverse, ← closeList bytes)
    | some ahead =>
      let (value, rest) ← read ahead
      elements read budget false (value :: seen) rest

/-- Reads a list. -/
def list (read : Reader α) : Reader (List α) := fun bytes =>
  match skipBlank bytes with
  | [] => .error .truncated
  | b :: rest =>
    if b = ascii '[' then elements read (rest.length + 1) true [] rest
    else .error (wrongKind (b :: rest))

/-- A known member of a record that is being read into a `σ`. -/
structure RecordField (σ : Type) where
  /-- The key of the member. -/
  key : String
  /-- Whether the member was met already. -/
  met : σ → Bool
  /-- Reads the member's value. -/
  read : σ → Reader σ

/-- Goes on to the next key of an object and reads it; none before the closing bracket. -/
def nextKey (first : Bool) (bytes : Bytes) : Except Fault (Option (String × Bytes)) :=
  match skipBlank bytes with
  | [] => .error .truncated
  | b :: rest =>
    if b = ascii '\x7d' then .ok none
    else if first then key (b :: rest)
    else if b = ascii ',' then key (skipBlank rest)
    else .error .malformed
where
  /-- Reads a key. -/
  key : Bytes → Except Fault (Option (String × Bytes))
    | [] => .error .truncated
    | b :: rest => if b = ascii '"' then some <$> string rest else .error .malformed

/-- Passes over the colon after a key. -/
def colon (bytes : Bytes) : Except Fault Bytes :=
  match skipBlank bytes with
  | [] => .error .truncated
  | b :: rest => if b = ascii ':' then .ok rest else .error .malformed

/-- Reads one member from after its key. A known member that was met already is refused before its
value. -/
def member (fields : List (RecordField σ)) (key : String) (record : σ) : Reader σ := fun bytes =>
  match fields.find? (·.key = key) with
  | none => do return (record, ← skip (← colon bytes))
  | some field => if field.met record then .error .mismatched else do field.read record (← colon bytes)

/-- Reads the members of an object, `budget` at most, up to its closing bracket. -/
def members (fields : List (RecordField σ)) : Nat → Bool → σ → Reader σ
  | 0, _, _, _ => .error .truncated
  | budget + 1, first, record, bytes => do
    match ← nextKey first bytes with
    | none => return (record, bytes)
    | some (key, rest) =>
      let (record, rest) ← member fields key record rest
      members fields budget false record rest

/-- Reads known members from a list, in their order, as far as the list goes; stays before its end. -/
def inOrder : List (RecordField σ) → Bool → σ → Reader σ
  | [], _, record, bytes => .ok (record, bytes)
  | field :: fields, first, record, bytes => do
    match ← nextElement first bytes with
    | none => return (record, bytes)
    | some ahead =>
      let (record, rest) ← field.read record ahead
      inOrder fields false record rest

/-- Reads a record from an object or a list, starting from the record without members. `finish` judges
whether members are missing, before the closing bracket is read. -/
def record (fields : List (RecordField σ)) (empty : σ) (finish : σ → Except Fault α) : Reader α := fun bytes =>
  match skipBlank bytes with
  | [] => .error .truncated
  | b :: rest =>
    if b = ascii '\x7b' then do
      let (record, rest) ← members fields (rest.length + 1) true empty rest
      return (← finish record, (skipBlank rest).tail)
    else if b = ascii '[' then do
      let (record, rest) ← inOrder fields true empty rest
      return (← finish record, ← closeList rest)
    else .error (wrongKind (b :: rest))

/-- Reads a whole text that holds one value and nothing else. -/
def document (read : Reader α) (bytes : Bytes) : Except Fault α := do
  let (value, rest) ← read bytes
  if (skipBlank rest).isEmpty then return value else .error .malformed

end OriginMap.Json
