import OriginMap.Json.Token

/-!
# Passing over JSON values

A value that nobody asked for is passed over: only its grammar is judged, to any depth. The brackets
that are open are kept in a list, innermost first.
-/

namespace OriginMap.Json

/-- An open bracket. -/
inductive Frame where
  /-- Of a list. -/
  | list
  /-- Of an object. -/
  | object
  deriving DecidableEq, Repr

/-- The byte that closes a bracket. -/
def Frame.closing : Frame → UInt8
  | list => ascii ']'
  | object => ascii '\x7d'

/-- Passes over a value without parts, or over an opening bracket, which is given back. -/
def skipScalar (bytes : Bytes) : Except Fault (Option Frame × Bytes) :=
  match skipBlank bytes with
  | [] => .error .truncated
  | b :: rest =>
    if b = ascii 'n' then return (none, ← literal ['u', 'l', 'l'] rest)
    else if b = ascii 't' then return (none, ← literal ['r', 'u', 'e'] rest)
    else if b = ascii 'f' then return (none, ← literal ['a', 'l', 's', 'e'] rest)
    else if b = ascii '-' then return (none, ← skipNumber rest)
    else if isDigit b then return (none, ← skipNumber (b :: rest))
    else if b = ascii '"' then return (none, ← skipString rest)
    else if b = ascii '[' then .ok (some .list, rest)
    else if b = ascii '\x7b' then .ok (some .object, rest)
    else .error .malformed

/-- Passes over what comes before a value in a bracket: for an object, a key and a colon. -/
def skipKey (frame : Frame) (bytes : Bytes) : Except Fault Bytes :=
  match frame with
  | .list => .ok bytes
  | .object =>
    match skipBlank bytes with
    | [] => .error .truncated
    | b :: rest =>
      if b ≠ ascii '"' then .error .malformed
      else do
        match skipBlank (← skipString rest) with
        | [] => .error .truncated
        | c :: rest => if c = ascii ':' then .ok rest else .error .malformed

/-- Closes the brackets that end here and goes on to the next value, if a bracket stays open. `fresh`
says that the innermost bracket was just opened. -/
def skipToValue : List Frame → Bool → Bytes → Except Fault (List Frame × Bytes)
  | [], _, bytes => .ok ([], bytes)
  | frame :: outer, fresh, bytes =>
    match skipBlank bytes with
    | [] => .error .truncated
    | b :: rest =>
      if b = frame.closing then skipToValue outer false rest
      else if fresh then return (frame :: outer, ← skipKey frame (b :: rest))
      else if b = ascii ',' then return (frame :: outer, ← skipKey frame rest)
      else .error .malformed

/-- Passes over values until no bracket is open, `budget` values at most. -/
def skipOpen : Nat → List Frame → Bytes → Except Fault Bytes
  | 0, _, _ => .error .truncated
  | budget + 1, opened, bytes => do
    let (bracket, rest) ← skipScalar bytes
    let (opened, rest) ← match bracket with
      | some frame => skipToValue (frame :: opened) true rest
      | none => skipToValue opened false rest
    if opened.isEmpty then return rest else skipOpen budget opened rest

/-- Passes over one value. Each value takes a byte at least, so the budget suffices. -/
def skip (bytes : Bytes) : Except Fault Bytes := skipOpen bytes.length [] bytes

end OriginMap.Json
