import OriginMap.Config.Layer
import OriginMap.Json.Value
import OriginMap.Toml.Value
import OriginMap.Word

/-!
# Layers from documents

A layer is read from a TOML document or from a JSON value. A section may be a table with any members, of
which the known ones must have the right type, or an array that gives the known members in their order.
-/

namespace OriginMap.Config

namespace FromToml

open Toml

/-- A text. -/
def text? : Value → Option String
  | .text s => some s
  | _ => none

/-- An integer. -/
def integer? : Value → Option Int
  | .integer n => some n
  | _ => none

/-- Whether a value is an empty table or an empty array. -/
def isVoid : Value → Bool
  | .array [] => true
  | .table _ [] => true
  | .tables [] => true
  | _ => false

/-- A mode: its exact name, or a table with that name as its only member, which must be empty. -/
def mode? : Value → Option Accumulation
  | .text s => Accumulation.ofName? s
  | .table _ [(name, value)] => if isVoid value then Accumulation.ofName? name else none
  | _ => none

/-- A member that may be left out, but must have the right type. -/
def member? (members : Members) (key : String) (read : Value → Option α) : Option (Option α) :=
  match members.lookup key with
  | none => some none
  | some value => (read value).map some

/-- The settings of the store; further elements of an array do not count. -/
def store? : Value → Option StoreLayer
  | .table _ members => do
    return {
      dataDir := ← member? members "data_dir" text?
      retentionDays := ← member? members "retention_days" fun v => integer? v >>= word?
      sweepIntervalSecs := ← member? members "sweep_interval_secs" fun v => integer? v >>= long?
      accumulation := ← member? members "accumulation" mode? }
  | .array (dataDir :: days :: interval :: mode :: _) => do
    return {
      dataDir := some (← text? dataDir)
      retentionDays := some (← integer? days >>= word?)
      sweepIntervalSecs := some (← integer? interval >>= long?)
      accumulation := some (← mode? mode) }
  | .moment => some {}
  | _ => none

/-- The settings of the log; further elements of an array do not count. -/
def logging? : Value → Option LoggingLayer
  | .table _ members => do return { level := ← member? members "level" text? }
  | .array (level :: _) => do return { level := some (← text? level) }
  | .moment => some {}
  | _ => none

/-- The layer of a document. -/
def layer? (members : Members) : Option Layer := do
  return { store := ← member? members "store" store?, logging := ← member? members "logging" logging? }

end FromToml

namespace FromJson

open Json

/-- A text. -/
def text? : Value → Option String
  | .text s => some s
  | _ => none

/-- An integer. -/
def integer? : Value → Option Int
  | .number n 0 => some n
  | _ => none

/-- A mode: its exact name, or an object with that name as its only member, which must be null. -/
def mode? : Value → Option Accumulation
  | .text s => Accumulation.ofName? s
  | .object [(name, .null)] => Accumulation.ofName? name
  | _ => none

/-- A value that may be null, but must have the right type. -/
def optional? (read : Value → Option α) : Value → Option (Option α)
  | .null => some none
  | value => (read value).map some

/-- A member that may be left out or null, but must have the right type. -/
def member? (members : List (String × Value)) (key : String) (read : Value → Option α) :
    Option (Option α) :=
  match members.lookup key with
  | none => some none
  | some value => optional? read value

/-- The settings of the store. -/
def store? : Value → Option StoreLayer
  | .object members => do
    return {
      dataDir := ← member? members "data_dir" text?
      retentionDays := ← member? members "retention_days" fun v => integer? v >>= word?
      sweepIntervalSecs := ← member? members "sweep_interval_secs" fun v => integer? v >>= long?
      accumulation := ← member? members "accumulation" mode? }
  | .list [dataDir, days, interval, mode] => do
    return {
      dataDir := ← optional? text? dataDir
      retentionDays := ← optional? (fun v => integer? v >>= word?) days
      sweepIntervalSecs := ← optional? (fun v => integer? v >>= long?) interval
      accumulation := ← optional? mode? mode }
  | _ => none

/-- The settings of the log. -/
def logging? : Value → Option LoggingLayer
  | .object members => do return { level := ← member? members "level" text? }
  | .list [level] => do return { level := ← optional? text? level }
  | _ => none

/-- The layer of a value; in a list, sections at its end may be left out. -/
def layer? : Value → Option Layer
  | .object members => do
    return { store := ← member? members "store" store?, logging := ← member? members "logging" logging? }
  | .list [] => some {}
  | .list [store] => do return { store := ← optional? store? store }
  | .list [store, logging] => do
    return { store := ← optional? store? store, logging := ← optional? logging? logging }
  | _ => none

end FromJson

end OriginMap.Config
