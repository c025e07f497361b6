import Std.Data.HashMap
import OriginMap.Mappings

/-!
# The index of an artifact

The entries of a mapping text that point at a source and a name which exist, with the positions of
each source's entries, and a look-up of the entry nearest to a generated position. A search stops early,
at a line too far away or once nothing can be nearer: generated lines never decrease along the text.
-/

namespace OriginMap

/-- What building an index kept and what it dropped. -/
structure Report where
  /-- Entries in the index. -/
  entries : Nat
  /-- Pieces that could not be used. -/
  skipped : Nat
  /-- Pieces that only move the generated column. -/
  unmapped : Nat
  /-- Entries that point at no source or no name. -/
  invalid : Nat
  deriving DecidableEq, Repr

/-- Whether anything in the artifact could not be used. -/
def Report.degraded (r : Report) : Bool := 0 < r.skipped || 0 < r.invalid

/-- Whether an entry points at one of so many sources and, if it has a name, at one of so many names. -/
def Entry.valid (e : Entry) (sourceCount nameCount : Nat) : Bool :=
  e.sourceIndex.toNat < sourceCount && e.nameIndex.all fun name => name.toNat < nameCount

/-- The index of one artifact. -/
structure Index where
  /-- The valid entries in the order of the text. -/
  entries : Array Entry
  /-- For each source that has any, the positions of its entries, increasing. -/
  bySource : Std.HashMap UInt32 (Array Nat)
  /-- What was kept and dropped. -/
  report : Report

namespace Index

/-- Files an entry's position under its source. -/
def file (buckets : Std.HashMap UInt32 (Array Nat)) (item : Entry × Nat) :
    Std.HashMap UInt32 (Array Nat) :=
  buckets.alter item.1.sourceIndex fun bucket => some ((bucket.getD #[]).push item.2)

/-- Indexes a mapping text for an artifact with so many sources and names. -/
def build (mappings : String) (mode : Accumulation) (sourceCount nameCount : Nat) : Index :=
  let decoded := Mappings.decode mappings mode
  let kept := decoded.entries.filter (·.valid sourceCount nameCount)
  { entries := kept.toArray
    bySource := kept.zipIdx.foldl file {}
    report := {
      entries := kept.length
      skipped := decoded.skipped
      unmapped := decoded.unmapped
      invalid := decoded.entries.length - kept.length } }

/-- The best of an entry at a distance and the entries after it. An entry at no distance ends the search,
and so does a line that is farther away than the best entry. -/
def closestFrom (line column : UInt32) (best : Entry) (reach : Nat) : List Entry → Entry
  | [] => best
  | e :: rest =>
    if reach = 0 ∨ line.toNat + reach < e.generatedLine.toNat then best
    else if e.distance line column < reach then
      closestFrom line column e (e.distance line column) rest
    else closestFrom line column best reach rest

/-- The first of the entries nearest to a position, for entries in the order of the text. -/
def closest? (line column : UInt32) : List Entry → Option Entry
  | [] => none
  | e :: rest => some (closestFrom line column e (e.distance line column) rest)

/-- The entries that a look-up considers: all, or those of one source. -/
def candidates (index : Index) : Option UInt32 → List Entry
  | none => index.entries.toList
  | some source =>
    (index.bySource.getD source #[]).toList.filterMap fun position => index.entries[position]?

/-- The entry nearest to a generated position, of one source if one is given. -/
def nearest? (index : Index) (line column : UInt32) (source : Option UInt32) : Option Entry :=
  closest? line column (index.candidates source)

end Index

end OriginMap
