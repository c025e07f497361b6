/-!
# TOML values

A TOML document is a table of values. How a table came about matters while a document is read: a table
may be closed, named by a header, or implied by a longer header or a dotted key, and each kind can be
extended in its own ways only.
-/

namespace OriginMap.Toml

/-- How a table came about. -/
inductive TableKind where
  /-- Written between braces; nothing can be added to it. -/
  | inline
  /-- Named by a header, or the document itself. -/
  | header
  /-- Implied by a longer header. -/
  | implied
  /-- Implied by a dotted key. -/
  | dotted
  deriving DecidableEq, Repr

/-- A TOML value. -/
inductive Value where
  /-- A text. -/
  | text (s : String)
  /-- An integer. -/
  | integer (n : Int)
  /-- A floating-point number, whose value nothing asks for. -/
  | decimal
  /-- A truth value. -/
  | boolean (b : Bool)
  /-- A date, a time or both, whose value nothing asks for. -/
  | moment
  /-- An array. -/
  | array (items : List Value)
  /-- A table, its members in order. -/
  | table (kind : TableKind) (members : List (String × Value))
  /-- An array of tables that headers name, the members of each. -/
  | tables (items : List (List (String × Value)))
  deriving Repr, Inhabited

/-- The members of a table. -/
abbrev Members := List (String × Value)

namespace Members

/-- Gives a member another value, in its place. -/
def set (members : Members) (key : String) (value : Value) : Members :=
  members.map fun member => if member.1 = key then (key, value) else member

/-- Changes the members of the table at the end of a path of keys, making tables that are missing. With
dotted keys, tables that a header named cannot be entered. -/
def changeAt (dotted : Bool) (change : TableKind → Members → Option Members) :
    TableKind → List String → Members → Option Members
  | kind, [], members => change kind members
  | _, key :: path, members =>
    match members.lookup key with
    | none => do
      let kind := if dotted then TableKind.dotted else .implied
      let inner ← changeAt dotted change kind path []
      return members ++ [(key, .table kind inner)]
    | some (.table kind inner) =>
      if kind = .inline ∨ (dotted ∧ kind = .header) then none
      else do
        let inner ← changeAt dotted change kind path inner
        return members.set key (.table kind inner)
    | some (.tables items) => do
      let last ← changeAt dotted change .header path (← items.getLast?)
      return members.set key (.tables (items.dropLast ++ [last]))
    | some _ => none

/-- Adds a member by its key, which may be dotted. The last table of a dotted key must be one that
dotted keys made. -/
def add (members : Members) (path : List String) (key : String) (value : Value) : Option Members :=
  changeAt true (fun kind inner =>
    if decide (kind = .dotted) == path.isEmpty then none
    else if (inner.lookup key).isSome then none
    else some (inner ++ [(key, value)])) .header path members

/-- Opens the table that a header names: a new one, or one that a longer header implied. -/
def openTable (members : Members) (path : List String) (key : String) : Option Members :=
  changeAt false (fun _ inner =>
    match inner.lookup key with
    | none => some (inner ++ [(key, .table .header [])])
    | some (.table .implied old) => some (inner.set key (.table .header old))
    | some _ => none) .header path members

/-- Opens a further table of the array of tables that a header names. -/
def openElement (members : Members) (path : List String) (key : String) : Option Members :=
  changeAt false (fun _ inner =>
    match inner.lookup key with
    | none => some (inner ++ [(key, .tables [[]])])
    | some (.tables items) => some (inner.set key (.tables (items ++ [[]])))
    | some _ => none) .header path members

/-- Adds a member to the table that was opened last. -/
def addWithin (members : Members) (opened path : List String) (key : String) (value : Value) :
    Option Members :=
  changeAt false (fun _ inner => inner.add path key value) .header opened members

end Members

end OriginMap.Toml
