/-!
# Names of sources

Sources and generated files are matched by base name: directories, query strings and fragments do not
count on either side, and of several sources with one base name the first is meant.
-/

namespace OriginMap

/-- What may follow a path: a query string or a fragment. -/
def startsDecoration (c : Char) : Bool := c = '?' || c = '#'

/-- What ends a directory, in either style. -/
def endsDirectory (c : Char) : Bool := c = '/' || c = '\\'

/-- The part of a path before any query or fragment and after the last directory. -/
def baseName (path : List Char) : List Char :=
  let plain := path.takeWhile (!startsDecoration ·)
  (plain.reverse.takeWhile (!endsDirectory ·)).reverse

/-- The first source with the base name of the hint; none for an empty base name. -/
def findSource? (sources : List String) (hint : String) : Option Nat :=
  let wanted := baseName hint.toList
  if wanted = [] then none else sources.findIdx? fun source => baseName source.toList = wanted

end OriginMap
