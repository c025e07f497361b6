/-!
# Lines of a text

A line feed ends a line, together with one carriage return right before it; any other carriage return
is text. A text that ends in a line feed has no further line after it.
-/

namespace OriginMap.Text

/-- A line without the carriage return before its line feed. -/
def dropReturn (line : List Char) : List Char :=
  if line.getLast? = some '\r' then line.dropLast else line

/-- The lines of a text. -/
def lines (text : List Char) : List (List Char) :=
  let cuts := text.splitOn '\n'
  cuts.dropLast.map dropReturn ++
    match cuts.getLast? with
    | none | some [] => []
    | some last => [last]

end OriginMap.Text
