/-!
# Lines

* `lines`: the lines of a text. A line ends with a line feed, which a carriage return may precede.
  What follows the last line feed is a line too unless it is empty.
* `unlines`: some lines, each with its line feed.
-/

namespace TreeShell.Text

/-- A line that has ended, without the carriage return before its end. -/
def withoutReturn (line : List Char) : List Char :=
  if line.getLast? = some '\r' then line.dropLast else line

/-- The lines of a text. -/
def linesOf (s : List Char) : List (List Char) :=
  let parts := s.splitOn '\n'
  parts.dropLast.map withoutReturn ++ (parts.getLast?.filter (· ≠ [])).toList

/-- The lines of a text. -/
def lines (s : String) : List String :=
  (linesOf s.toList).map String.ofList

/-- The text with the given lines. -/
def unlines (ls : List String) : String :=
  String.join (ls.map (· ++ "\n"))

end TreeShell.Text
