import TreeShell.Text.Blank
import TreeShell.Text.Lines

/-!
# The history of lines

The lines that were typed, in this run and in earlier ones.

* `add`: a line is left out if it is empty, begins with a blank or repeats the last one. Only the
  last `limit` lines are kept.
* `toText`, `ofText`: the history as a file with one line for each. In a file with the mark at its
  head, line feeds and backslashes of a line are escaped.
-/

namespace TreeShell.Cli

/-- Lines that were typed, the last one at the end. -/
structure History where
  lines : List String
  /-- How many lines are kept. -/
  limit : Nat
  /-- Whether a line was added to those that had been kept. -/
  grown : Bool
deriving DecidableEq, Repr

namespace History

/-- A history without lines. -/
def blank (limit : Nat) : History :=
  { lines := [], limit, grown := false }

/-- Whether a line is left out. -/
def ignores (h : History) (line : String) : Bool :=
  h.limit = 0 || line.toList.head?.all Text.isBlank || h.lines.getLast? = some line

/-- Adds a line at the end. -/
def add (h : History) (line : String) : History :=
  if h.ignores line then h
  else
    let lines := h.lines ++ [line]
    { h with lines := lines.drop (lines.length - h.limit), grown := true }

/-- One character of a line, as it is kept in a file. -/
def escaped (c : Char) : List Char :=
  if c = '\n' then ['\\', 'n'] else if c = '\\' then ['\\', '\\'] else [c]

/-- A line as it is kept in a file. -/
def escape (line : String) : String :=
  String.ofList (line.toList.flatMap escaped)

/-- The line that was escaped; `none` if a backslash escapes nothing. -/
def unescaped? : List Char → Option (List Char)
  | [] => some []
  | '\\' :: 'n' :: s => (unescaped? s).map ('\n' :: ·)
  | '\\' :: '\\' :: s => (unescaped? s).map ('\\' :: ·)
  | c :: s => if c = '\\' then none else (unescaped? s).map (c :: ·)

/-- The line kept in a file. One that is not well escaped is taken as it is. -/
def unescape (line : String) : String :=
  ((unescaped? line.toList).map String.ofList).getD line

/-- The mark of a file in which lines are escaped. -/
def mark : String := "#V2"

/-- The text of a file that keeps the history. -/
def toText (h : History) : String :=
  Text.unlines (mark :: h.lines.map escape)

/-- The lines in a file. -/
def linesIn (text : String) : List String :=
  match Text.lines text with
  | [] => []
  | first :: rest => if first = mark then rest.map unescape else first :: rest

/-- The history kept in a file. -/
def ofText (limit : Nat) (text : String) : History :=
  { (linesIn text).foldl add (.blank limit) with grown := false }

end History

end TreeShell.Cli
