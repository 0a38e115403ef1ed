import TreeShell.Text.Blank

/-!
# Breaking lines

* `wrap`: a text with its lines broken at spaces, so that they fit a width as far as single words
  do. All lines but the first are indented.
-/

namespace TreeShell.Text

/-- The words of a line, each with the spaces behind it. -/
def spacedWords (s : List Char) : List (List Char) :=
  s.splitBy fun a b => a ≠ ' ' || b = ' '

/-- Drops the blanks at the end. -/
def trimEnd (s : List Char) : List Char :=
  (s.reverse.dropWhile isBlank).reverse

/-- Words set behind so many characters of a line. A word that would pass the width begins a line of
its own, and the spaces before it are dropped. -/
def setWords (width : Nat) : Nat → List (List Char) → List Char
  | _, [] => []
  | _, [word] => word
  | used, word :: next :: more =>
    if width < used + word.length + (trimEnd next).length then
      trimEnd word ++ '\n' :: setWords width 0 (next :: more)
    else word ++ setWords width (used + word.length) (next :: more)

/-- The characters of a text with `indent` spaces at the beginning of all lines but the first. -/
def indentLines (indent : Nat) (s : List Char) : List Char :=
  s.flatMap fun c => if c = '\n' then c :: List.replicate indent ' ' else [c]

/-- A text broken to fit a width, and indented. -/
def wrap (width indent : Nat) (text : String) : String :=
  let lines := (text.toList.splitOn '\n').map fun line => setWords width 0 (spacedWords line)
  String.ofList (indentLines indent (List.intercalate ['\n'] lines))

end TreeShell.Text
