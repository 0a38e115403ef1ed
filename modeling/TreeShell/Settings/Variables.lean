import TreeShell.Environment

/-!
# Variables in settings

A reference `${NAME}` in the text of a file stands for the value of a variable, or for nothing if
the variable is not set.

* `Piece.split` cuts a text into plain characters and references, from the left.
* `fill` puts the values in. They are not looked through again.
-/

namespace TreeShell.Settings

/-- A piece of the text of a file. -/
inductive Piece
  | char (c : Char)
  | reference (name : List Char)
deriving DecidableEq, Repr

/-- The name of the reference a text begins with. It is not empty and ends before the first closing
brace. -/
def reference? : List Char → Option (List Char)
  | '$' :: '\x7b' :: s =>
    let name := s.takeWhile (· ≠ '\x7d')
    if name ≠ [] && s.contains '\x7d' then some name else none
  | _ => none

/-- How a piece is written. -/
def Piece.written : Piece → List Char
  | char c => [c]
  | reference name => '$' :: '\x7b' :: name ++ ['\x7d']

/-- The pieces of a text, after so many characters that belong to the piece before. -/
def Piece.splitAfter : Nat → List Char → List Piece
  | _, [] => []
  | k + 1, _ :: s => splitAfter k s
  | 0, c :: s =>
    match reference? (c :: s) with
    | some name => .reference name :: splitAfter (name.length + 2) s
    | none => .char c :: splitAfter 0 s

/-- The pieces of a text. -/
def Piece.split (s : List Char) : List Piece :=
  splitAfter 0 s

/-- What a piece stands for. -/
def Piece.value (env : Environment) : Piece → List Char
  | char c => [c]
  | reference name => (env.getD (String.ofList name)).toList

/-- The text with its references replaced. -/
def fill (env : Environment) (text : String) : String :=
  String.ofList ((Piece.split text.toList).flatMap (Piece.value env))

end TreeShell.Settings
