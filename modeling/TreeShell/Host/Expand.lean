import TreeShell.Environment
import TreeShell.Text.Alphanumeric

/-!
# Expansion of host paths

What a path of the host stands for in a given environment.

* `$NAME` and `${NAME}` stand for the value of a variable, `${NAME:-text}` for `text` if there is
  none, `$$` for a dollar sign. Any other dollar sign stands for itself.
* If a variable has no value, no variable is replaced.
* A leading `~`, alone or before a slash, stands for the home directory, unless it came out of a
  variable.
-/

namespace TreeShell.Host

/-- A piece of a path as it is written. -/
inductive Piece
  | char (c : Char)
  /-- A variable, and what stands in its place if it is not set. -/
  | reference (name : List Char) (fallback : Option (List Char))
deriving DecidableEq, Repr

/-- A character of a name that stands without braces. -/
def isNameChar (c : Char) : Bool :=
  Text.isAlphanumeric c || c = '_'

/-- What stands before the first `:-`, and what stands behind it. -/
def splitFallback : List Char → List Char × Option (List Char)
  | [] => ([], none)
  | ':' :: '-' :: s => ([], some s)
  | c :: s => (splitFallback s).map (c :: ·) id

/-- The variable written between braces. A `:-` with no name before it belongs to the name. -/
def bracedVariable (inner : List Char) : Piece :=
  match splitFallback inner with
  | ([], some _) => .reference inner none
  | (name, fallback) => .reference name fallback

/-- The piece that begins with a dollar sign, given what follows the sign, and how many characters
that follow belong to the piece. -/
def dollarPiece (s : List Char) : Piece × Nat :=
  match s with
  | '$' :: _ => (.char '$', 1)
  | '\x7b' :: s =>
    let inner := s.takeWhile (· ≠ '\x7d')
    if s.contains '\x7d' then (bracedVariable inner, inner.length + 2) else (.char '$', 0)
  | s =>
    match s.takeWhile isNameChar with
    | [] => (.char '$', 0)
    | name => (.reference name none, name.length)

/-- The pieces of a path, after so many characters have been passed over. -/
def piecesFrom : Nat → List Char → List Piece
  | _, [] => []
  | k + 1, _ :: s => piecesFrom k s
  | 0, c :: s =>
    if c = '$' then
      let (piece, taken) := dollarPiece s
      piece :: piecesFrom taken s
    else .char c :: piecesFrom 0 s

/-- The text a piece stands for; `none` if it names a variable without a value. -/
def Piece.value? (env : Environment) : Piece → Option (List Char)
  | char c => some [c]
  | reference name fallback =>
    match env.get? (String.ofList name) with
    | some value => some value.toList
    | none => fallback

/-- The path with its variables replaced; `none` if one of them has no value. -/
def fillVariables (env : Environment) (path : List Char) : Option (List Char) :=
  ((piecesFrom 0 path).mapM (Piece.value? env)).map List.flatten

/-- The path with its leading `~` replaced. -/
def fillHome (env : Environment) (path : List Char) : List Char :=
  match path with
  | '~' :: rest =>
    if rest = [] ∨ rest.head? = some '/' then
      match env.home? with
      | some home => home.toList ++ rest
      | none => path
    else path
  | _ => path

/-- What a path stands for. -/
def expandChars (env : Environment) (path : List Char) : List Char :=
  match fillVariables env path with
  | none => fillHome env path
  | some filled =>
    if path.head? ≠ some '~' ∧ filled.head? = some '~' then filled else fillHome env filled

/-- What a path stands for. -/
def expand (env : Environment) (path : String) : String :=
  String.ofList (expandChars env path.toList)

end TreeShell.Host
