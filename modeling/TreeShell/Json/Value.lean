import TreeShell.Text.Hex

/-!
# JSON values

* `Value`: a value with its fields in the order they were written.
* `Value.pretty`: the text with two spaces of indentation and one item a line.
* `escaped`: how a character is written inside a text.
-/

namespace TreeShell.Json

/-- A number. -/
inductive Number
  | integer (value : Int)
  /-- A number that is no 64-bit integer, as it is written back. -/
  | fraction (digits : String)
deriving DecidableEq, Repr

/-- A value. -/
inductive Value
  | null
  | bool (value : Bool)
  | number (value : Number)
  | text (value : String)
  | list (items : List Value)
  | record (fields : List (String × Value))
deriving Repr

/-- A character inside a text. Only quotes, backslashes and control characters are escaped. -/
def escaped (c : Char) : List Char :=
  if c = '"' then ['\\', '"']
  else if c = '\\' then ['\\', '\\']
  else if c = '\n' then ['\\', 'n']
  else if c = '\r' then ['\\', 'r']
  else if c = '\t' then ['\\', 't']
  else if c.toNat = 0x08 then ['\\', 'b']
  else if c.toNat = 0x0C then ['\\', 'f']
  else if c.toNat < 0x20 then
    ['\\', 'u', '0', '0', Text.hexDigit (c.toNat / 16), Text.hexDigit (c.toNat % 16)]
  else [c]

/-- A text between quotes. -/
def quotedText (s : String) : List Char :=
  '"' :: s.toList.flatMap escaped ++ ['"']

/-- The text of a number. -/
def Number.print : Number → List Char
  | integer n => (toString n).toList
  | fraction ds => ds.toList

/-- A new line at the given depth. -/
def newline (depth : Nat) : List Char :=
  '\n' :: List.replicate (2 * depth) ' '

/-- Items between brackets, each on a line of its own; nothing but the brackets if there is none. -/
def bracketed (opening closing : Char) (depth : Nat) : List (List Char) → List Char
  | [] => [opening, closing]
  | items =>
    opening :: List.intercalate [','] (items.map (newline (depth + 1) ++ ·)) ++
      newline depth ++ [closing]

mutual

/-- The text of a value that stands at the given depth. -/
def Value.print (depth : Nat) : Value → List Char
  | .null => ['n', 'u', 'l', 'l']
  | .bool true => ['t', 'r', 'u', 'e']
  | .bool false => ['f', 'a', 'l', 's', 'e']
  | .number n => n.print
  | .text s => quotedText s
  | .list items => bracketed '[' ']' depth (Value.printItems (depth + 1) items)
  | .record fields => bracketed '\x7b' '\x7d' depth (Value.printFields (depth + 1) fields)

/-- The texts of the items of a list. -/
def Value.printItems (depth : Nat) : List Value → List (List Char)
  | [] => []
  | v :: vs => v.print depth :: Value.printItems depth vs

/-- The texts of the fields of a record. -/
def Value.printFields (depth : Nat) : List (String × Value) → List (List Char)
  | [] => []
  | (k, v) :: fs => (quotedText k ++ [':', ' '] ++ v.print depth) :: Value.printFields depth fs

end

/-- The text of a value. -/
def Value.pretty (v : Value) : String :=
  String.ofList (v.print 0)

end TreeShell.Json
