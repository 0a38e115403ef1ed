import TreeShell.Text.Quoted

/-!
# What can be wrong with a JSON text

* `Cause`: why a text is refused, either its syntax or a value that does not fit.
* `Spot`: where, given as the text not read yet. The line and column follow from the whole text.
* `Rejection.message`: the wording with its line and column. Columns count bytes.
-/

namespace TreeShell.Json

/-- What stands where something else belongs. -/
inductive Found
  | null
  | bool (value : Bool)
  | integer (value : Int)
  /-- A number with a fraction or exponent, or too long for an integer, as it is written back. -/
  | fraction (digits : String)
  | text (value : String)
  | list
  | record
deriving DecidableEq, Repr

/-- Why a text is refused. -/
inductive Cause
  | endInList
  | endInRecord
  | endInText
  | endInValue
  | expectedColon
  | expectedListSeparator
  | expectedRecordSeparator
  | expectedWord
  | expectedValue
  | invalidEscape
  | invalidNumber
  | numberRange
  | controlCharacter
  | keyNotText
  | loneSurrogate
  | endOfSurrogate
  | trailingComma
  | trailingText
  | tooDeep
  | wrongType (found : Found) (expected : String)
  | wrongValue (found : Found) (expected : String)
  | wrongLength (length : Nat) (expected : String)
  | unknownVariant (name : String) (known : List String)
  | missingField (name : String)
  | duplicateField (name : String)
deriving DecidableEq, Repr

/-- A name between backticks. -/
def ticked (s : String) : String :=
  "`" ++ s ++ "`"

/-- A list of choices. -/
def oneOf : List String → String
  | [a, b] => ticked a ++ " or " ++ ticked b
  | names => "one of " ++ ", ".intercalate (names.map ticked)

/-- What was found, in words. -/
def Found.message : Found → String
  | null => "null"
  | bool b => "boolean " ++ ticked (if b then "true" else "false")
  | integer n => "integer " ++ ticked (toString n)
  | fraction ds => "floating point " ++ ticked ds
  | text s => "string " ++ Text.quoted s
  | list => "sequence"
  | record => "map"

/-- The cause, in words. -/
def Cause.message : Cause → String
  | endInList => "EOF while parsing a list"
  | endInRecord => "EOF while parsing an object"
  | endInText => "EOF while parsing a string"
  | endInValue => "EOF while parsing a value"
  | expectedColon => "expected `:`"
  | expectedListSeparator => "expected `,` or `]`"
  | expectedRecordSeparator => "expected `,` or `\x7d`"
  | expectedWord => "expected ident"
  | expectedValue => "expected value"
  | invalidEscape => "invalid escape"
  | invalidNumber => "invalid number"
  | numberRange => "number out of range"
  | controlCharacter => "control character (\\u0000-\\u001F) found while parsing a string"
  | keyNotText => "key must be a string"
  | loneSurrogate => "lone leading surrogate in hex escape"
  | endOfSurrogate => "unexpected end of hex escape"
  | trailingComma => "trailing comma"
  | trailingText => "trailing characters"
  | tooDeep => "recursion limit exceeded"
  | wrongType found expected => "invalid type: " ++ found.message ++ ", expected " ++ expected
  | wrongValue found expected => "invalid value: " ++ found.message ++ ", expected " ++ expected
  | wrongLength n expected => "invalid length " ++ toString n ++ ", expected " ++ expected
  | unknownVariant name known =>
    "unknown variant " ++ ticked name ++ ", expected " ++ oneOf known
  | missingField name => "missing field " ++ ticked name
  | duplicateField name => "duplicate field " ++ ticked name

/-- A place in a text: so many bytes after the point where `rest` begins. -/
structure Spot where
  rest : List Char
  bytes : Nat
deriving DecidableEq, Repr

/-- The point where `rest` begins. -/
def Spot.at (rest : List Char) : Spot :=
  { rest, bytes := 0 }

/-- One byte after the point where `rest` begins. -/
def Spot.next (rest : List Char) : Spot :=
  { rest, bytes := 1 }

/-- The number of bytes of a text. -/
def byteCount : List Char → Nat
  | [] => 0
  | c :: s => c.utf8Size + byteCount s

/-- Line and column after `n` bytes, counted on from a given line and column. A place inside a
character counts the bytes of it that were passed. -/
def positionFrom : Nat → Nat → Nat → List Char → Nat × Nat
  | line, column, _, [] => (line, column)
  | line, column, n, c :: s =>
    if n < c.utf8Size then (line, column + n)
    else if c = '\n' then positionFrom (line + 1) 0 (n - 1) s
    else positionFrom line (column + c.utf8Size) (n - c.utf8Size) s

/-- Line, from 1, and column, in bytes, of a place in a text. -/
def Spot.position (p : Spot) (text : List Char) : Nat × Nat :=
  positionFrom 1 0 (byteCount text - byteCount p.rest + p.bytes) text

/-- A cause and its place. -/
structure Fault where
  cause : Cause
  spot : Spot
deriving DecidableEq, Repr

/-- A cause with its line and column. -/
structure Rejection where
  cause : Cause
  line : Nat
  column : Nat
deriving DecidableEq, Repr

/-- A fault of the text `text`, located in it. -/
def Fault.locate (f : Fault) (text : List Char) : Rejection :=
  let (line, column) := f.spot.position text
  { cause := f.cause, line, column }

/-- The wording of a rejection. -/
def Rejection.message (r : Rejection) : String :=
  r.cause.message ++ " at line " ++ toString r.line ++ " column " ++ toString r.column

/-- Fails at the point where `rest` begins. -/
def failAt {α : Type} (cause : Cause) (rest : List Char) : Except Fault α :=
  .error { cause, spot := .at rest }

/-- Fails one byte after the point where `rest` begins. -/
def failNext {α : Type} (cause : Cause) (rest : List Char) : Except Fault α :=
  .error { cause, spot := .next rest }

end TreeShell.Json
