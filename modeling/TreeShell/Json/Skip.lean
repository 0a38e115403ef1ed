import TreeShell.Json.Scalar

/-!
# Values nobody asks for

A field that is not known is passed over. Its value is held to the grammar only: halves of
characters need not match, a number may be of any size, and nesting may go to any depth.

* `skip`: the text behind the value.
-/

namespace TreeShell.Json

/-- The digits of an exponent; one is required. -/
def skipExponentDigits (s : List Char) : Except Fault (List Char) :=
  if startsWithDigit s then .ok (dropDigits s) else failNext .invalidNumber s

/-- An exponent, or nothing. -/
def skipScale (s : List Char) : Except Fault (List Char) :=
  match s with
  | [] => .ok []
  | c :: rest =>
    if c = 'e' || c = 'E' then
      match rest with
      | '+' :: rest => skipExponentDigits rest
      | '-' :: rest => skipExponentDigits rest
      | _ => skipExponentDigits rest
    else .ok s

/-- A point with digits, or nothing, and an exponent. -/
def skipDecimals (s : List Char) : Except Fault (List Char) :=
  match s with
  | '.' :: rest =>
    if startsWithDigit rest then skipScale (dropDigits rest) else failNext .invalidNumber rest
  | _ => skipScale s

/-- A number after its sign. -/
def skipNumber (s : List Char) : Except Fault (List Char) :=
  match s with
  | '0' :: rest =>
    if startsWithDigit rest then failNext .invalidNumber rest else skipDecimals rest
  | _ => if startsWithDigit s then skipDecimals (dropDigits s) else failNext .invalidNumber s

/-- An escape, after its backslash. -/
def skipEscape (s : List Char) : Except Fault (List Char) :=
  match s with
  | [] => failAt .endInText []
  | 'u' :: rest => (readHex rest).map Prod.snd
  | c :: rest =>
    if ['"', '\\', '/', 'b', 'f', 'n', 'r', 't'].contains c then .ok rest
    else failNext .invalidEscape s

/-- A text after its opening quote. -/
def skipText : Nat → List Char → Except Fault (List Char)
  | 0, s => failAt .endInText s
  | fuel + 1, s =>
    match s with
    | [] => failAt .endInText []
    | '"' :: rest => .ok rest
    | '\\' :: rest => skipEscape rest >>= skipText fuel
    | c :: rest =>
      if c.toNat < 0x20 then failAt .controlCharacter (c :: rest) else skipText fuel rest

/-- A key with its colon. -/
def skipKey (s : List Char) : Except Fault (List Char) :=
  match skipSpace s with
  | [] => failNext .endInRecord []
  | '"' :: rest => do
    let rest ← skipText (rest.length + 1) rest
    match skipSpace rest with
    | [] => failNext .endInRecord []
    | ':' :: rest => .ok rest
    | rest => failNext .expectedColon rest
  | rest => failNext .keyNotText rest

mutual

/-- The text behind a value. Two calls take at least one character, so `fuel` need only be twice
the length of the text. -/
def skipValue : Nat → List Char → Except Fault (List Char)
  | 0, s => failNext .expectedValue s
  | fuel + 1, s =>
    match skipSpace s with
    | [] => failNext .endInValue []
    | 'n' :: rest => readWord ['u', 'l', 'l'] rest
    | 't' :: rest => readWord ['r', 'u', 'e'] rest
    | 'f' :: rest => readWord ['a', 'l', 's', 'e'] rest
    | '-' :: rest => skipNumber rest
    | '"' :: rest => skipText (rest.length + 1) rest
    | '[' :: rest => skipItems fuel true rest
    | '\x7b' :: rest => skipFields fuel true rest
    | c :: rest => if c.isDigit then skipNumber (c :: rest) else failNext .expectedValue (c :: rest)

/-- The text behind a list, after its opening bracket or one of its items. -/
def skipItems : Nat → Bool → List Char → Except Fault (List Char)
  | 0, _, s => failNext .expectedValue s
  | fuel + 1, first, s =>
    match skipSpace s with
    | [] => failNext .endInList []
    | ']' :: rest => .ok rest
    | c :: rest =>
      if first then skipValue fuel (c :: rest) >>= skipItems fuel false
      else if c = ',' then skipValue fuel rest >>= skipItems fuel false
      else failNext .expectedListSeparator (c :: rest)

/-- The text behind a record, after its opening brace or one of its fields. -/
def skipFields : Nat → Bool → List Char → Except Fault (List Char)
  | 0, _, s => failNext .expectedValue s
  | fuel + 1, first, s =>
    match skipSpace s with
    | [] => failNext .endInRecord []
    | '\x7d' :: rest => .ok rest
    | c :: rest =>
      if first then skipKey (c :: rest) >>= skipValue fuel >>= skipFields fuel false
      else if c = ',' then skipKey rest >>= skipValue fuel >>= skipFields fuel false
      else failNext .expectedRecordSeparator (c :: rest)

end

/-- Passes over a value. -/
def skip (s : List Char) : Except Fault (List Char) :=
  skipValue (2 * s.length + 2) s

end TreeShell.Json
