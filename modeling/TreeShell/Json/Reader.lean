import TreeShell.Json.Skip

/-!
# Reading values of a known shape

Readers for texts, bounded integers, choices, lists, maps and records. Each says what belongs in
its place, and refuses what does not at the first point where the two part.

* A record may also be written as a list of its fields in order.
* Unknown fields are passed over; a field given twice is refused, a key of a map is not.
* A fault about a container as a whole is placed behind its closing bracket, if that follows.
* `depth`: how many containers may still be entered, plus one.
-/

namespace TreeShell.Json

variable {α β : Type}

/-- How deep containers may stand inside each other, plus one. -/
def maxDepth : Nat := 128

/-! ## Scalars -/

/-- A text. -/
def asText (s : List Char) : Except Fault (String × List Char) :=
  match skipSpace s with
  | [] => failNext .endInValue []
  | '"' :: rest => readText rest
  | s => refuse "a string" s

/-- A truth value. -/
def asBool (s : List Char) : Except Fault (Bool × List Char) :=
  match skipSpace s with
  | [] => failNext .endInValue []
  | 't' :: rest => do .ok (true, ← readWord ['r', 'u', 'e'] rest)
  | 'f' :: rest => do .ok (false, ← readWord ['a', 'l', 's', 'e'] rest)
  | s => refuse "a boolean" s

/-- `null`. -/
def asNull (s : List Char) : Except Fault (Unit × List Char) :=
  match skipSpace s with
  | [] => failNext .endInValue []
  | 'n' :: rest => do .ok ((), ← readWord ['u', 'l', 'l'] rest)
  | s => refuse "unit" s

/-- A number that has been read, as one within the limit. -/
def asBounded (kind : String) (limit : Nat) (n : Number) (rest : List Char) :
    Except Fault (Nat × List Char) :=
  match n with
  | .integer (.ofNat m) =>
    if m ≤ limit then .ok (m, rest) else failAt (.wrongValue (.integer m) kind) rest
  | .integer m => failAt (.wrongValue (.integer m) kind) rest
  | .fraction ds => failAt (.wrongType (.fraction ds) kind) rest

/-- A natural number within a limit. -/
def asNat (kind : String) (limit : Nat) (s : List Char) : Except Fault (Nat × List Char) :=
  match skipSpace s with
  | [] => failNext .endInValue []
  | '-' :: rest => do
    let (n, rest) ← readNumber true rest
    asBounded kind limit n rest
  | s =>
    if startsWithDigit s then do
      let (n, rest) ← readNumber false s
      asBounded kind limit n rest
    else refuse kind s

/-- One of the known names. -/
def asVariant (known : List String) (s : List Char) : Except Fault (String × List Char) :=
  match skipSpace s with
  | [] => failNext .endInValue []
  | '"' :: rest => do
    let (name, rest) ← readText rest
    if known.contains name then .ok (name, rest) else failAt (.unknownVariant name known) rest
  | s => refuse "variant identifier" s

/-! ## The parts of containers -/

/-- The text behind a list of which no further item is wanted. -/
def leaveList (s : List Char) : List Char :=
  match skipSpace s with
  | ']' :: rest => rest
  | ',' :: rest => skipSpace rest
  | s => s

/-- The text behind a record of which no further field is wanted. -/
def leaveRecord (s : List Char) : List Char :=
  match skipSpace s with
  | '\x7d' :: rest => rest
  | s => s

/-- The text at the next item of a list; `none` at its end. -/
def nextItem (first : Bool) (s : List Char) : Except Fault (Option (List Char)) :=
  match skipSpace s with
  | [] => failNext .endInList []
  | ']' :: _ => .ok none
  | c :: rest =>
    if first then .ok (some (c :: rest))
    else if c = ',' then
      match skipSpace rest with
      | [] => failNext .endInValue []
      | ']' :: rest => failNext .trailingComma (']' :: rest)
      | rest => .ok (some rest)
    else failNext .expectedListSeparator (c :: rest)

/-- The text behind the opening quote of the next key of a record; `none` at its end. -/
def nextKey (first : Bool) (s : List Char) : Except Fault (Option (List Char)) :=
  match skipSpace s with
  | [] => failNext .endInRecord []
  | '\x7d' :: _ => .ok none
  | c :: rest =>
    if first then
      if c = '"' then .ok (some rest) else failNext .keyNotText (c :: rest)
    else if c = ',' then
      match skipSpace rest with
      | [] => failNext .endInValue []
      | '"' :: rest => .ok (some rest)
      | '\x7d' :: rest => failNext .trailingComma ('\x7d' :: rest)
      | rest => failNext .keyNotText rest
    else failNext .expectedRecordSeparator (c :: rest)

/-- The text behind the colon of a field. -/
def readColon (s : List Char) : Except Fault (List Char) :=
  match skipSpace s with
  | [] => failNext .endInRecord []
  | ':' :: rest => .ok rest
  | s => failNext .expectedColon s

/-- The end of a list all of whose places are taken. -/
def endList (s : List Char) : Except Fault (List Char) :=
  match skipSpace s with
  | [] => failNext .endInList []
  | ']' :: rest => .ok rest
  | ',' :: rest =>
    match skipSpace rest with
    | ']' :: rest => failNext .trailingComma (']' :: rest)
    | rest => failNext .trailingText rest
  | s => failNext .trailingText s

/-- Refuses to enter a container that would stand too deep. -/
def enter (depth : Nat) (s : List Char) : Except Fault Unit :=
  if depth ≤ 1 then failNext .tooDeep s else .ok ()

/-! ## Lists and maps -/

/-- The items of a list, after its opening bracket; the text left is behind the closing one. Every
item takes a character at least, so `fuel` need only be the length of the text. -/
def readItems (one : Reader α) : Nat → Bool → Reader (List α)
  | 0, _, s => failNext .expectedValue s
  | fuel + 1, first, s => do
    match ← nextItem first s with
    | none => .ok ([], (skipSpace s).drop 1)
    | some s =>
      let (x, s) ← one s
      let (xs, s) ← readItems one fuel false s
      .ok (x :: xs, s)

/-- A list. -/
def asList (depth : Nat) (one : Reader α) (s : List Char) : Except Fault (List α × List Char) :=
  match skipSpace s with
  | [] => failNext .endInValue []
  | '[' :: rest => do
    enter depth ('[' :: rest)
    readItems one (rest.length + 1) true rest
  | s => refuse "a sequence" s

/-- The fields of a map, after its opening brace; the text left is behind the closing one. A value
that can be read but does not fit is a fault of the map. -/
def readEntries (one : Reader β) (fit : β → Except Cause α) :
    Nat → Bool → Reader (List (String × α))
  | 0, _, s => failNext .expectedValue s
  | fuel + 1, first, s => do
    match ← nextKey first s with
    | none => .ok ([], (skipSpace s).drop 1)
    | some s =>
      let (key, s) ← readText s
      let s ← readColon s
      let (x, s) ← one s
      match fit x with
      | .error cause => failAt cause (leaveRecord s)
      | .ok x =>
        let (xs, s) ← readEntries one fit fuel false s
        .ok ((key, x) :: xs, s)

/-- A map. -/
def asMap (depth : Nat) (one : Reader β) (fit : β → Except Cause α) (s : List Char) :
    Except Fault (List (String × α) × List Char) :=
  match skipSpace s with
  | [] => failNext .endInValue []
  | '\x7b' :: rest => do
    enter depth ('\x7b' :: rest)
    readEntries one fit (rest.length + 1) true rest
  | s => refuse "a map" s

/-! ## Any value -/

/-- A scalar that was found. -/
def Found.value : Found → Value
  | .null => .null
  | .bool b => .bool b
  | .integer n => .number (.integer n)
  | .fraction ds => .number (.fraction ds)
  | .text s => .text s
  | .list => .list []
  | .record => .record []

/-- What a value is found to be. -/
def Value.found : Value → Found
  | .null => .null
  | .bool b => .bool b
  | .number n => n.found
  | .text s => .text s
  | .list _ => .list
  | .record _ => .record

/-- Any value, below so many containers. -/
def readValue : Nat → Reader Value
  | 0, s => failNext .tooDeep s
  | depth + 1, s =>
    match skipSpace s with
    | [] => failNext .endInValue []
    | '[' :: rest => do
      enter (depth + 1) ('[' :: rest)
      let (items, rest) ← readItems (readValue depth) (rest.length + 1) true rest
      .ok (.list items, rest)
    | '\x7b' :: rest => do
      enter (depth + 1) ('\x7b' :: rest)
      let (fields, rest) ← readEntries (readValue depth) .ok (rest.length + 1) true rest
      .ok (.record fields, rest)
    | s => do
      let (found, rest) ← readFound s
      .ok (found.value, rest)

/-! ## Records -/

/-- A field of a record, as it is read into a draft of the record. -/
structure Field (α : Type) where
  key : String
  /-- Whether the draft has it already. -/
  given : α → Bool
  read : α → Reader α

/-- A field that is an optional part of the draft. -/
def Field.part (key : String) (get : α → Option β) (put : β → α → α) (one : Reader β) : Field α where
  key := key
  given := fun draft => (get draft).isSome
  read := fun draft s => do
    let (x, s) ← one s
    .ok (put x draft, s)

/-- A record with named fields. -/
structure Shape (α β : Type) where
  /-- What belongs in its place. -/
  expected : String
  fields : List (Field α)
  /-- The draft without any field. -/
  blank : α
  /-- The record, or the first field that is missing. -/
  finish : α → Except String β

/-- The fields of a record by name, up to its closing brace. -/
def readNamed (fields : List (Field α)) : Nat → Bool → α → Reader α
  | 0, _, _, s => failNext .expectedValue s
  | fuel + 1, first, draft, s => do
    match ← nextKey first s with
    | none => .ok (draft, skipSpace s)
    | some s =>
      let (key, s) ← readText s
      match fields.find? (·.key = key) with
      | none =>
        let s ← readColon s
        let s ← skip s
        readNamed fields fuel false draft s
      | some field =>
        if field.given draft then failAt (.duplicateField key) (leaveRecord s)
        else
          let s ← readColon s
          let (draft, s) ← field.read draft s
          readNamed fields fuel false draft s

/-- The fields of a record by place, as many as the list has; also says how many. -/
def readPlaced : List (Field α) → Nat → α → List Char → Except Fault ((α × Nat) × List Char)
  | [], count, draft, s => .ok ((draft, count), s)
  | field :: fields, count, draft, s => do
    match ← nextItem (count = 0) s with
    | none => .ok ((draft, count), s)
    | some s =>
      let (draft, s) ← field.read draft s
      readPlaced fields (count + 1) draft s

/-- So many items. -/
def itemCount (n : Nat) : String :=
  if n = 1 then "1 element" else toString n ++ " elements"

/-- A record, written as a record or as a list. -/
def asRecord (depth : Nat) (shape : Shape α β) (s : List Char) : Except Fault (β × List Char) :=
  match skipSpace s with
  | [] => failNext .endInValue []
  | '[' :: rest => do
    enter depth ('[' :: rest)
    let ((draft, count), rest) ← readPlaced shape.fields 0 shape.blank rest
    match shape.finish draft with
    | .ok record => .ok (record, ← endList rest)
    | .error _ =>
      failAt (.wrongLength count (shape.expected ++ " with " ++ itemCount shape.fields.length))
        (leaveList rest)
  | '\x7b' :: rest => do
    enter depth ('\x7b' :: rest)
    let (draft, rest) ← readNamed shape.fields (rest.length + 1) true shape.blank rest
    match shape.finish draft with
    | .ok record => .ok (record, rest.drop 1)
    | .error name => failAt (.missingField name) (leaveRecord rest)
  | s => refuse shape.expected s

/-! ## Choices -/

/-- The text at the key of a record that must have one, after its opening brace. -/
def onlyKey (s : List Char) : Except Fault (List Char) :=
  match skipSpace s with
  | [] => failNext .endInRecord []
  | '"' :: rest => .ok ('"' :: rest)
  | '\x7d' :: rest => failNext .expectedValue ('\x7d' :: rest)
  | rest => failNext .keyNotText rest

/-- One of the known names, also written as a record that binds it to `null`. -/
def asChoice (depth : Nat) (known : List String) (s : List Char) :
    Except Fault (String × List Char) :=
  match skipSpace s with
  | [] => failNext .endInValue []
  | '"' :: rest => asVariant known ('"' :: rest)
  | '\x7b' :: rest => do
    enter depth ('\x7b' :: rest)
    let (name, rest) ← asVariant known (← onlyKey rest)
    let rest ← readColon rest
    let (_, rest) ← asNull rest
    match skipSpace rest with
    | '\x7d' :: rest => .ok (name, rest)
    | [] => failAt .endInRecord []
    | rest => failAt .expectedValue rest
  | s => failNext .expectedValue s

/-- The fields of a tagged record besides its tag, after its opening brace; the tag may stand
anywhere among them. The text left is before the closing brace. -/
def readTagged (depth : Nat) (tag : String) (known : List String) :
    Nat → Bool → Option String → Reader (Option String × List (String × Value))
  | 0, _, _, s => failNext .expectedValue s
  | fuel + 1, first, name, s => do
    match ← nextKey first s with
    | none => .ok ((name, []), skipSpace s)
    | some s =>
      let (key, s) ← readText s
      if key = tag then
        if name.isSome then failAt (.duplicateField tag) (leaveRecord s)
        else
          let s ← readColon s
          let (n, s) ← asVariant known s
          readTagged depth tag known fuel false (some n) s
      else
        let s ← readColon s
        let (v, s) ← readValue depth s
        let ((name, vs), s) ← readTagged depth tag known fuel false name s
        .ok ((name, (key, v) :: vs), s)

/-- A record with a field that says what it is, or a list that says so in its first place. Gives
the name and the other fields. -/
def asTagged (depth : Nat) (tag : String) (known : List String) (expected : String)
    (s : List Char) : Except Fault ((String × Value) × List Char) :=
  match skipSpace s with
  | [] => failNext .endInValue []
  | '[' :: rest => do
    enter depth ('[' :: rest)
    match ← nextItem true rest with
    | none => failAt (.missingField tag) (leaveList rest)
    | some rest =>
      let (name, rest) ← asVariant known rest
      let (items, rest) ← readItems (readValue (depth - 1)) (rest.length + 1) false rest
      .ok ((name, .list items), rest)
  | '\x7b' :: rest => do
    enter depth ('\x7b' :: rest)
    let ((name, fields), rest) ←
      readTagged (depth - 1) tag known (rest.length + 1) true none rest
    match name with
    | none => failAt (.missingField tag) (leaveRecord rest)
    | some name => .ok ((name, .record fields), rest.drop 1)
  | s => refuse expected s

/-! ## Whole texts -/

/-- A value with nothing but blanks behind it. -/
def readOnly (one : Reader α) (s : List Char) : Except Fault α := do
  let (x, rest) ← one s
  match skipSpace rest with
  | [] => .ok x
  | rest => failNext .trailingText rest

/-- Reads a text that holds one value and nothing else. -/
def readWhole (one : Reader α) (text : String) : Except Rejection α :=
  (readOnly one text.toList).mapError (·.locate text.toList)

end TreeShell.Json
