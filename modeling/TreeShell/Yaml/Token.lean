import TreeShell.Yaml.Scalar

/-!
# Tokens of YAML

* `Token`: the signs and words a text is made of. Indentation shows as the tokens that open and
  close a block.
* `readWord`, `readTag`, `readDirective`: the tokens with a form of their own, apart from scalars.
-/

namespace TreeShell.Yaml

/-- The way in which a scalar is written. -/
inductive Style
  | plain
  | quoted
  | literal
  | folded
deriving DecidableEq, Repr

/-- A sign or word of a text. -/
inductive Token
  | versionDirective (major minor : Nat)
  | tagDirective (handle stem : String)
  | documentStart
  | documentEnd
  | blockSequence
  | blockMapping
  | blockEnd
  | flowSequence
  | flowSequenceEnd
  | flowMapping
  | flowMappingEnd
  | blockEntry
  | flowEntry
  | key
  | value
  | alias (name : String)
  | anchor (name : String)
  /-- A tag. An empty handle says that the suffix is the whole tag. -/
  | tag (handle suffix : String)
  | scalar (style : Style) (text : String)
deriving DecidableEq, Repr

/-- A letter, digit, hyphen or underscore of ASCII. -/
def isWordChar (c : Char) : Bool :=
  c.isAlphanum || c = '_' || c = '-'

/-- The word a text begins with. -/
def readWord (s : List Char) : List Char × List Char :=
  (s.takeWhile isWordChar, s.dropWhile isWordChar)

/-! ## Anchors -/

/-- The characters besides gaps that may follow the name of an anchor. -/
def endsAnchor (c : Char) : Bool :=
  ['?', ':', ',', ']', '\x7d', '%', '@', '\x60'].contains c

/-- The name of an anchor or alias. -/
def readAnchor (s : List Char) : Option (List Char × List Char) :=
  let (name, s) := readWord s
  if name ≠ [] && (atGap s || s.head?.any endsAnchor) then some (name, s) else none

/-! ## Tags -/

/-- A character of a tag; some are only for tags between angle brackets and stems. -/
def isTagChar (whole : Bool) (c : Char) : Bool :=
  isWordChar c || ";/?:@&=+$.%!~*'()".toList.contains c || (whole && [',', '[', ']'].contains c)

/-- The byte that a percent sign and two digits stand for, given the digits. -/
def escapedByte? : List Char → Option Nat
  | a :: b :: _ => do some (16 * (← Text.hexValue? a) + (← Text.hexValue? b))
  | _ => none

/-- How many further bytes belong to a character whose first byte is given. -/
def furtherBytes? (byte : Nat) : Option Nat :=
  if byte < 0x80 then some 0
  else if byte < 0xC0 then none
  else if byte < 0xE0 then some 1
  else if byte < 0xF0 then some 2
  else if byte < 0xF8 then some 3
  else none

/-- The characters of a tag, given how many escaped bytes are still to come for a character, and how
many characters are still to be passed over. An escaped byte is kept as the character of its
number. -/
def tagChars (whole : Bool) : Nat → Nat → List Char → Option (List Char × List Char)
  | more, _, [] => if more = 0 then some ([], []) else none
  | more, k + 1, _ :: s => tagChars whole more k s
  | more, 0, c :: s =>
    if c = '%' then do
      let byte ← escapedByte? s
      let more ←
        if more = 0 then furtherBytes? byte
        else if 0x80 ≤ byte && byte < 0xC0 then some (more - 1)
        else none
      (tagChars whole more 2 s).map (Prod.map (Char.ofNat byte :: ·) id)
    else if more ≠ 0 then none
    else if isTagChar whole c then (tagChars whole 0 0 s).map (Prod.map (c :: ·) id)
    else some ([], c :: s)

/-- A tag ends at an escaped NUL, whatever follows. -/
def endAtNul (tag : List Char) : List Char :=
  tag.takeWhile (· ≠ '\x00')

/-- The characters of a tag, of which there must be one. -/
def readTagChars (whole : Bool) (s : List Char) : Option (List Char × List Char) :=
  match tagChars whole 0 0 s with
  | some ([], _) => none
  | read => read.map (Prod.map endAtNul id)

/-- A handle with its exclamation marks, or what could be the beginning of one. -/
def readHandle : List Char → Option (List Char × List Char)
  | '!' :: s =>
    match readWord s with
    | (name, '!' :: s) => some ('!' :: name ++ ['!'], s)
    | (name, s) => some ('!' :: name, s)
  | _ => none

/-- Whether a handle is closed by an exclamation mark of its own. -/
def isClosedHandle (handle : List Char) : Bool :=
  1 < handle.length && handle.getLast? = some '!'

/-- The handle and the suffix of a tag. -/
def tagParts (s : List Char) : Option ((List Char × List Char) × List Char) :=
  match s with
  | '!' :: '<' :: s => do
    match ← readTagChars true s with
    | (tag, '>' :: s) => some (([], tag), s)
    | _ => none
  | s => do
    let (handle, s) ← readHandle s
    if isClosedHandle handle then
      let (suffix, s) ← readTagChars false s
      some ((handle, suffix), s)
    else
      let (more, s) ← tagChars false 0 0 s
      match endAtNul (handle.drop 1 ++ more) with
      | [] => some (([], ['!']), s)
      | suffix => some ((['!'], suffix), s)

/-- A tag. A gap follows it or, between brackets, a comma. -/
def readTag (flow : Bool) (s : List Char) : Option (Token × List Char) := do
  let ((handle, suffix), s) ← tagParts s
  if (flow && s.head? = some ',') || atGap s then
    some (.tag (String.ofList handle) (String.ofList suffix), s)
  else none

/-! ## Directives -/

/-- A number of at most nine digits. -/
def readVersionNumber (s : List Char) : Option (Nat × List Char) :=
  match s.takeWhile Char.isDigit with
  | [] => none
  | digits =>
    if digits.length ≤ 9 then
      some (digits.foldl (fun n c => 10 * n + (c.toNat - 48)) 0, s.dropWhile Char.isDigit)
    else none

/-- The version in a directive. -/
def readVersion (s : List Char) : Option (Token × List Char) := do
  match ← readVersionNumber (s.dropWhile isSpace) with
  | (major, '.' :: s) =>
    let (minor, s) ← readVersionNumber s
    some (.versionDirective major minor, s)
  | _ => none

/-- The handle in a directive, and the stem it stands for. -/
def readTagDirective (s : List Char) : Option (Token × List Char) := do
  let (handle, s) ← readHandle (s.dropWhile isSpace)
  if !(handle = ['!'] || isClosedHandle handle) || !s.head?.any isSpace then none
  else
    let (stem, s) ← readTagChars true (s.dropWhile isSpace)
    if atGap s then some (.tagDirective (String.ofList handle) (String.ofList stem), s) else none

/-- A directive, after its percent sign; takes the whole line. -/
def readDirective (s : List Char) : Option (Token × List Char) := do
  let (name, s) := readWord s
  let (token, s) ←
    if !atGap s then none
    else if name = "YAML".toList then readVersion s
    else if name = "TAG".toList then readTagDirective s
    else none
  some (token, ← endLine s)

end TreeShell.Yaml
