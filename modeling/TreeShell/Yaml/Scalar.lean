import TreeShell.Text.Hex
import TreeShell.Yaml.Layout

/-!
# Scalars of YAML

The ways in which a text can be written.

* `readPlain`: without quotes, up to what cannot be part of it.
* `readSingle`, `readDouble`: between quotes, without and with escapes.
* `readBlock`: as indented lines, kept or folded.

Each gives the text and what follows; `none` if the scalar is not well formed.
-/

namespace TreeShell.Yaml

/-! ## Plain scalars -/

/-- The characters that separate the items of a list or map between brackets. -/
def isFlowMark (c : Char) : Bool :=
  c = ',' || c = '[' || c = ']' || c = '\x7b' || c = '\x7d'

/-- A word of a plain scalar. It ends at a gap, at a colon before a gap and, between brackets, at a
separator; there a colon before a separator is refused. -/
def plainWord (flow : Bool) : List Char → Option (List Char × List Char)
  | [] => some ([], [])
  | c :: s =>
    if isGapChar c then some ([], c :: s)
    else if flow && c = ':' && s.head?.any (fun d => isFlowMark d || d = '?') then none
    else if (c = ':' && atGap s) || (flow && isFlowMark c) then some ([], c :: s)
    else (plainWord flow s).map (Prod.map (c :: ·) id)

/-- A plain scalar as it is read. -/
structure Plain where
  text : List Char
  /-- Whether a line ended since the last word. -/
  broken : Bool
  rest : List Char

/-- The words of a plain scalar from a given column on. Outside brackets the scalar ends with a line
that is not indented as far as `indent`. -/
def plainFrom (flow : Bool) (indent : Nat) : Nat → Nat → List Char → Option Plain
  | 0, _, _ => none
  | fuel + 1, column, s =>
    if (column = 0 && atDocumentMarker s) || s.head? = some '#' then some ⟨[], false, s⟩
    else do
      let (word, s) ← plainWord flow s
      match splitGap s with
      | ([], s) => some ⟨word, false, s⟩
      | (gap, s) =>
        if tabBefore indent none gap then none
        else
          let broken := gap.any isBreak
          let column := columnAfter (column + word.length) gap
          if !flow && column < indent then some ⟨word, broken, s⟩
          else
            let more ← plainFrom flow indent fuel column s
            if more.text = [] then some { more with text := word, broken := broken || more.broken }
            else some { more with text := word ++ gapText gap ++ more.text }

/-- A plain scalar that begins at a given column. -/
def readPlain (flow : Bool) (indent column : Nat) (s : List Char) : Option Plain :=
  plainFrom flow indent (s.length + 1) column s

/-! ## Quoted scalars -/

/-- A word between single quotes, in which a quote is written twice. -/
def singleWord : List Char → List Char × List Char
  | [] => ([], [])
  | '\'' :: '\'' :: s => (singleWord s).map ('\'' :: ·) id
  | c :: s =>
    if c = '\'' || isGapChar c then ([], c :: s) else (singleWord s).map (c :: ·) id

/-- The words of a text between single quotes, up to the closing quote. No line of it may be the
mark of a document. -/
def singleFrom : Nat → Bool → List Char → Option (List Char × List Char)
  | 0, _, _ => none
  | fuel + 1, lineStart, s =>
    if lineStart && atDocumentMarker s then none
    else
      match singleWord s with
      | (_, []) => none
      | (word, '\'' :: s) => some (word, s)
      | (word, s) => do
        let (gap, s) := splitGap s
        let (more, rest) ← singleFrom fuel (endsLine gap) s
        some (word ++ gapText gap ++ more, rest)

/-- The text between single quotes, after the opening one. -/
def readSingle (s : List Char) : Option (List Char × List Char) :=
  singleFrom (s.length + 1) false s

/-- What a backslash and a letter stand for. -/
def escapeOf? : Char → Option Char
  | '0' => some '\x00'
  | 'a' => some '\x07'
  | 'b' => some '\x08'
  | 't' => some '\t'
  | '\t' => some '\t'
  | 'n' => some '\n'
  | 'v' => some '\x0b'
  | 'f' => some '\x0c'
  | 'r' => some '\r'
  | 'e' => some '\x1b'
  | ' ' => some ' '
  | '"' => some '"'
  | '/' => some '/'
  | '\\' => some '\\'
  | 'N' => some '\x85'
  | '_' => some '\xa0'
  | 'L' => some '\u2028'
  | 'P' => some '\u2029'
  | _ => none

/-- How many hexadecimal digits follow a backslash and a letter. -/
def codeLength? : Char → Option Nat
  | 'x' => some 2
  | 'u' => some 4
  | 'U' => some 8
  | _ => none

/-- The number that a text of hexadecimal digits stands for. -/
def hexNumber? (digits : List Char) : Option Nat :=
  digits.foldlM (fun n c => (Text.hexValue? c).map (16 * n + ·)) 0

/-- The character with the code point written by the first `length` characters. -/
def codePoint? (length : Nat) (s : List Char) : Option Char := do
  let n ← hexNumber? (s.take length)
  if length ≤ s.length && n.isValidChar then some (Char.ofNat n) else none

/-- A word between double quotes, after so many characters have been passed over. It ends before a
gap, a quote, or a backslash at the end of a line. -/
def doubleWord : Nat → List Char → Option (List Char × List Char)
  | _, [] => some ([], [])
  | k + 1, _ :: s => doubleWord k s
  | 0, c :: s =>
    if c = '"' || isGapChar c then some ([], c :: s)
    else if c ≠ '\\' then (doubleWord 0 s).map (Prod.map (c :: ·) id)
    else
      match s with
      | [] => none
      | e :: digits =>
        if isBreak e then some ([], c :: s)
        else do
          let (x, taken) ←
            match codeLength? e with
            | some n => (codePoint? n digits).map (·, n + 1)
            | none => (escapeOf? e).map (·, 1)
          let (word, rest) ← doubleWord taken s
          some (x :: word, rest)

/-- The words of a text between double quotes, up to the closing quote. A backslash at the end of a
line joins it to the next one. -/
def doubleFrom : Nat → Bool → List Char → Option (List Char × List Char)
  | 0, _, _ => none
  | fuel + 1, lineStart, s =>
    if lineStart && atDocumentMarker s then none
    else do
      match ← doubleWord 0 s with
      | (_, []) => none
      | (word, '"' :: s) => some (word, s)
      | (word, '\\' :: s) =>
        let (gap, s) := splitGap s
        let (more, rest) ← doubleFrom fuel (endsLine gap) s
        some (word ++ (gap.drop 1).filter isBreak ++ more, rest)
      | (word, s) =>
        let (gap, s) := splitGap s
        let (more, rest) ← doubleFrom fuel (endsLine gap) s
        some (word ++ gapText gap ++ more, rest)

/-- The text between double quotes, after the opening one. -/
def readDouble (s : List Char) : Option (List Char × List Char) :=
  doubleFrom (s.length + 1) false s

/-! ## Block scalars -/

/-- What becomes of the line breaks at the end of a block. -/
inductive Chomp
  /-- The first is kept. -/
  | clip
  /-- None is kept. -/
  | strip
  /-- All are kept. -/
  | keep
deriving DecidableEq, Repr

/-- The sign that says what becomes of the last line breaks. -/
def chomp? : List Char → Option (Chomp × List Char)
  | '+' :: s => some (.keep, s)
  | '-' :: s => some (.strip, s)
  | _ => none

/-- A number of columns, given by one digit; none if there is no digit, and zero is refused. -/
def indentDigit : List Char → Option (Option Nat × List Char)
  | [] => some (none, [])
  | c :: s =>
    if c = '0' then none
    else if c.isDigit then some (some (c.toNat - 48), s)
    else some (none, c :: s)

/-- The signs at the head of a block, in either order. -/
def blockSigns (s : List Char) : Option ((Chomp × Option Nat) × List Char) :=
  match chomp? s with
  | some (chomp, s) => do
    let (indent, s) ← indentDigit s
    some ((chomp, indent), s)
  | none => do
    let (indent, s) ← indentDigit s
    if indent.isNone then some ((.clip, none), s)
    else
      match chomp? s with
      | some (chomp, s) => some ((chomp, indent), s)
      | none => some ((.clip, indent), s)

/-- What follows the rest of a line that may hold nothing but blanks and a comment. -/
def endLine (s : List Char) : Option (List Char) :=
  let s := s.dropWhile isSpace
  let s := if s.head? = some '#' then s.dropWhile (fun c => !isBreak c) else s
  match s with
  | [] => some []
  | c :: s => if isBreak c then some s else none

/-- The line breaks before the next line of a block, the column at which that line begins, and the
line. A line is passed up to column `indent`; no tab may stand before it. -/
def blockBreaks (indent : Nat) : Nat → List Char → Option (List Char × Nat × List Char)
  | column, [] => some ([], column, [])
  | column, c :: s =>
    if column < indent && c = ' ' then blockBreaks indent (column + 1) s
    else if column < indent && c = '\t' then none
    else if isBreak c then (blockBreaks indent 0 s).map (Prod.map (c :: ·) id)
    else some ([], column, c :: s)

/-- The line breaks before the first line of a block whose indentation is not given, the widest
column that was reached, the column at which that line begins, and the line. -/
def firstBreaks : Nat → Nat → List Char → Option (List Char × Nat × Nat × List Char)
  | widest, column, [] => some ([], max widest column, column, [])
  | widest, column, c :: s =>
    if c = ' ' then firstBreaks widest (column + 1) s
    else if c = '\t' then none
    else if isBreak c then (firstBreaks (max widest column) 0 s).map (Prod.map (c :: ·) id)
    else some ([], max widest column, column, c :: s)

/-- A block as it is read. -/
structure Block where
  text : List Char
  /-- The line break behind the last line. -/
  ending : List Char
  /-- The line breaks behind that. -/
  trailing : List Char
  rest : List Char

/-- The lines of a block, given whether the line before began with a blank, and the line breaks that
stand before the next. Folding joins two lines unless one of them begins with a blank. -/
def blockLines (literal : Bool) (indent : Nat) :
    Nat → Bool → List Char → List Char → Nat → List Char → Option Block
  | 0, _, _, _, _, _ => none
  | fuel + 1, wasBlank, ending, trailing, column, s =>
    if column = indent && s ≠ [] then do
      let blank := s.head?.any isSpace
      let joint :=
        if !literal && ending = ['\n'] && !wasBlank && !blank then
          if trailing = [] then [' '] else []
        else ending
      let line := s.takeWhile (fun c => !isBreak c)
      let s := s.dropWhile (fun c => !isBreak c)
      let (breaks, column, s') ← blockBreaks indent 0 (s.drop 1)
      let more ← blockLines literal indent fuel blank (s.take 1) breaks column s'
      some { more with text := joint ++ trailing ++ line ++ more.text }
    else some ⟨[], ending, trailing, s⟩

/-- A block after its opening sign, within a collection whose items are indented to the given
column. -/
def readBlock (literal : Bool) (parent : Option Nat) (s : List Char) :
    Option (List Char × List Char) := do
  let ((chomp, given), s) ← blockSigns s
  let s ← endLine s
  let least := (parent.map (· + 1)).getD 0
  let (breaks, indent, column, s) ←
    match given with
    | some n =>
      let indent := parent.getD 0 + n
      (blockBreaks indent 0 s).map fun (breaks, column, s) => (breaks, indent, column, s)
    | none =>
      (firstBreaks 0 0 s).map fun (breaks, widest, column, s) =>
        (breaks, max (max widest least) 1, column, s)
  let b ← blockLines literal indent (s.length + 1) false [] breaks column s
  match chomp with
  | .strip => some (b.text, b.rest)
  | .clip => some (b.text ++ b.ending, b.rest)
  | .keep => some (b.text ++ b.ending ++ b.trailing, b.rest)

end TreeShell.Yaml
