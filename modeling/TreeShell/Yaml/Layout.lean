/-!
# Blanks and lines of YAML

* `unifyBreaks`: the spellings of a line break that are read as one.
* `atGap`: where a word ends. `atMarker`: the line that begins or ends a document.
* `gapText`: what stands for the blanks and line breaks between two words of a scalar. Blanks stay,
  one line break becomes a space, and of more the first is dropped.
-/

namespace TreeShell.Yaml

/-- The characters a text may hold. -/
def isAllowed (c : Char) : Bool :=
  let n := c.toNat
  n == 0x09 || n == 0x0A || n == 0x0D || (0x20 ≤ n && n ≤ 0x7E) || n == 0x85 ||
    (0xA0 ≤ n && n ≤ 0xFFFD) || 0x10000 ≤ n

/-- The text with each carriage return, line feed, pair of them, and next line as a line feed. -/
def unifyBreaks : List Char → List Char
  | [] => []
  | '\r' :: '\n' :: s => '\n' :: unifyBreaks s
  | c :: s => (if c = '\r' || c = '\x85' then '\n' else c) :: unifyBreaks s

/-- A space or a tab. -/
def isSpace (c : Char) : Bool :=
  c = ' ' || c = '\t'

/-- A line break: a line feed, or the separators of lines and of paragraphs. -/
def isBreak (c : Char) : Bool :=
  c = '\n' || c = '\u2028' || c = '\u2029'

/-- A character that separates words. -/
def isGapChar (c : Char) : Bool :=
  isSpace c || isBreak c

/-- Whether a text begins with a gap, or is at its end. -/
def atGap : List Char → Bool
  | [] => true
  | c :: _ => isGapChar c

/-- Whether a text begins with three times the character, and then a gap. -/
def atMarker (mark : Char) : List Char → Bool
  | a :: b :: c :: s => a = mark && b = mark && c = mark && atGap s
  | _ => false

/-- Whether a text begins with the mark of the beginning or the end of a document. -/
def atDocumentMarker (s : List Char) : Bool :=
  atMarker '-' s || atMarker '.' s

/-- The gap a text begins with, and what follows it. -/
def splitGap (s : List Char) : List Char × List Char :=
  (s.takeWhile isGapChar, s.dropWhile isGapChar)

/-- The column behind a gap that begins at the given column. -/
def columnAfter (column : Nat) (gap : List Char) : Nat :=
  gap.foldl (fun k c => if isBreak c then 0 else k + 1) column

/-- Whether the next character begins a line. -/
def endsLine (gap : List Char) : Bool :=
  gap.getLast?.any isBreak

/-- What stands for some line breaks. -/
def foldBreaks : List Char → List Char
  | ['\n'] => [' ']
  | '\n' :: more => more
  | breaks => breaks

/-- What stands for a gap. -/
def gapText (gap : List Char) : List Char :=
  match gap.filter isBreak with
  | [] => gap
  | breaks => foldBreaks breaks

/-- Whether a tab stands before column `indent` in a line that begins within the gap. The column is
known once a line has begun. -/
def tabBefore (indent : Nat) : Option Nat → List Char → Bool
  | _, [] => false
  | column?, c :: s =>
    if isBreak c then tabBefore indent (some 0) s
    else
      match column? with
      | none => tabBefore indent none s
      | some column => (c = '\t' && column < indent) || tabBefore indent (some (column + 1)) s

end TreeShell.Yaml
