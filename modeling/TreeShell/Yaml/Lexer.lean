import TreeShell.Yaml.Token

/-!
# From text to tokens

The tokens of a text. Two things need more than the characters at hand.

* Indentation: a token that begins further right than the innermost block opens one, and a line that
  begins further left closes blocks (`openBlock`, `closeBlocks`).
* Keys: whether something is a key shows only at the colon behind it. So the place where a key may
  begin is remembered (`saveKey`), and the key token is put there later.

`tokens?` is `none` if the text has no tokens, or has a key where none can stand.
-/

namespace TreeShell.Yaml

/-- A place where a key may have begun. -/
structure KeyPlace where
  /-- The number of tokens before it. -/
  index : Nat
  /-- Whether it can be nothing but a key. -/
  required : Bool
  line : Nat
  column : Nat
  /-- The number of bytes before it. -/
  bytes : Nat
deriving DecidableEq, Repr

/-- A text that has been read in part. -/
structure Lexer where
  rest : List Char
  line : Nat
  column : Nat
  /-- The number of bytes that have been read. -/
  bytes : Nat
  /-- The tokens so far, the last one first. -/
  reversed : List Token
  /-- The columns of the open blocks, the innermost first. -/
  blocks : List Nat
  /-- Whether a key may begin here. -/
  keyAllowed : Bool
  /-- Where a key may have begun, within the innermost brackets. -/
  key : Option KeyPlace
  /-- The same for the brackets around them. -/
  outerKeys : List (Option KeyPlace)

namespace Lexer

/-- The beginning of a text. -/
def ofText (s : List Char) : Lexer where
  rest := s
  line := 0
  column := 0
  bytes := 0
  reversed := []
  blocks := []
  keyAllowed := true
  key := none
  outerKeys := []

/-- Whether this is between brackets. -/
def inFlow (l : Lexer) : Bool :=
  l.outerKeys ≠ []

/-! ## Moving on -/

/-- The lexer behind some characters. -/
def pass (l : Lexer) : List Char → Lexer
  | [] => l
  | c :: s =>
    let l := { l with rest := l.rest.drop 1, bytes := l.bytes + c.utf8Size }
    if isBreak c then pass { l with line := l.line + 1, column := 0 } s
    else pass { l with column := l.column + 1 } s

/-- The lexer where only `rest` is left. -/
def passTo (l : Lexer) (rest : List Char) : Lexer :=
  l.pass (l.rest.take (l.rest.length - rest.length))

/-- The lexer at the next token, given whether it stands in a comment. A tab is no blank where it
would indent a key, and a line may begin with a byte order mark. -/
def passBlanks : Bool → List Char → Lexer → Lexer
  | _, [], l => l
  | comment, c :: s, l =>
    if isBreak c then
      passBlanks false s (({ l with keyAllowed := l.keyAllowed || !l.inFlow }).pass [c])
    else if comment || c = ' ' || (c = '\t' && (l.inFlow || !l.keyAllowed)) ||
        (c = '\ufeff' && l.column = 0) then
      passBlanks comment s (l.pass [c])
    else if c = '#' then passBlanks true s (l.pass [c])
    else l

/-- Adds a token. -/
def emit (l : Lexer) (t : Token) : Lexer :=
  { l with reversed := t :: l.reversed }

/-- Puts a token where there were `index` tokens. -/
def emitAt (l : Lexer) (index : Nat) (t : Token) : Lexer :=
  { l with reversed := l.reversed.insertIdx (l.reversed.length - index) t }

/-! ## Blocks -/

/-- Opens a block at a column, unless the innermost one begins there or further right. -/
def openBlock (l : Lexer) (column index : Nat) (t : Token) : Lexer :=
  if l.inFlow || l.blocks.head?.any (column ≤ ·) then l
  else { l.emitAt index t with blocks := column :: l.blocks }

/-- Opens a block at this place. -/
def openBlockHere (l : Lexer) (t : Token) : Lexer :=
  l.openBlock l.column l.reversed.length t

/-- Closes some of the blocks. -/
def close (l : Lexer) (closed : List Nat) : Lexer :=
  { l with
    reversed := List.replicate closed.length .blockEnd ++ l.reversed
    blocks := l.blocks.drop closed.length }

/-- Closes the blocks that begin to the right of the column. -/
def closeBlocks (l : Lexer) (column : Nat) : Lexer :=
  if l.inFlow then l else l.close (l.blocks.takeWhile (column < ·))

/-- Closes all blocks. -/
def closeAll (l : Lexer) : Lexer :=
  if l.inFlow then l else l.close l.blocks

/-! ## Keys -/

/-- Gives up the place of a key. -/
def dropKey (l : Lexer) : Option Lexer :=
  if l.key.any (·.required) then none else some { l with key := none }

/-- Remembers this place if a key may begin here. In a block, what begins at its column can be
nothing but a key. -/
def saveKey (l : Lexer) : Option Lexer :=
  if l.keyAllowed then do
    let place : KeyPlace := {
      index := l.reversed.length
      required := !l.inFlow && l.blocks.head? = some l.column
      line := l.line
      column := l.column
      bytes := l.bytes }
    some { ← l.dropKey with key := some place }
  else some l

/-- How long a key may be, in bytes. -/
def maxKeyLength : Nat := 1024

/-- Whether a key that began there would be too long, or more than a line. -/
def isStale (l : Lexer) (place : KeyPlace) : Bool :=
  place.line < l.line || place.bytes + maxKeyLength < l.bytes

/-- The place unless it is stale; a required one must not be. -/
def refreshKey (l : Lexer) : Option KeyPlace → Option (Option KeyPlace)
  | none => some none
  | some place =>
    if !l.isStale place then some (some place)
    else if place.required then none
    else some none

/-- Gives up the stale places. -/
def dropStale (l : Lexer) : Option Lexer := do
  some { l with
    key := ← l.refreshKey l.key
    outerKeys := ← l.outerKeys.mapM l.refreshKey }

/-! ## One token -/

/-- A token of so many characters, behind which a key may begin or not. -/
def sign (l : Lexer) (t : Token) (length : Nat) (keyAllowed : Bool) : Lexer :=
  { (l.emit t).pass (l.rest.take length) with keyAllowed }

/-- A token with a form of its own, that may be a key or stand before one. -/
def word (l : Lexer) (read : Option (Token × List Char)) : Option Lexer := do
  let l ← l.saveKey
  let (t, rest) ← read
  some { (l.emit t).passTo rest with keyAllowed := false }

/-- A directive. -/
def directive (l : Lexer) : Option Lexer := do
  let l ← l.closeAll.dropKey
  let (t, rest) ← readDirective (l.rest.drop 1)
  some { (l.emit t).passTo rest with keyAllowed := false }

/-- The mark of the beginning or the end of a document. -/
def marker (l : Lexer) (t : Token) : Option Lexer := do
  some ((← l.closeAll.dropKey).sign t 3 false)

/-- An opening bracket. -/
def openFlow (l : Lexer) (t : Token) : Option Lexer := do
  let l ← l.saveKey
  some ({ l with key := none, outerKeys := l.key :: l.outerKeys }.sign t 1 true)

/-- A closing bracket. -/
def closeFlow (l : Lexer) (t : Token) : Option Lexer := do
  let l ← l.dropKey
  let l :=
    match l.outerKeys with
    | [] => l
    | key :: outerKeys => { l with key, outerKeys }
  some (l.sign t 1 false)

/-- The hyphen before an item. -/
def blockEntry (l : Lexer) : Option Lexer := do
  if !l.inFlow && !l.keyAllowed then none
  else some ((← (l.openBlockHere .blockSequence).dropKey).sign .blockEntry 1 true)

/-- The question mark before a key. -/
def explicitKey (l : Lexer) : Option Lexer := do
  if !l.inFlow && !l.keyAllowed then none
  else some ((← (l.openBlockHere .blockMapping).dropKey).sign .key 1 !l.inFlow)

/-- The colon before a value. The key is the one that may have begun before it, if there is one. -/
def value (l : Lexer) : Option Lexer :=
  match l.key with
  | some place =>
    let l := (l.emitAt place.index .key).openBlock place.column place.index .blockMapping
    some ({ l with key := none }.sign .value 1 false)
  | none =>
    if !l.inFlow && !l.keyAllowed then none
    else some ((l.openBlockHere .blockMapping).sign .value 1 !l.inFlow)

/-- A scalar between quotes. -/
def quoted (read : Option (List Char × List Char)) : Option (Token × List Char) :=
  read.map fun (text, rest) => (.scalar .quoted (String.ofList text), rest)

/-- A block of lines. -/
def block (l : Lexer) (literal : Bool) : Option Lexer := do
  let l ← l.dropKey
  let (text, rest) ← readBlock literal l.blocks.head? (l.rest.drop 1)
  let t : Token := .scalar (if literal then .literal else .folded) (String.ofList text)
  some { (l.emit t).passTo rest with keyAllowed := true }

/-- A plain scalar. If it ends with its line, a key may begin behind it. -/
def plain (l : Lexer) : Option Lexer := do
  let l ← l.saveKey
  let p ← readPlain l.inFlow ((l.blocks.head?.map (· + 1)).getD 0) l.column l.rest
  let l := (l.emit (.scalar .plain (String.ofList p.text))).passTo p.rest
  some { l with keyAllowed := p.broken }

/-- The signs with which no plain scalar begins, unless one of the first three has a word behind
it. -/
def indicators : List Char :=
  "-?:,[]\x7b\x7d#&*!|>'\"%@\x60".toList

/-- Whether a plain scalar begins with the character, given what follows. -/
def beginsPlain (flow : Bool) (c : Char) (s : List Char) : Bool :=
  !(isGapChar c || indicators.contains c) || (c = '-' && !s.head?.any isSpace) ||
    (!flow && (c = '?' || c = ':') && !atGap s)

/-- The next token. -/
def next (l : Lexer) : Option Lexer :=
  match l.rest with
  | [] => none
  | c :: s =>
    if l.column = 0 && c = '%' then l.directive
    else if l.column = 0 && atMarker '-' (c :: s) then l.marker .documentStart
    else if l.column = 0 && atMarker '.' (c :: s) then l.marker .documentEnd
    else if c = '[' then l.openFlow .flowSequence
    else if c = '\x7b' then l.openFlow .flowMapping
    else if c = ']' then l.closeFlow .flowSequenceEnd
    else if c = '\x7d' then l.closeFlow .flowMappingEnd
    else if c = ',' then l.dropKey.map (·.sign .flowEntry 1 true)
    else if c = '-' && atGap s then l.blockEntry
    else if c = '?' && (l.inFlow || atGap s) then l.explicitKey
    else if c = ':' && (l.inFlow || atGap s) then l.value
    else if c = '*' then
      l.word ((readAnchor s).map (Prod.map (fun name => .alias (String.ofList name)) id))
    else if c = '&' then
      l.word ((readAnchor s).map (Prod.map (fun name => .anchor (String.ofList name)) id))
    else if c = '!' then l.word (readTag l.inFlow (c :: s))
    else if c = '|' && !l.inFlow then l.block true
    else if c = '>' && !l.inFlow then l.block false
    else if c = '\'' then l.word (quoted (readSingle s))
    else if c = '"' then l.word (quoted (readDouble s))
    else if beginsPlain l.inFlow c s then l.plain
    else none

/-- The lexer at the end of the text. Every token takes a character at least, so `fuel` need only be
the length of the text. -/
def run : Nat → Lexer → Option Lexer
  | 0, _ => none
  | fuel + 1, l => do
    let l ← (passBlanks false l.rest l).dropStale
    let l := l.closeBlocks l.column
    if l.rest = [] then l.closeAll.dropKey else run fuel (← l.next)

end Lexer

/-- The tokens of a text. -/
def tokens? (text : String) : Option (List Token) :=
  let s := unifyBreaks text.toList
  if s.all isAllowed then
    ((Lexer.ofText s).run (s.length + 1)).map (·.reversed.reverse)
  else none

end TreeShell.Yaml
