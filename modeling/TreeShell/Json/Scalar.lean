import TreeShell.Decimal.Shortest
import TreeShell.Json.Fault
import TreeShell.Json.Value

/-!
# Blanks, words, numbers and texts

The parts of a JSON text without parts of their own. Each reader takes the text from where it
stands and gives a value with the text left.

* `readText` undoes escapes; characters beyond the first plane may come as two escaped halves.
* `readNumber` gives an integer of 64 bits, or a fraction rounded step by step.
* `found?` reads whatever scalar stands here, to say what was found.
-/

namespace TreeShell.Json

/-- Takes a value off the front of a text. -/
abbrev Reader (α : Type) : Type :=
  List Char → Except Fault (α × List Char)

/-- The characters that may stand between the parts of a JSON text. -/
def isSpace (c : Char) : Bool :=
  c = ' ' || c = '\n' || c = '\t' || c = '\r'

/-- The text after its leading blanks. -/
def skipSpace (s : List Char) : List Char :=
  s.dropWhile isSpace

/-- The rest of a word of which the first letter has been seen. -/
def readWord : List Char → List Char → Except Fault (List Char)
  | [], s => .ok s
  | _ :: _, [] => failAt .endInValue []
  | w :: ws, c :: s => if c = w then readWord ws s else failNext .expectedWord (c :: s)

/-! ## Numbers -/

/-- The greatest unsigned integer of 64 bits. -/
def maxUnsigned : Nat := 0xFFFFFFFFFFFFFFFF

/-- The greatest exponent that is still counted. -/
def maxExponent : Nat := 0x7FFFFFFF

/-- Adds digits to a number as long as it stays within the limit; gives the number, how many
digits were added, and the text left. -/
def addDigits (limit : Nat) : Nat → Nat → List Char → Nat × Nat × List Char
  | value, count, [] => (value, count, [])
  | value, count, c :: s =>
    if c.isDigit && value * 10 + (c.toNat - 48) ≤ limit then
      addDigits limit (value * 10 + (c.toNat - 48)) (count + 1) s
    else (value, count, c :: s)

/-- The leading digits dropped. -/
def dropDigits (s : List Char) : List Char :=
  s.dropWhile Char.isDigit

/-- Whether a digit comes next. -/
def startsWithDigit : List Char → Bool
  | [] => false
  | c :: _ => c.isDigit

/-- A fraction is written with a point between `10^-5` and `10^16`. -/
def numberLayout : Decimal.Layout :=
  { least := -5, greatest := 15 }

/-- A float as a number. -/
def Number.ofFloat (negative : Bool) (x : Float) : Number :=
  .fraction (Decimal.floatText numberLayout (if negative then -x else x))

/-- `x / 10^n`, by steps of at most 308. -/
def scaleDown (x : Float) : Nat → Nat → Float
  | 0, _ => x
  | fuel + 1, n =>
    if n ≤ 308 then x / Float.ofScientific 1 false n
    else if x == 0.0 then x
    else scaleDown (x / Float.ofScientific 1 false 308) fuel (n - 308)

/-- `m · 10^e` as a float; `none` if it is too great. -/
def scaled (m : Nat) (e : Int) : Option Float :=
  let x := m.toUInt64.toFloat
  match e with
  | .ofNat n =>
    if n ≤ 308 then
      let y := x * Float.ofScientific 1 false n
      if y.isInf then none else some y
    else if x == 0.0 then some x else none
  | .negSucc n => some (scaleDown x 4 (n + 1))

/-- The number `m · 10^e`, or a fault where the text left begins. -/
def closeFraction (negative : Bool) (m : Nat) (e : Int) (s : List Char) :
    Except Fault (Number × List Char) :=
  match scaled m e with
  | none => failAt .numberRange s
  | some x => .ok (.ofFloat negative x, s)

/-- The digits of an exponent; the first of them is required. -/
def readExponentDigits (negative : Bool) (m : Nat) (e : Int) (down : Bool) (s : List Char) :
    Except Fault (Number × List Char) :=
  match s with
  | [] => failAt .endInValue []
  | c :: _ =>
    if c.isDigit then
      let (x, _, rest) := addDigits maxExponent 0 0 s
      if startsWithDigit rest then
        if m ≠ 0 && !down then failAt .numberRange (rest.drop 1)
        else .ok (.ofFloat negative 0.0, dropDigits rest)
      else closeFraction negative m (if down then e - x else e + x) rest
    else failNext .invalidNumber s

/-- What follows the `e` of a number. -/
def readExponent (negative : Bool) (m : Nat) (e : Int) (s : List Char) :
    Except Fault (Number × List Char) :=
  match s with
  | '+' :: rest => readExponentDigits negative m e false rest
  | '-' :: rest => readExponentDigits negative m e true rest
  | _ => readExponentDigits negative m e false s

/-- The end of a number whose digits are all read: an exponent or nothing. -/
def readScale (negative : Bool) (m : Nat) (e : Int) (s : List Char) :
    Except Fault (Number × List Char) :=
  match s with
  | 'e' :: rest => readExponent negative m e rest
  | 'E' :: rest => readExponent negative m e rest
  | _ => closeFraction negative m e s

/-- What follows the point of a number. Digits that no longer fit are dropped. -/
def readDecimals (negative : Bool) (m : Nat) (e : Int) (s : List Char) :
    Except Fault (Number × List Char) :=
  let (m', count, rest) := addDigits maxUnsigned m 0 s
  if startsWithDigit rest then readScale negative m' (e - count) (dropDigits rest)
  else if count = 0 then
    match rest with
    | [] => failAt .endInValue []
    | _ => failNext .invalidNumber rest
  else readScale negative m' (e - count) rest

/-- The integer `m` or `-m`; below the least signed integer, and for `-0`, a fraction. -/
def closeInteger (negative : Bool) (m : Nat) : Number :=
  if !negative then .integer m
  else if m = 0 || 0x8000000000000000 < m then .ofFloat true m.toUInt64.toFloat
  else .integer (-(m : Int))

/-- What follows the whole part `m` of a number that fits into 64 bits. -/
def readAfterWhole (negative : Bool) (m : Nat) (s : List Char) :
    Except Fault (Number × List Char) :=
  match s with
  | '.' :: rest => readDecimals negative m 0 rest
  | 'e' :: rest => readExponent negative m 0 rest
  | 'E' :: rest => readExponent negative m 0 rest
  | _ => .ok (closeInteger negative m, s)

/-- What follows a whole part too long for 64 bits: `count` digits are not part of `m`. -/
def readAfterLong (negative : Bool) (m count : Nat) (s : List Char) :
    Except Fault (Number × List Char) :=
  match s with
  | '.' :: rest => readDecimals negative m count rest
  | _ => readScale negative m count s

/-- A number after its sign. A leading zero stands alone. -/
def readNumber (negative : Bool) (s : List Char) : Except Fault (Number × List Char) :=
  match s with
  | [] => failAt .endInValue []
  | '0' :: rest =>
    if startsWithDigit rest then failNext .invalidNumber rest
    else readAfterWhole negative 0 rest
  | c :: _ =>
    if c.isDigit then
      let (m, _, rest) := addDigits maxUnsigned 0 0 s
      if startsWithDigit rest then
        readAfterLong negative m (rest.takeWhile Char.isDigit).length (dropDigits rest)
      else readAfterWhole negative m rest
    else failNext .invalidNumber s

/-! ## Texts -/

/-- The text after `n` bytes, and how many bytes of its first character were passed; `none` if it
has not so many. -/
def skipBytes : Nat → List Char → Option (List Char × Nat)
  | 0, s => some (s, 0)
  | _ + 1, [] => none
  | n + 1, c :: s =>
    if n + 1 < c.utf8Size then some (c :: s, n + 1) else skipBytes (n + 1 - c.utf8Size) s

/-- Four hexadecimal digits. Four bytes are taken even where they are no digits. -/
def readHex (s : List Char) : Except Fault (Nat × List Char) :=
  match s with
  | a :: b :: c :: d :: rest =>
    match Text.hexValue? a, Text.hexValue? b, Text.hexValue? c, Text.hexValue? d with
    | some a, some b, some c, some d => .ok (((a * 16 + b) * 16 + c) * 16 + d, rest)
    | _, _, _, _ => wrong s
  | _ => wrong s
where
  /-- The fault of four bytes that are no digits, or of a text that ends before. -/
  wrong (s : List Char) : Except Fault (Nat × List Char) :=
    match skipBytes 4 s with
    | none => failAt .endInText []
    | some (rest, bytes) => .error { cause := .invalidEscape, spot := { rest, bytes } }

/-- The code point of two surrogate halves. -/
def joinSurrogates (high low : Nat) : Nat :=
  (high - 0xD800) * 0x400 + (low - 0xDC00) + 0x10000

/-- The second half of a character after its first half. -/
def readLowSurrogate (high : Nat) (s : List Char) : Except Fault (Char × List Char) :=
  match s with
  | [] => failAt .endInText []
  | '\\' :: [] => failAt .endInText []
  | '\\' :: 'u' :: rest => do
    let (low, rest) ← readHex rest
    if 0xDC00 ≤ low && low ≤ 0xDFFF then .ok (Char.ofNat (joinSurrogates high low), rest)
    else failAt .loneSurrogate rest
  | '\\' :: rest => failNext .endOfSurrogate rest
  | rest => failNext .endOfSurrogate rest

/-- The character of an escape, after its backslash. -/
def readEscape (s : List Char) : Except Fault (Char × List Char) :=
  match s with
  | [] => failAt .endInText []
  | '"' :: rest => .ok ('"', rest)
  | '\\' :: rest => .ok ('\\', rest)
  | '/' :: rest => .ok ('/', rest)
  | 'b' :: rest => .ok ('\x08', rest)
  | 'f' :: rest => .ok ('\x0c', rest)
  | 'n' :: rest => .ok ('\n', rest)
  | 'r' :: rest => .ok ('\r', rest)
  | 't' :: rest => .ok ('\t', rest)
  | 'u' :: rest => do
    let (n, rest) ← readHex rest
    if 0xDC00 ≤ n && n ≤ 0xDFFF then failAt .loneSurrogate rest
    else if 0xD800 ≤ n && n ≤ 0xDBFF then readLowSurrogate n rest
    else .ok (Char.ofNat n, rest)
  | _ => failNext .invalidEscape s

/-- The characters of a text up to its closing quote. Each step takes one character of the text or
one escape, so `fuel` need only be the length of what is left. -/
def readChars : Nat → List Char → Except Fault (List Char × List Char)
  | 0, s => failAt .endInText s
  | fuel + 1, s =>
    match s with
    | [] => failAt .endInText []
    | '"' :: rest => .ok ([], rest)
    | '\\' :: rest => do
      let (c, rest) ← readEscape rest
      let (cs, rest) ← readChars fuel rest
      .ok (c :: cs, rest)
    | c :: rest =>
      if c.toNat < 0x20 then failNext .controlCharacter (c :: rest)
      else do
        let (cs, rest) ← readChars fuel rest
        .ok (c :: cs, rest)

/-- A text after its opening quote. -/
def readText (s : List Char) : Except Fault (String × List Char) := do
  let (cs, rest) ← readChars (s.length + 1) s
  .ok (String.ofList cs, rest)

/-! ## What stands here -/

/-- A number as something found. -/
def Number.found : Number → Found
  | .integer n => .integer n
  | .fraction ds => .fraction ds

/-- The scalar that stands here, or the kind of container; the text left is behind a scalar and
before a container. -/
def readFound (s : List Char) : Except Fault (Found × List Char) :=
  match s with
  | 'n' :: rest => do .ok (.null, ← readWord ['u', 'l', 'l'] rest)
  | 't' :: rest => do .ok (.bool true, ← readWord ['r', 'u', 'e'] rest)
  | 'f' :: rest => do .ok (.bool false, ← readWord ['a', 'l', 's', 'e'] rest)
  | '-' :: rest => do
    let (n, rest) ← readNumber true rest
    .ok (n.found, rest)
  | '"' :: rest => do
    let (t, rest) ← readText rest
    .ok (.text t, rest)
  | '[' :: _ => .ok (.list, s)
  | '\x7b' :: _ => .ok (.record, s)
  | c :: _ =>
    if c.isDigit then do
      let (n, rest) ← readNumber false s
      .ok (n.found, rest)
    else failNext .expectedValue s
  | [] => failNext .expectedValue []

/-- Refuses what stands here, because `expected` belongs here. -/
def refuse {α : Type} (expected : String) (s : List Char) : Except Fault α :=
  match readFound s with
  | .error f => .error f
  | .ok (found, rest) => failAt (.wrongType found expected) rest

end TreeShell.Json
