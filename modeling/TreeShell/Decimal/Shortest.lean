/-!
# The shortest decimal that reads back

A finite binary64 number is `m · 2^q`. The reals that round to it form an interval, with its ends
iff `m` is even. The shortest decimal is the one with the fewest digits in that interval, and of
those the nearest.

* `shortest?`: tries one digit, two digits, and so on; of each grid only the two points around the
  number can be hits.
* `Layout.write`: the digits with a point, or with an exponent, as the layout says.

All arithmetic is exact, on natural numbers.
-/

namespace TreeShell.Decimal

/-- A positive number `m · 2^q`; `narrow` if the next smaller one is only half as far away. -/
structure Binary where
  m : Nat
  q : Int
  narrow : Bool
deriving DecidableEq, Repr

/-- The number with the given bits, sign apart; `none` for zero. -/
def Binary.ofBits? (bits : UInt64) : Option Binary :=
  let fraction := (bits &&& 0xFFFFFFFFFFFFF).toNat
  let exponent := ((bits >>> 52) &&& 0x7FF).toNat
  if exponent = 0 then
    if fraction = 0 then none else some { m := fraction, q := -1074, narrow := false }
  else
    some { m := 0x10000000000000 + fraction, q := (exponent : Int) - 1075,
           narrow := fraction = 0 && 1 < exponent }

/-- `base^e` for a natural exponent, and `1` for a negative one. -/
def scale (base : Nat) (e : Int) : Nat :=
  Nat.pow base e.toNat

/-- `a · 10^k ≤ b · 2^p`, exactly. -/
def leBinary (a : Nat) (k : Int) (b : Nat) (p : Int) : Bool :=
  a * scale 10 k * scale 2 (-p) ≤ b * scale 2 p * scale 10 (-k)

/-- `b · 2^p ≤ a · 10^k`, exactly. -/
def geBinary (a : Nat) (k : Int) (b : Nat) (p : Int) : Bool :=
  b * scale 2 p * scale 10 (-k) ≤ a * scale 10 k * scale 2 (-p)

namespace Binary

/-- Whether the decimal `a · 10^k` rounds to the number. -/
def covers (x : Binary) (a : Nat) (k : Int) : Bool :=
  let lo := 4 * x.m - (if x.narrow then 1 else 2)
  let hi := 4 * x.m + 2
  geBinary a k lo (x.q - 2) && leBinary a k hi (x.q - 2) &&
    (x.m % 2 = 0 || !(leBinary a k lo (x.q - 2) || geBinary a k hi (x.q - 2)))

/-- The grid point `a` with `a · 10^k ≤ x < (a + 1) · 10^k`. -/
def below (x : Binary) (k : Int) : Nat :=
  x.m * scale 2 x.q * scale 10 (-k) / (scale 2 (-x.q) * scale 10 k)

/-- Whether `a · 10^k` is at least as near as `(a + 1) · 10^k`; an exact tie goes to even. -/
def nearBelow (x : Binary) (a : Nat) (k : Int) : Bool :=
  let twice := 2 * a + 1
  let le := leBinary twice k (2 * x.m) x.q
  let ge := geBinary twice k (2 * x.m) x.q
  if le && ge then a % 2 = 0 else ge

/-- The nearest decimal on the grid of `10^k` that rounds to the number, if there is one. -/
def onGrid? (x : Binary) (k : Int) : Option Nat :=
  let a := x.below k
  match x.covers a k, x.covers (a + 1) k with
  | true, true => some (if x.nearBelow a k then a else a + 1)
  | true, false => some a
  | false, true => some (a + 1)
  | false, false => none

/-- The exponent of the first digit: the greatest `e` in reach with `10^e ≤ x`. -/
def magnitude (x : Binary) : Int :=
  ((List.range 650).map fun (i : Nat) => (325 : Int) - i).find?
    (fun e => leBinary 1 e x.m x.q) |>.getD (-324)

/-- Digits and the exponent of the last one: the first grid, coarsest first, with a hit. -/
def shortest? (x : Binary) : Option (Nat × Int) :=
  (List.range 17).findSome? fun (i : Nat) =>
    let k := x.magnitude - i
    (x.onGrid? k).map (·, k)

end Binary

/-- How a decimal is laid out. -/
structure Layout where
  /-- The least exponent of the first digit that is written with a point. -/
  least : Int
  /-- The greatest exponent of the first digit that is written with a point. -/
  greatest : Int

namespace Layout

/-- Digits `ds`, the first of which has exponent `e`. A whole number ends in `.0`. -/
def write (l : Layout) (ds : List Char) (e : Int) : List Char :=
  if l.least ≤ e && e ≤ l.greatest then
    if e < 0 then ['0', '.'] ++ List.replicate ((-e).toNat - 1) '0' ++ ds
    else
      let whole := e.toNat + 1
      let front := ds.take whole ++ List.replicate (whole - ds.length) '0'
      front ++ '.' :: (if ds.drop whole = [] then ['0'] else ds.drop whole)
  else
    ds.take 1 ++ (if ds.drop 1 = [] then [] else '.' :: ds.drop 1) ++
      ['e', if e < 0 then '-' else '+'] ++ Nat.toDigits 10 e.natAbs

end Layout

/-- The digits without the zeros at the end. -/
def trimZeros (ds : List Char) : List Char :=
  (ds.reverse.dropWhile (· = '0')).reverse

/-- The text of a finite number in the given layout. -/
def floatText (l : Layout) (x : Float) : String :=
  let bits := x.toBits
  let sign := if bits >>> 63 = 1 then ['-'] else []
  let magnitude :=
    match (Binary.ofBits? bits).bind Binary.shortest? with
    | none => ['0', '.', '0']
    | some (a, k) =>
      let ds := Nat.toDigits 10 a
      l.write (trimZeros ds) (k + (ds.length : Int) - 1)
  String.ofList (sign ++ magnitude)

end TreeShell.Decimal
