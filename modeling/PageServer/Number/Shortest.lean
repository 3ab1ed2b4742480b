import PageServer.Number.Decimal

/-! # The shortest decimal that reads back

A finite double is written with the fewest significant digits from which it can be read again. On the
grid of one, two and up to seventeen digits its two neighbours are tried, the nearer one first; a tie
goes to the larger one. All grids are coarsenings of one fine grid, on which the double and the ends of
the interval that rounds to it are located once. A neighbour outside of the interval is passed over,
and one inside is read back. The exact expansion would serve if no neighbour did.
-/

namespace PageServer

namespace Shortest

/-- The magnitude of a double, counted in the smallest doubles. -/
def units (bits : Nat) : Nat :=
  Binary64.mantissa bits * Nat.pow 2 (Binary64.scale bits)

/-- Where a double lies on the grid of the multiples of `10 ^ exponent`. -/
structure Place where
  exponent : Int
  /-- The multiple at or below the double. -/
  below : Nat
  /-- The least multiple that rounds to the double. -/
  least : Nat
  /-- The greatest multiple that rounds to the double. -/
  greatest : Nat
deriving Repr

/-- The place of a positive double on a grid on which it has at least eighteen digits. The ends of its
interval are halfway to the doubles next to it, and belong to it if its mantissa is even. -/
def place (bits : Nat) : Place :=
  let value := units bits
  let exponent := ((Nat.log2 value : Int) - 1074) * 30103 / 100000 - 17
  let num := Nat.pow 10 (-exponent).toNat
  let den := 2 * Binary64.one * Nat.pow 10 exponent.toNat
  let odd := bits % 2
  { exponent
    below := 2 * value * num / den
    least := ((units (bits - 1) + value) * num + (den - 1 + odd)) / den
    greatest := ((value + units (bits + 1)) * num - odd) / den }

/-- The multiples of a coarser unit next to a number of fine ones, the nearer one first. -/
def neighbours (below unit : Nat) : List Nat :=
  let multiple := below / unit
  if 2 * (below % unit) < unit then [multiple, multiple + 1] else [multiple + 1, multiple]

/-- Ten to the power of the number of digits has one digit more: it is a power of ten itself. -/
def carry (count coefficient : Nat) (exponent : Int) : Nat × Int :=
  if coefficient = Nat.pow 10 count then (1, exponent + count) else (coefficient, exponent)

/-- The decimals of at most `count` digits next to a double and inside of its interval, the nearer one
first. The place has `digits` digits. -/
def candidates (p : Place) (digits count : Nat) : List (Nat × Int) :=
  let unit := Nat.pow 10 (digits - count)
  let inside := (neighbours p.below unit).filter fun c => p.least ≤ c * unit && c * unit ≤ p.greatest
  inside.map fun c => carry count c (p.exponent + (digits - count : Nat))

/-- The exact decimal expansion of a finite double. -/
def expansion (bits : Nat) : Nat × Int :=
  (Binary64.numerator bits * Nat.pow 5 (1074 - Binary64.scale bits), -(1074 - Binary64.scale bits : Nat))

/-- The coefficient and the exponent of the shortest decimal that reads back as a finite double. -/
def decimal (bits : Nat) : Nat × Int :=
  if bits = 0 then (0, 0)
  else
    let p := place bits
    let digits := (Decimal.digits p.below).length
    let found := (List.range 17).findSome? fun n =>
      (candidates p digits (n + 1)).find? fun c => Decimal.magnitude c.1 c.2 = bits
    found.getD (expansion bits)

end Shortest

/-- A decimal written without an exponent. -/
def Decimal.positional (coefficient : Nat) (exponent : Int) : List Char :=
  let ds := Decimal.digits coefficient
  let places := (-exponent).toNat
  if places = 0 then ds ++ List.replicate exponent.toNat '0'
  else
    let padded := List.replicate (places + 1 - ds.length) '0' ++ ds
    padded.take (padded.length - places) ++ '.' :: padded.drop (padded.length - places)

namespace Binary64

def isWhole (bits : Nat) : Bool :=
  numerator bits % denominator bits = 0

/-- A double with a fixed number of places. The exact value is rounded, and a tie goes to the even
neighbour. -/
def fixed (places : Nat) (x : Float) : String :=
  let bits := magnitude x
  if infinity < bits then "NaN"
  else
    let sign := if isNegative x then "-" else ""
    if bits = infinity then sign ++ "inf"
    else
      let rounded := roundDiv (numerator bits * Nat.pow 10 places) (denominator bits)
      sign ++ String.ofList (Decimal.positional rounded (-places))

end Binary64

end PageServer
