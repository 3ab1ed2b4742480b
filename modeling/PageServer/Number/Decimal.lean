import PageServer.Number.Binary64
import PageServer.Number.Digits
import PageServer.Text.Case

/-! # Decimal numerals

A numeral is an optional sign, digits with at most one point and at least one digit, and an optional
exponent. It denotes a coefficient scaled by a power of ten. Read as a double, it is rounded once,
to the nearest one. The words for the infinities and for "not a number" are read as doubles too.
-/

namespace PageServer

/-- A signed multiple of a power of ten. -/
structure Decimal where
  negative : Bool
  coefficient : Nat
  exponent : Int
deriving DecidableEq, Repr

namespace Decimal

def digits (n : Nat) : List Char :=
  Nat.toDigits 10 n

def digitValue (c : Char) : Nat :=
  c.toNat - 48

def ofDigits (ds : List Char) : Nat :=
  Digits.toNat 10 (ds.map digitValue)

/-- An optional sign and what follows it. -/
def sign : List Char → Bool × List Char
  | '-' :: rest => (true, rest)
  | '+' :: rest => (false, rest)
  | rest => (false, rest)

/-- The integer that a text spells with an optional sign and one or more digits. -/
def readInteger? (text : List Char) : Option Int :=
  let (negative, ds) := sign text
  if ds = [] ∨ ¬ ds.all Char.isDigit then none
  else some (if negative then -(ofDigits ds : Int) else ofDigits ds)

/-- The natural number below a bound that a text spells with digits and at most a plus sign. -/
def readNatural? (bound : Nat) (text : List Char) : Option Nat :=
  if text.head? = some '-' then none
  else (readInteger? text).bind fun n => if n.toNat < bound then some n.toNat else none

/-- The size from which on an exponent takes no more digits. -/
def exponentBound : Nat := 65536

/-- The size of the exponent with these digits. They are added while it is below the bound and only
passed over after that, so that an exponent of any length stays small. -/
def exponentSize (ds : List Nat) : Nat :=
  ds.foldl (fun n d => if n < exponentBound then 10 * n + d else n) 0

def exponentOf (negative : Bool) (ds : List Nat) : Int :=
  if negative then -(exponentSize ds : Int) else exponentSize ds

def exponent? : List Char → Option Int
  | [] => some 0
  | mark :: rest =>
    let (negative, ds) := sign rest
    if (mark = 'e' ∨ mark = 'E') ∧ ds ≠ [] ∧ ds.all Char.isDigit then
      some (exponentOf negative (ds.map digitValue))
    else none

/-- The fraction digits after a point, if there is one, and what follows them. -/
def fraction : List Char → List Char × List Char
  | '.' :: rest => (rest.takeWhile Char.isDigit, rest.dropWhile Char.isDigit)
  | rest => ([], rest)

def read? (text : List Char) : Option Decimal :=
  let (negative, body) := sign text
  let whole := body.takeWhile Char.isDigit
  let (part, rest) := fraction (body.dropWhile Char.isDigit)
  if whole = [] ∧ part = [] then none
  else (exponent? rest).map fun e => ⟨negative, ofDigits (whole ++ part), e - part.length⟩

/-- The magnitude bits of the double nearest to `coefficient * 10 ^ exponent`. As ten is more than
`2 ^ 3`, a number with a negative exponent lies below `2 ^ (size + 1)` and one without lies at or above
`2 ^ size`: far outside the range of the doubles that alone decides. -/
def magnitude (coefficient : Nat) (exponent : Int) : Nat :=
  let size := Nat.log2 coefficient + 3 * exponent
  if coefficient = 0 ∨ (exponent < 0 ∧ size < -1076) then 0
  else if 0 ≤ exponent ∧ 1024 ≤ size then Binary64.infinity
  else Binary64.nearest (coefficient * Nat.pow 10 exponent.toNat) (Nat.pow 10 (-exponent).toNat)

def toFloat (d : Decimal) : Float :=
  Binary64.toFloat d.negative (magnitude d.coefficient d.exponent)

/-- The double that a word names. -/
def readWord? (text : List Char) : Option Float :=
  let (negative, word) := sign text
  let word := Text.lower word
  if word = "inf".toList ∨ word = "infinity".toList then
    some (Binary64.toFloat negative Binary64.infinity)
  else if word = "nan".toList then some (0.0 / 0.0)
  else none

def readFloat? (text : List Char) : Option Float :=
  ((read? text).map toFloat).or (readWord? text)

end Decimal

def Int64.read? (text : List Char) : Option Int64 :=
  (Decimal.readInteger? text).bind fun n =>
    if Int64.minValue.toInt ≤ n ∧ n ≤ Int64.maxValue.toInt then some (Int64.ofInt n) else none

end PageServer
