/-! # The doubles as exact numbers

A finite double is a sign and a magnitude `mantissa * 2 ^ exponent`. The bits of the magnitude, read
as a natural number, grow with the value, and so the double nearest to a fraction is found in
exact arithmetic on natural numbers. Bits from `Binary64.infinity` on stand for no finite value.
-/

namespace PageServer

/-- The quotient rounded to the nearest natural number. A tie goes to the even neighbour. -/
def roundDiv (num den : Nat) : Nat :=
  let quotient := num / den
  let twice := 2 * (num % den)
  if twice < den then quotient
  else if den < twice then quotient + 1
  else if quotient % 2 = 0 then quotient else quotient + 1

/-- A multiple of the divisor is divided exactly. -/
theorem roundDiv_mul {n den : Nat} (positive : 0 < den) : roundDiv (n * den) den = n := by
  simp [roundDiv, Nat.mul_div_cancel _ positive, positive]

namespace Binary64

def infinity : Nat := 0x7FF0000000000000

def signBit : Nat := 0x8000000000000000

/-- The leading bit of a mantissa of full length, which is not stored. -/
def hiddenBit : Nat := 0x10000000000000

/-- One, counted in the smallest doubles. -/
@[irreducible] def one : Nat := Nat.pow 2 1074

/-- The integer that is scaled by the power of two. -/
def mantissa (bits : Nat) : Nat :=
  if bits < hiddenBit then bits else bits % hiddenBit + hiddenBit

/-- The exponent of the power of two, counted up from the smallest one, which is `-1074`. -/
def scale (bits : Nat) : Nat :=
  bits / hiddenBit - 1

/-- The value of finite bits, as a fraction. -/
def numerator (bits : Nat) : Nat :=
  mantissa bits * Nat.pow 2 (scale bits - 1074)

def denominator (bits : Nat) : Nat :=
  Nat.pow 2 (1074 - scale bits)

/-- The scale at which a positive fraction has a mantissa of 53 bits, or zero if it is too small. -/
def scaleOf (num den : Nat) : Nat :=
  let guess := Nat.log2 num + 1022 - Nat.log2 den
  if num * Nat.pow 2 (1074 - guess) < hiddenBit * den * Nat.pow 2 (guess - 1074) then guess - 1 else guess

/-- The bits of the double nearest to a fraction. A tie goes to the even mantissa, and what is too
large is infinite. -/
def nearest (num den : Nat) : Nat :=
  let s := scaleOf num den
  let rounded := roundDiv (num * Nat.pow 2 (1074 - s)) (den * Nat.pow 2 (s - 1074))
  min infinity (s * hiddenBit + rounded)

/-- The bits of the magnitude of a double. -/
def magnitude (x : Float) : Nat :=
  x.toBits.toNat % signBit

def isNegative (x : Float) : Bool :=
  signBit ≤ x.toBits.toNat

def toFloat (negative : Bool) (bits : Nat) : Float :=
  Float.ofBits (UInt64.ofNat (if negative then signBit + bits else bits))

end Binary64

end PageServer
