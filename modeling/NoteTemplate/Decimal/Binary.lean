/-!
Finite binary numbers as exact products of an integer and a power of two.
-/

namespace NoteTemplate.Decimal

def twoTo (n : Nat) : Nat := Nat.pow 2 n

def tenTo (n : Nat) : Nat := Nat.pow 10 n

/-- The finite number `± mantissa · 2 ^ exponent`, as it is stored in 64 bits. `lowest` marks a
mantissa at the bottom of its binade, whose lower neighbour is only half as far as the upper. -/
structure Binary where
  negative : Bool
  mantissa : Nat
  exponent : Int
  lowest : Bool

/-- The exact value of a finite floating-point number; none for an infinity or a NaN. -/
def Binary.ofFloat? (x : Float) : Option Binary :=
  let bits := x.toBits.toNat
  let biased : Nat := bits / twoTo 52 % twoTo 11
  let fraction : Nat := bits % twoTo 52
  let negative := bits / twoTo 63 == 1
  if biased == 2047 then none
  else if biased == 0 then some ⟨negative, fraction, -1074, false⟩
  else some ⟨negative, fraction + twoTo 52, (biased : Int) - 1075, fraction == 0 && biased > 1⟩

/-- The magnitude as a quotient of natural numbers. -/
def Binary.ratio (b : Binary) : Nat × Nat :=
  (b.mantissa * twoTo b.exponent.toNat, twoTo (-b.exponent).toNat)

/-- The sign bit, which a zero has as well. -/
def signBit (x : Float) : Bool := x.toBits.toNat / twoTo 63 == 1

/-- The largest integer that is not above a finite number. -/
def floor? (x : Float) : Option Int :=
  (Binary.ofFloat? x).map fun b =>
    let (num, den) := b.ratio
    if b.negative then -(((num + den - 1) / den : Nat) : Int) else ((num / den : Nat) : Int)

/-- The integer that a finite number is equal to, if it is whole. -/
def whole? (x : Float) : Option Int :=
  (Binary.ofFloat? x).bind fun b =>
    let (num, den) := b.ratio
    if num % den == 0 then
      some (if b.negative then -((num / den : Nat) : Int) else ((num / den : Nat) : Int))
    else none

/-- The integer nearest to zero on the way from a finite number to zero. -/
def truncate? (x : Float) : Option Int :=
  (Binary.ofFloat? x).map fun b =>
    let (num, den) := b.ratio
    if b.negative then -((num / den : Nat) : Int) else ((num / den : Nat) : Int)

/-- The quotient of two natural numbers rounded to an integer, a half to the even neighbour. -/
def roundHalfEven (num den : Nat) : Nat :=
  let q := num / den
  let r := num % den
  if 2 * r < den then q else if den < 2 * r then q + 1 else if q % 2 == 0 then q else q + 1

/-- The nearest floating-point number to `mantissa · 10 ^ exponent`, a half to the even neighbour.
Exponents beyond the range of the format are settled without computing the power. -/
def ofScientific (negative : Bool) (mantissa : Nat) (exponent : Int) : Float :=
  let size : Int := (Nat.repr mantissa).length
  let magnitude :=
    if mantissa == 0 then 0.0
    else if size + exponent > 400 then 1.0 / 0.0
    else if size + exponent < -400 then 0.0
    else if exponent < 0 then Float.ofScientific mantissa true (-exponent).toNat
    else Float.ofScientific (mantissa * tenTo exponent.toNat) false 0
  if negative then -magnitude else magnitude

/-- The nearest floating-point number to an integer; none when it lies beyond the largest one. -/
def ofInt? (n : Int) : Option Float :=
  let x := ofScientific (n < 0) n.natAbs 0
  if x.isInf then none else some x

end NoteTemplate.Decimal
