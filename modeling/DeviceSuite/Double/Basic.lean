/-!
# Double-precision numbers

A number of the binary64 format is held as its 64 bits, so two numbers are equal exactly when
their encodings are. Arithmetic is exact on natural numbers and rounds once, to the nearest
representable value, a tie going to the even significand.
-/

namespace DeviceSuite

/-- A binary64 number, given by its sign bit, eleven exponent bits and 52 fraction bits. -/
structure Double where
  bits : UInt64
  deriving DecidableEq, Inhabited, Repr

namespace Double

/-- The place value of the lowest exponent bit. -/
def exponentPlace : Nat := 0x10000000000000

/-- The sign bit is set for negative numbers and for negative zero. -/
def isNegative (x : Double) : Bool := 0x8000000000000000 ≤ x.bits.toNat

/-- The eleven exponent bits. -/
def exponentField (x : Double) : Nat := x.bits.toNat / exponentPlace % 2048

/-- The 52 fraction bits. -/
def fractionField (x : Double) : Nat := x.bits.toNat % exponentPlace

/-- All exponent bits are set exactly for the infinities and the not-a-number encodings. -/
def isFinite (x : Double) : Bool := x.exponentField != 2047

/-- The integral significand of a finite number, with the leading bit of a normal one. -/
def significand (x : Double) : Nat :=
  if x.exponentField = 0 then x.fractionField else exponentPlace + x.fractionField

/-- A finite number has the magnitude `significand * 2 ^ scale / 2 ^ 1074`. -/
def scale (x : Double) : Nat := x.exponentField - 1

/-- The magnitude of a finite number in units of the least positive one, `2 ^ -1074`. -/
def magnitude (x : Double) : Nat := x.significand * Nat.pow 2 x.scale

/-- The same magnitude with the other sign. -/
def neg (x : Double) : Double := ⟨x.bits ^^^ 0x8000000000000000⟩

instance : Neg Double := ⟨neg⟩

/-- Put a sign on a non-negative number. -/
def withSign (negative : Bool) (x : Double) : Double := if negative then -x else x

/-- The quotient rounded to the nearest natural number, a tie going to the even one. -/
def roundQuotient (num den : Nat) : Nat :=
  let floor := num / den
  let rest := 2 * (num % den)
  if rest < den ∨ (rest = den ∧ floor % 2 = 0) then floor else floor + 1

/-- The exponent of the unit in the last place at `num / den` units of `2 ^ -1074`: the least
exponent for which the quotient stays below `2 ^ 53`. -/
def unitExponent (num den : Nat) : Nat :=
  let guess := num.log2 - (den.log2 + 53)
  if num < den * Nat.pow 2 (guess + 53) then guess else guess + 1

/-- The number nearest to `num / den * 2 ^ -1074`, or infinity beyond the greatest finite one.

Adding the significand to the shifted exponent encodes subnormal numbers, normal numbers and a
carry out of the rounding alike. -/
def ofUnits (num den : Nat) : Double :=
  let exponent := unitExponent num den
  let word := exponent * exponentPlace + roundQuotient num (den * Nat.pow 2 exponent)
  ⟨UInt64.ofNat (min word (2047 * exponentPlace))⟩

/-- One in units of the least positive number. -/
def unitsInOne : Nat := Nat.pow 2 1074

/-- The number nearest to the quotient of two natural numbers. -/
def ofRatio (num den : Nat) : Double := ofUnits (num * unitsInOne) den

/-- The number nearest to a natural number. -/
def ofNat (n : Nat) : Double := ofRatio n 1

/-- The number nearest to an integer. -/
def ofInt (n : Int) : Double := withSign (n < 0) (ofNat n.natAbs)

/-- The rounded product of two finite non-negative numbers. -/
def mul (x y : Double) : Double := ofUnits (x.magnitude * y.magnitude) unitsInOne

/-- The rounded quotient of two finite non-negative numbers, the second positive. -/
def div (x y : Double) : Double := ofUnits (x.magnitude * unitsInOne) y.magnitude

/-- The smaller of two non-negative numbers, whose encodings are ordered as they are. -/
def min (x y : Double) : Double := if x.bits ≤ y.bits then x else y

end Double

end DeviceSuite
