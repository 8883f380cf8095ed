import DeviceSuite.Double.Basic

/-!
# Number literals

How a literal becomes a number. Literals without fraction and exponent that fit 64 bits are
integers. For all others the digits are gathered in a 64-bit significand; a digit that no longer
fits is dropped together with those behind it, and the significand, rounded to a double, is
multiplied or divided by a power of ten, each step rounding.
-/

namespace DeviceSuite

/-- The digits of a literal; its exponent has a sign and digits. -/
structure Numeral where
  negative : Bool
  whole : List Nat
  fraction : Option (List Nat)
  exponent : Option (Bool × List Nat)

/-- An integer or a double. -/
inductive Number where
  | int (value : Int)
  | real (value : Double)
  deriving DecidableEq, Repr

namespace Numeral

/-- The value of a decimal digit. -/
def digitValue (c : Char) : Nat := c.toNat - '0'.toNat

/-- Split off the leading digits of a text. -/
def spanDigits (cs : List Char) : List Nat × List Char :=
  ((cs.takeWhile Char.isDigit).map digitValue, cs.dropWhile Char.isDigit)

/-- The sign and digits of an exponent whose mark has been read. -/
def exponentOfChars : List Char → Bool × List Nat
  | '-' :: cs => (true, (spanDigits cs).1)
  | '+' :: cs => (false, (spanDigits cs).1)
  | cs => (false, (spanDigits cs).1)

/-- Take a well-formed literal apart. -/
def ofChars (cs : List Char) : Numeral :=
  let negative := cs.head? == some '-'
  let (whole, afterWhole) := spanDigits (if negative then cs.tail else cs)
  let (fraction, afterFraction) := match afterWhole with
    | '.' :: rest => let (digits, rest) := spanDigits rest; (some digits, rest)
    | rest => (none, rest)
  let exponent := match afterFraction with
    | _ :: rest => some (exponentOfChars rest)
    | [] => none
  { negative, whole, fraction, exponent }

/-- Append digits to a significand while it stays below `2 ^ 64`; the second component counts
the digits that were dropped. -/
def gather : Nat → List Nat → Nat × Nat
  | significand, [] => (significand, 0)
  | significand, digit :: rest =>
    if significand * 10 + digit < UInt64.size then gather (significand * 10 + digit) rest
    else (significand, rest.length + 1)

/-- Divide by a power of ten, at most `10 ^ 308` at a time. -/
def scaleDown (x : Double) (places : Nat) : Double :=
  if places ≤ 308 then x.div (.ofNat (Nat.pow 10 places))
  else if x.magnitude = 0 then x
  else scaleDown (x.div (.ofNat (Nat.pow 10 308))) (places - 308)
termination_by places

/-- Multiply by a power of ten; nothing when the product is beyond the range of doubles. -/
def scaleUp (x : Double) (places : Nat) : Option Double :=
  if x.magnitude = 0 then some x
  else if places ≤ 308 then
    let product := x.mul (.ofNat (Nat.pow 10 places))
    if product.isFinite then some product else none
  else none

/-- The double of a significand and a decimal exponent. -/
def scaled (significand : Nat) (exponent : Int) : Option Double :=
  if 0 ≤ exponent then scaleUp (.ofNat significand) exponent.toNat
  else some (scaleDown (.ofNat significand) (-exponent).toNat)

/-- The exponents of ten are 32-bit integers. -/
def greatestExponent : Nat := 0x7fffffff

/-- The number of a literal; nothing when it is beyond the range of doubles. -/
def value (n : Numeral) : Option Number :=
  let (wholeSignificand, dropped) := gather 0 n.whole
  match n.fraction, n.exponent, dropped with
  | none, none, 0 =>
    if !n.negative then some (.int wholeSignificand)
    else if 0 < wholeSignificand ∧ wholeSignificand ≤ 0x8000000000000000 then
      some (.int (-(wholeSignificand : Int)))
    else some (.real (-(Double.ofNat wholeSignificand)))
  | fraction, exponent, dropped =>
    let digits := fraction.getD []
    let (significand, ignored) := gather wholeSignificand digits
    let base : Int := dropped - ((digits.length - ignored : Nat) : Int)
    let magnitude := match exponent with
      | none => scaled significand base
      | some (below, exponentDigits) =>
        let size := exponentDigits.foldl (fun n digit => 10 * n + digit) 0
        if size ≤ greatestExponent then
          scaled significand (if below then base - size else base + size)
        else if significand ≠ 0 ∧ !below then none
        else some (Double.ofNat 0)
    magnitude.map fun x => .real (.withSign n.negative x)

end Numeral

end DeviceSuite
