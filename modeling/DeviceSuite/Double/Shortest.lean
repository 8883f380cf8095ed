import DeviceSuite.Double.Basic

/-!
# The shortest decimal text of a double

Among the decimals that read back as a given number, the written one has the fewest digits and,
of those, is the nearest. Candidates are compared exactly, on natural numbers in units of a
quarter of `2 ^ -1074`.
-/

namespace DeviceSuite.Double

/-- A decimal `digits * 10 ^ exponent`. -/
structure Decimal where
  digits : Nat
  exponent : Int
  deriving DecidableEq, Repr

/-- A positive number with the interval of reals that round to it, all over one denominator. -/
structure Bracket where
  low : Nat
  value : Nat
  high : Nat
  den : Nat
  /-- The ends of the interval belong to it when the significand is even. -/
  closed : Bool

/-- The interval of a finite positive number reaches half a unit up, and half a unit down unless
the number is the least of its binade, below which the units are half as large. -/
def bracket (x : Double) : Bracket :=
  let unit := Nat.pow 2 x.scale
  let below := if x.fractionField = 0 ∧ 1 < x.exponentField then unit else 2 * unit
  let value := 4 * x.magnitude
  { low := value - below, value, high := value + 2 * unit, den := 4 * unitsInOne,
    closed := x.significand % 2 = 0 }

namespace Bracket

/-- The exponent of the leading decimal digit of the value. -/
def leadingExponent (b : Bracket) : Int :=
  if b.den ≤ b.value then ((Nat.toDigits 10 (b.value / b.den)).length : Int) - 1
  else
    let places := (Nat.toDigits 10 (b.den / b.value)).length
    if b.den ≤ b.value * Nat.pow 10 (places - 1) then -((places : Int) - 1) else -(places : Int)

/-- Whether `n * unit / per` lies in the interval. -/
def admits (b : Bracket) (unit per n : Nat) : Bool :=
  let point := n * unit * b.den
  let low := b.low * per
  let high := b.high * per
  (low < point && point < high) || (b.closed && (low == point || point == high))

/-- The better of the value's two neighbours among the multiples of `10 ^ exponent`, when one of
them lies in the interval. -/
def onGrid (b : Bracket) (exponent : Int) : Option Nat :=
  let unit := Nat.pow 10 exponent.toNat
  let per := Nat.pow 10 (-exponent).toNat
  let down := b.value * per / (b.den * unit)
  let rest := 2 * (b.value * per % (b.den * unit))
  match b.admits unit per down, b.admits unit per (down + 1) with
  | true, false => some down
  | false, true => some (down + 1)
  | true, true =>
    if rest < b.den * unit ∨ (rest = b.den * unit ∧ down % 2 = 0) then some down
    else some (down + 1)
  | false, false => none

/-- Try grids of `places` digits and more, `fuel` of them. -/
def search (b : Bracket) (lead : Int) : Nat → Nat → Decimal
  | 0, _ => ⟨0, 0⟩
  | fuel + 1, places =>
    let exponent := lead + 1 - (places : Int)
    match b.onGrid exponent with
    | some digits => ⟨digits, exponent⟩
    | none => search b lead fuel (places + 1)

end Bracket

/-- Seventeen digits always suffice. -/
def shortest (x : Double) : Decimal := x.bracket.search x.bracket.leadingExponent 17 1

/-- The digits of a decimal without trailing zeros. -/
def Decimal.digitList (d : Decimal) : List Char :=
  ((Nat.toDigits 10 d.digits).reverse.dropWhile (· = '0')).reverse

/-- The power of ten of the leading digit. -/
def Decimal.scientificExponent (d : Decimal) : Int :=
  (Nat.toDigits 10 d.digits).length - 1 + d.exponent

/-- Where positional notation ends: outside these exponents of the leading digit a number is
written with an exponent. -/
structure TextStyle where
  leastPositional : Int
  greatestPositional : Int

/-- Numbers in messages are positional from `10 ^ -5` up to `10 ^ 16`. -/
def messageStyle : TextStyle := ⟨-5, 15⟩

/-- Write the digits of a decimal whose leading digit has the given exponent. -/
def TextStyle.write (style : TextStyle) (digits : List Char) (lead : Int) : List Char :=
  if lead < style.leastPositional ∨ style.greatestPositional < lead then
    let fraction := match digits.tail with
      | [] => []
      | rest => '.' :: rest
    digits.take 1 ++ fraction ++ ['e', if lead < 0 then '-' else '+'] ++ Nat.toDigits 10 lead.natAbs
  else if lead < 0 then
    '0' :: '.' :: List.replicate (lead.natAbs - 1) '0' ++ digits
  else
    let whole := lead.toNat + 1
    if digits.length ≤ whole then
      digits ++ List.replicate (whole - digits.length) '0' ++ ['.', '0']
    else digits.take whole ++ '.' :: digits.drop whole

/-- The text of a finite number: a sign, then the fewest digits that read back, with a fraction
or an exponent always present. -/
def text (x : Double) : String :=
  let body :=
    if x.magnitude = 0 then ['0', '.', '0']
    else
      let d := x.shortest
      messageStyle.write d.digitList d.scientificExponent
  String.ofList (if x.isNegative then '-' :: body else body)

end DeviceSuite.Double
