import DeviceSuite.Double.Basic
import Mathlib.Data.Nat.Bitwise

/-!
# Integers as doubles

The double nearest to an integer of 64 bits is finite: the exponent of its last place is far below
that of the infinities, and the rounded significand carries at most once.
-/

namespace DeviceSuite.Double

/-- The sign is none of the exponent bits. -/
theorem exponentField_neg (x : Double) : (-x).exponentField = x.exponentField := by
  have hplace : exponentPlace = 2 ^ 52 := rfl
  change (x.bits ^^^ 0x8000000000000000).toNat / exponentPlace % 2 ^ 11 =
    x.bits.toNat / exponentPlace % 2 ^ 11
  rw [UInt64.toNat_xor, hplace]
  apply Nat.eq_of_testBit_eq
  intro i
  have hsign : (0x8000000000000000 : UInt64).toNat = 2 ^ 63 := rfl
  rw [Nat.testBit_mod_two_pow, Nat.testBit_mod_two_pow, Nat.testBit_div_two_pow,
    Nat.testBit_div_two_pow, Nat.testBit_xor, hsign, Nat.testBit_two_pow]
  by_cases hi : i < 11
  · have hne : ¬ 63 = i + 52 := by omega
    simp [hne]
  · simp [hi]

/-- A sign does not make a number infinite. -/
theorem isFinite_withSign (negative : Bool) (x : Double) :
    (withSign negative x).isFinite = x.isFinite := by
  cases negative with
  | false => rfl
  | true =>
    change ((-x).exponentField != 2047) = (x.exponentField != 2047)
    rw [exponentField_neg]

/-- The significand at the chosen exponent stays below `2 ^ 53` before it is rounded. -/
theorem lt_unitExponent (num : Nat) : num < 2 ^ (unitExponent num 1 + 53) := by
  rw [unitExponent]
  have hone : Nat.log2 1 = 0 := rfl
  split
  · next hlt => simpa using hlt
  · calc num < 2 ^ (num.log2 + 1) := Nat.lt_log2_self
      _ ≤ 2 ^ (num.log2 - (Nat.log2 1 + 53) + 1 + 53) :=
        Nat.pow_le_pow_right (by decide) (by omega)

/-- The exponent of a whole number is one more at most than the digits that it has beyond the
precision. -/
theorem unitExponent_le {num k : Nat} (hnum : num < 2 ^ (k + 53)) : unitExponent num 1 ≤ k + 1 := by
  have hlog : num.log2 < k + 53 := by
    by_cases hzero : num = 0
    · rw [hzero, Nat.log2_zero]
      omega
    · exact (Nat.log2_lt hzero).2 hnum
  rw [unitExponent]
  split <;> omega

/-- A whole number is rounded to one of 53 binary digits at most, or to the next power. -/
theorem roundQuotient_le (num : Nat) :
    roundQuotient num (1 * Nat.pow 2 (unitExponent num 1)) ≤ 2 ^ 53 := by
  have hfloor : num / (1 * Nat.pow 2 (unitExponent num 1)) < 2 ^ 53 := by
    refine Nat.div_lt_of_lt_mul ?_
    rw [Nat.one_mul, Nat.pow_eq, ← pow_add]
    exact lt_unitExponent num
  rw [roundQuotient]
  split <;> omega

/-- Numbers far below the greatest double leave the exponent bits far from full. -/
theorem isFinite_ofUnits {num k : Nat} (hnum : num < 2 ^ (k + 53)) (hk : k ≤ 2000) :
    (ofUnits num 1).isFinite = true := by
  have hexponent := unitExponent_le hnum
  have hround := roundQuotient_le num
  have hplace : exponentPlace = 2 ^ 52 := rfl
  rw [isFinite, bne_iff_ne, exponentField, ofUnits, UInt64.toNat_ofNat']
  generalize roundQuotient num (1 * Nat.pow 2 (unitExponent num 1)) = rounded at hround
  generalize unitExponent num 1 = exponent at hexponent
  clear hnum
  rw [hplace]
  omega

/-- An integer of 64 bits, signed or unsigned, is a finite double. -/
theorem isFinite_ofInt {n : Int} (hlow : -0x8000000000000000 ≤ n) (hhigh : n ≤ 0xffffffffffffffff) :
    (ofInt n).isFinite = true := by
  have hn : n.natAbs ≤ 2 ^ 64 := by omega
  obtain ⟨k, hk, hunits⟩ : ∃ k ≤ 1074, unitsInOne = 2 ^ k := ⟨1074, Nat.le_refl _, Nat.pow_eq⟩
  have hscaled : n.natAbs * unitsInOne < 2 ^ (k + 12 + 53) :=
    calc n.natAbs * unitsInOne ≤ 2 ^ 64 * 2 ^ k := hunits ▸ Nat.mul_le_mul_right _ hn
      _ = 2 ^ (64 + k) := (pow_add 2 64 k).symm
      _ < 2 ^ (k + 12 + 53) := Nat.pow_lt_pow_right (by decide) (by omega)
  rw [ofInt, isFinite_withSign, ofNat, ofRatio]
  exact isFinite_ofUnits hscaled (by clear hunits hscaled; omega)

end DeviceSuite.Double
