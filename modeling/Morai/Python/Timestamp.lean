import Morai.Python.Values

/-!
# `int(instant.timestamp() * 1_000_000)`

A timestamp is a double: the microseconds divided by a million, rounded to 53
bits, and the product with a million is rounded once more before it is cut
off. Every quotient met here lies well inside the normal range, so a double is
a mantissa of at most 53 bits and an exponent.
-/

namespace Morai.Python

set_option autoImplicit false

/-- The integer nearest to a quotient, the even one of two. -/
def roundHalfEven (numerator denominator : Nat) : Nat :=
  let quotient := numerator / denominator
  let twice := 2 * (numerator % denominator)
  if twice < denominator ∨ (twice = denominator ∧ quotient % 2 = 0) then quotient
  else quotient + 1

/-- A quotient in units of a power of two. -/
def inUnits (numerator denominator : Nat) (exponent : Int) : Nat × Nat :=
  (numerator * 2 ^ (-exponent).toNat, denominator * 2 ^ exponent.toNat)

/-- The exponent that leaves a quotient 53 bits before the point. -/
def doubleExponent (numerator denominator : Nat) : Int :=
  let lowest := (numerator.log2 : Int) - denominator.log2 - 53
  let units := inUnits numerator denominator lowest
  if units.1 < units.2 * 2 ^ 53 then lowest else lowest + 1

/-- The mantissa of the double nearest to a quotient. -/
def doubleMantissa (numerator denominator : Nat) : Nat :=
  let units := inUnits numerator denominator (doubleExponent numerator denominator)
  roundHalfEven units.1 units.2

/-- `int(timedelta(microseconds=micros).total_seconds() * 1_000_000)`, of a
timedelta that is not negative. -/
def secondsToMicros (micros : Nat) : Nat :=
  let mantissa := doubleMantissa micros 1000000
  let exponent := doubleExponent micros 1000000
  let product := inUnits (mantissa * 1000000) 1 (-exponent)
  let mantissa := doubleMantissa product.1 product.2
  let exponent := doubleExponent product.1 product.2
  mantissa * 2 ^ exponent.toNat / 2 ^ (-exponent).toNat

/-- Rounding and cutting off do not see the sign. -/
def timestampMicros (instant : Instant) : Int :=
  if instant < 0 then -(secondsToMicros instant.natAbs) else secondsToMicros instant.natAbs

theorem round_half_even_near (numerator denominator : Nat) (positive : 0 < denominator) :
    2 * (roundHalfEven numerator denominator * denominator) ≤ 2 * numerator + denominator ∧
      2 * numerator ≤ 2 * (roundHalfEven numerator denominator * denominator) + denominator := by
  have split := Nat.div_add_mod numerator denominator
  have small := Nat.mod_lt numerator positive
  rw [Nat.mul_comm] at split
  have whole : (numerator / denominator + 1) * denominator =
      numerator / denominator * denominator + denominator := Nat.succ_mul _ _
  unfold roundHalfEven
  dsimp only
  split_ifs <;> omega

theorem in_units_below (numerator denominator places : Nat) :
    inUnits numerator denominator (-(places : Int)) = (numerator * 2 ^ places, denominator) := by
  have down : (-(places : Int)).toNat = 0 := by omega
  have up : (-(-(places : Int))).toNat = places := by omega
  rw [inUnits, down, up, Nat.pow_zero, Nat.mul_one]

/-- Where the lowest exponent leaves few enough bits, it is the one. -/
theorem double_at_lowest (numerator denominator places : Nat)
    (lowest : (numerator.log2 : Int) - denominator.log2 - 53 = -(places : Int))
    (fits : numerator * 2 ^ places < denominator * 2 ^ 53) :
    doubleExponent numerator denominator = -(places : Int) ∧
      doubleMantissa numerator denominator =
        roundHalfEven (numerator * 2 ^ places) denominator := by
  have exponent : doubleExponent numerator denominator = -(places : Int) := by
    rw [doubleExponent, lowest, in_units_below]
    exact if_pos fits
  refine ⟨exponent, ?_⟩
  rw [doubleMantissa, exponent, in_units_below]

/-- Otherwise it is the next one. -/
theorem double_above_lowest (numerator denominator places : Nat)
    (lowest : (numerator.log2 : Int) - denominator.log2 - 53 = -((places + 1 : Nat) : Int))
    (wide : denominator * 2 ^ 53 ≤ numerator * 2 ^ (places + 1)) :
    doubleExponent numerator denominator = -(places : Int) ∧
      doubleMantissa numerator denominator =
        roundHalfEven (numerator * 2 ^ places) denominator := by
  have exponent : doubleExponent numerator denominator = -(places : Int) := by
    rw [doubleExponent, lowest, in_units_below]
    dsimp only
    rw [if_neg (Nat.not_lt.mpr wide)]
    omega
  refine ⟨exponent, ?_⟩
  rw [doubleMantissa, exponent, in_units_below]

/-- Between September 2005 and January 2038 every microsecond is rendered as
itself: both roundings together are off by less than half a unit. -/
theorem seconds_to_micros_exact (micros : Nat) (low : 1125899906842624 < micros)
    (high : micros < 2147483648000000) : secondsToMicros micros = micros := by
  have bits : micros.log2 = 50 := (Nat.log2_eq_iff (by omega)).mpr (by omega)
  have millionBits : Nat.log2 1000000 = 19 := by decide +kernel
  have unitBits : Nat.log2 4194304 = 22 := by decide +kernel
  obtain ⟨secondsExponent, secondsMantissa⟩ := double_at_lowest micros 1000000 22
    (by rw [bits, millionBits]; rfl) (by omega)
  have secondsNear := round_half_even_near (micros * 2 ^ 22) 1000000 (by decide)
  rw [← secondsMantissa] at secondsNear
  obtain ⟨product, shape⟩ : ∃ product, product = doubleMantissa micros 1000000 * 1000000 := ⟨_, rfl⟩
  rw [← shape] at secondsNear
  have productBits : product.log2 = 72 := (Nat.log2_eq_iff (by omega)).mpr (by omega)
  obtain ⟨lastExponent, lastMantissa⟩ := double_above_lowest product 4194304 2
    (by rw [productBits, unitBits]; rfl) (by omega)
  have lastNear := round_half_even_near (product * 2 ^ 2) 4194304 (by decide)
  rw [← lastMantissa] at lastNear
  have units : inUnits product 1 (-doubleExponent micros 1000000) = (product, 4194304) := by
    rw [secondsExponent]
    simp [inUnits]
  have result : secondsToMicros micros = doubleMantissa product 4194304 / 4 := by
    simp only [secondsToMicros, ← shape, units, lastExponent]
    simp
  omega

theorem timestamp_micros_exact (instant : Int) (low : 1125899906842624 < instant)
    (high : instant < 2147483648000000) : timestampMicros instant = instant := by
  have exact := seconds_to_micros_exact instant.natAbs (by omega) (by omega)
  have positive : ¬instant < 0 := by omega
  rw [timestampMicros, if_neg positive, exact]
  exact Int.natAbs_of_nonneg (by omega)

end Morai.Python
