import Morai.Python.Decimal
import Morai.Python.Timestamp

/-!
# Decimals under the default context

Constructing, comparing and printing a decimal are exact, but arithmetic is
not: even the unary minus rounds its result to the 28 digits of the default
context, half to even, and raises `decimal.Overflow` above its largest exponent.
-/

namespace Morai.Python.Decimal

set_option autoImplicit false

/-- `prec`. -/
def precision : Nat := 28

/-- `Emax`, the largest exponent of a leading digit. -/
def maxExponent : Int := 999999

/-- `Etiny()`, the smallest exponent of a last digit. -/
def tinyExponent : Int := -1000026

/-- The smallest exponent the context leaves a value with. -/
def leastExponent (value : Decimal) : Int := max (value.leftDigits - precision) tinyExponent

/-- The value rounded to its least exponent. A carry can make one digit too
many, the last of them a zero. -/
def rounded (value : Decimal) : Decimal :=
  let magnitude := roundHalfEven value.coefficient.natAbs
    (10 ^ (value.leastExponent - value.exponent).toNat)
  if magnitude = 10 ^ precision then
    ⟨value.coefficient.sign * 10 ^ (precision - 1), value.leastExponent + 1⟩
  else ⟨value.coefficient.sign * magnitude, value.leastExponent⟩

/-- A result under the context; `none` is `decimal.Overflow`. -/
def fix (value : Decimal) : Option Decimal :=
  if value.IsZero then some ⟨0, min (max value.exponent tinyExponent) maxExponent⟩
  else if maxExponent + 1 < value.leftDigits then none
  else if value.leastExponent ≤ value.exponent then some value
  else if maxExponent + 1 < value.rounded.exponent + precision then none
  else some value.rounded

/-- `-value`; `none` is `decimal.Overflow`. -/
def minus (value : Decimal) : Option Decimal := value.neg.fix

/-- The context holds the value as it is. -/
structure InContext (value : Decimal) : Prop where
  digits : value.digits.length ≤ precision
  small : tinyExponent ≤ value.exponent
  large : value.leftDigits ≤ maxExponent + 1

instance (value : Decimal) : Decidable value.InContext :=
  decidable_of_iff (value.digits.length ≤ precision ∧ tinyExponent ≤ value.exponent ∧
    value.leftDigits ≤ maxExponent + 1)
    ⟨fun fits => ⟨fits.1, fits.2.1, fits.2.2⟩, fun fits => ⟨fits.digits, fits.small, fits.large⟩⟩

theorem fix_in_context (value : Decimal) (fits : value.InContext) : value.fix = some value := by
  have count : value.leftDigits = value.exponent + value.digits.length := rfl
  have some_ := value.digits_length_pos
  obtain ⟨few, small, large⟩ := fits
  unfold fix
  split_ifs with isZero above exact
  · have kept : min (max value.exponent tinyExponent) maxExponent = value.exponent := by
      unfold maxExponent at *
      omega
    rw [kept]
    cases value
    cases isZero
    rfl
  · omega
  · rfl
  · exfalso
    apply exact
    unfold leastExponent
    omega
  · exfalso
    apply exact
    unfold leastExponent
    omega

theorem neg_digits (value : Decimal) : value.neg.digits = value.digits := by
  simp [digits, neg]

theorem neg_in_context (value : Decimal) (fits : value.InContext) : value.neg.InContext := by
  obtain ⟨few, small, large⟩ := fits
  refine ⟨?_, small, ?_⟩
  · rw [neg_digits]
    exact few
  · unfold leftDigits at large ⊢
    rw [neg_digits]
    exact large

/-- Within the context the minus is exact. -/
theorem minus_in_context (value : Decimal) (fits : value.InContext) :
    value.minus = some value.neg :=
  fix_in_context value.neg (neg_in_context value fits)

end Morai.Python.Decimal
