import Mathlib.Data.List.Induction
import Morai.Python.Decimal

/-!
# Digits, dates and thousandths

`\d`, `int` and `Decimal` know more digits than the ten of ASCII: every
character that Unicode gives a decimal value. A text of such digits is read as
the number its values spell, and written back in ASCII.
-/

namespace Morai.Python

set_option autoImplicit false

/-! ## Decimal digits -/

/-- The zeros of Unicode 15.1. Each is followed by its other nine digits. -/
def decimalZeros : List Nat :=
  [0x30, 0x660, 0x6f0, 0x7c0, 0x966, 0x9e6, 0xa66, 0xae6, 0xb66, 0xbe6, 0xc66, 0xce6, 0xd66,
   0xde6, 0xe50, 0xed0, 0xf20, 0x1040, 0x1090, 0x17e0, 0x1810, 0x1946, 0x19d0, 0x1a80, 0x1a90,
   0x1b50, 0x1bb0, 0x1c40, 0x1c50, 0xa620, 0xa8d0, 0xa900, 0xa9d0, 0xa9f0, 0xaa50, 0xabf0, 0xff10,
   0x104a0, 0x10d30, 0x11066, 0x110f0, 0x11136, 0x111d0, 0x112f0, 0x11450, 0x114d0, 0x11650,
   0x116c0, 0x11730, 0x118e0, 0x11950, 0x11c50, 0x11d50, 0x11da0, 0x11f50, 0x16a60, 0x16ac0,
   0x16b50, 0x1d7ce, 0x1d7d8, 0x1d7e2, 0x1d7ec, 0x1d7f6, 0x1e140, 0x1e2f0, 0x1e4f0, 0x1e950,
   0x1fbf0]

/-- `unicodedata.decimal(char)`. -/
def decimalValue (char : Char) : Option Nat :=
  (decimalZeros.find? fun first => first ≤ char.toNat ∧ char.toNat < first + 10).map
    fun first => char.toNat - first

/-- The class `\d`. -/
def isDecimal (char : Char) : Bool := (decimalValue char).isSome

/-- `int(text)`, of a text of decimal digits. -/
def readDecimals (text : List Char) : Nat :=
  text.foldl (fun value char => 10 * value + (decimalValue char).getD 0) 0

/-- The ASCII digit of the same value, any other character as it is. -/
def asciiDigit (char : Char) : Char :=
  match decimalValue char with
  | some value => Nat.digitChar value
  | none => char

theorem decimal_value_lt (char : Char) (value : Nat) (read : decimalValue char = some value) :
    value < 10 := by
  obtain ⟨first, found, shape⟩ := Option.map_eq_some_iff.mp read
  have inside := List.find?_some found
  simp only [decide_eq_true_eq] at inside
  omega

theorem digit_range (char : Char) (digit : char.isDigit = true) :
    48 ≤ char.toNat ∧ char.toNat ≤ 57 := by
  simp only [Char.isDigit, Bool.and_eq_true, decide_eq_true_eq] at digit
  exact digit

theorem decimal_value_digit (char : Char) (digit : char.isDigit = true) :
    decimalValue char = some (char.toNat - 48) := by
  obtain ⟨low, high⟩ := digit_range char digit
  have first : (48 ≤ char.toNat ∧ char.toNat < 48 + 10) := by omega
  unfold decimalValue decimalZeros
  rw [List.find?_cons_of_pos (by simpa using first)]
  rfl

/-- Between the digits of ASCII and the next ones there are none, nor before
them. -/
theorem decimal_value_none (char : Char)
    (other : char.toNat < 48 ∨ 57 < char.toNat ∧ char.toNat < 1632) : decimalValue char = none := by
  have table : ∀ first ∈ decimalZeros, first = 48 ∨ 1632 ≤ first := by decide
  unfold decimalValue
  rw [Option.map_eq_none_iff, List.find?_eq_none]
  intro first member
  simp only [decide_eq_true_eq]
  cases table first member with
  | inl ascii => omega
  | inr later => omega

theorem digit_char_is_digit (value : Nat) (small : value < 10) :
    (Nat.digitChar value).isDigit = true := by
  have table : ∀ digit : Fin 10, (Nat.digitChar digit.val).isDigit = true := by decide
  exact table ⟨value, small⟩

theorem ascii_digit_decimal (char : Char) (decimal : isDecimal char = true) :
    (asciiDigit char).isDigit = true := by
  obtain ⟨value, read⟩ := Option.isSome_iff_exists.mp decimal
  unfold asciiDigit
  rw [read]
  exact digit_char_is_digit value (decimal_value_lt char value read)

theorem ascii_digit_other (char : Char) (other : isDecimal char = false) :
    asciiDigit char = char := by
  have none : decimalValue char = none := by
    unfold isDecimal at other
    simpa using other
  unfold asciiDigit
  rw [none]

theorem digit_is_decimal (char : Char) (digit : char.isDigit = true) : isDecimal char = true := by
  unfold isDecimal
  rw [decimal_value_digit char digit]
  rfl

theorem ascii_digit_digit (char : Char) (digit : char.isDigit = true) : asciiDigit char = char := by
  obtain ⟨low, high⟩ := digit_range char digit
  have table : ∀ value : Fin 10, Nat.digitChar value.val = Char.ofNat (48 + value.val) := by decide
  have own := table ⟨char.toNat - 48, by omega⟩
  unfold asciiDigit
  rw [decimal_value_digit char digit]
  simp only at own ⊢
  rw [own, Nat.add_sub_cancel' low, Char.ofNat_toNat]

/-- What is no ASCII digit afterwards was there before. -/
theorem ascii_digit_eq (char other : Char) (plain : other.isDigit = false)
    (same : asciiDigit char = other) : char = other := by
  cases decimal : isDecimal char with
  | true =>
      have digit := ascii_digit_decimal char decimal
      rw [same, plain] at digit
      cases digit
  | false => rw [← ascii_digit_other char decimal, same]

theorem is_decimal_of_ascii_digit (char : Char) (digit : (asciiDigit char).isDigit = true) :
    isDecimal char = true := by
  cases decimal : isDecimal char with
  | true => rfl
  | false =>
      rw [ascii_digit_other char decimal] at digit
      rw [digit_is_decimal char digit] at decimal
      exact decimal.symm

theorem decimal_value_digit_char (value : Nat) (small : value < 10) :
    decimalValue (Nat.digitChar value) = some value := by
  have table : ∀ digit : Fin 10, (Nat.digitChar digit.val).toNat - 48 = digit.val := by decide
  rw [decimal_value_digit _ (digit_char_is_digit value small)]
  exact congrArg some (table ⟨value, small⟩)

theorem decimal_value_ascii_digit (char : Char) :
    decimalValue (asciiDigit char) = decimalValue char := by
  cases read : decimalValue char with
  | none =>
      rw [asciiDigit, read]
      exact read
  | some value =>
      rw [asciiDigit, read]
      exact decimal_value_digit_char value (decimal_value_lt char value read)

/-- A number does not depend on whose digits spell it. -/
theorem read_decimals_ascii (text : List Char) :
    readDecimals (text.map asciiDigit) = readDecimals text := by
  unfold readDecimals
  rw [List.foldl_map]
  simp only [decimal_value_ascii_digit]

/-- On ASCII digits it is the number they spell. -/
theorem read_decimals_digits (text : List Char) (all : ∀ char ∈ text, char.isDigit = true) :
    readDecimals text = Nat.ofDigitChars 10 text 0 := by
  induction text using List.reverseRecOn with
  | nil => rfl
  | append_singleton earlier last ih =>
      have inner := ih fun char member => all char (List.mem_append_left _ member)
      have own := decimal_value_digit last (all last (by simp))
      unfold readDecimals at inner ⊢
      rw [List.foldl_concat, inner, Nat.ofDigitChars_append, Nat.ofDigitChars_cons,
        Nat.ofDigitChars_nil, own, Option.getD_some]
      rfl

/-! ## Padding -/

/-- `f"{value:0{width}d}"`. -/
def zeroPadded (width value : Nat) : List Char :=
  List.replicate (width - (Nat.toDigits 10 value).length) '0' ++ Nat.toDigits 10 value

theorem digit_char_of_digit (char : Char) (digit : char.isDigit = true) :
    Nat.digitChar (char.toNat - 48) = char := by
  have same := ascii_digit_digit char digit
  unfold asciiDigit at same
  rw [decimal_value_digit char digit] at same
  exact same

/-- Digits are the padding of the number they spell. -/
theorem zero_padded_digits (digits : List Char) (some : digits ≠ [])
    (all : ∀ char ∈ digits, char.isDigit = true) :
    zeroPadded digits.length (readDecimals digits) = digits := by
  rw [read_decimals_digits digits all]
  induction digits using List.reverseRecOn with
  | nil => exact absurd rfl some
  | append_singleton earlier last ih =>
      have digit := all last (by simp)
      have range := digit_range last digit
      have small : last.toNat - 48 < 10 := by omega
      have own : Nat.toDigits 10 (last.toNat - 48) = [last] := by
        rw [Nat.toDigits_of_lt_base small, digit_char_of_digit last digit]
      have value : Nat.ofDigitChars 10 (earlier ++ [last]) 0 =
          10 * Nat.ofDigitChars 10 earlier 0 + (last.toNat - 48) := by
        rw [Nat.ofDigitChars_append, Nat.ofDigitChars_cons, Nat.ofDigitChars_nil]
        rfl
      have inner := fun nonempty => ih nonempty
        fun char member => all char (List.mem_append_left _ member)
      rw [value]
      by_cases zero : Nat.ofDigitChars 10 earlier 0 = 0
      · have zeros : earlier = List.replicate earlier.length '0' := by
          by_cases empty : earlier = []
          · rw [empty]
            rfl
          · have padded := inner empty
            rw [zero, zeroPadded, Nat.toDigits_zero, List.length_singleton,
              ← List.replicate_succ'] at padded
            have size : earlier.length - 1 + 1 = earlier.length :=
              Nat.sub_add_cancel (List.length_pos_iff.mpr empty)
            rw [size] at padded
            exact padded.symm
        unfold zeroPadded
        rw [zero, Nat.mul_zero, Nat.zero_add, own, List.length_append, List.length_singleton,
          Nat.add_sub_cancel, ← zeros]
      · have nonempty : earlier ≠ [] := by
          intro empty
          rw [empty] at zero
          exact zero rfl
        have split := Nat.toDigits_append_toDigits (b := 10) (n := Nat.ofDigitChars 10 earlier 0)
          (d := last.toNat - 48) (by decide) (by omega) small
        have padded := inner nonempty
        unfold zeroPadded at padded ⊢
        rw [← split, own, List.length_append, List.length_append, List.length_singleton,
          Nat.add_sub_add_right, ← List.append_assoc, padded]

/-! ## Dates -/

def isLeap (year : Nat) : Bool := year % 4 = 0 ∧ (year % 100 ≠ 0 ∨ year % 400 = 0)

def daysInMonth (year month : Nat) : Nat :=
  if month = 2 then if isLeap year then 29 else 28
  else if month = 4 ∨ month = 6 ∨ month = 9 ∨ month = 11 then 30
  else 31

structure IsDate (year month day : Nat) : Prop where
  yearBound : 1 ≤ year ∧ year ≤ 9999
  monthBound : 1 ≤ month ∧ month ≤ 12
  dayBound : 1 ≤ day ∧ day ≤ daysInMonth year month

instance decidableIsDate (year month day : Nat) : Decidable (IsDate year month day) :=
  decidable_of_iff ((1 ≤ year ∧ year ≤ 9999) ∧ (1 ≤ month ∧ month ≤ 12) ∧
    1 ≤ day ∧ day ≤ daysInMonth year month)
    ⟨fun found => ⟨found.1, found.2.1, found.2.2⟩, fun date => ⟨date.yearBound, date.monthBound, date.dayBound⟩⟩

structure Date where
  year : Nat
  month : Nat
  day : Nat
  isDate : IsDate year month day
  deriving DecidableEq

/-- `date(year, month, day)`; `none` is `ValueError`. -/
def Date.of? (year month day : Nat) : Option Date :=
  if isDate : IsDate year month day then some ⟨year, month, day, isDate⟩ else none

/-- `f"{date:%y%m%d}"`. -/
def Date.yymmdd (date : Date) : List Char :=
  zeroPadded 2 (date.year % 100) ++ (zeroPadded 2 date.month ++ zeroPadded 2 date.day)

theorem date_of_eq (year month day : Nat) (date : Date) (made : Date.of? year month day = some date) :
    date.year = year ∧ date.month = month ∧ date.day = day := by
  unfold Date.of? at made
  split_ifs at made with isDate
  cases made
  exact ⟨rfl, rfl, rfl⟩

/-! ## Thousandths -/

namespace Decimal

/-- `Decimal(value) / Decimal(1000)`: exact, with no more places than it
needs. -/
def ofThousandths (value : Nat) : Decimal :=
  if value % 1000 = 0 then ⟨(value / 1000 : Nat), 0⟩
  else if value % 100 = 0 then ⟨(value / 100 : Nat), -1⟩
  else if value % 10 = 0 then ⟨(value / 10 : Nat), -2⟩
  else ⟨value, -3⟩

/-- `int(value)`. -/
def truncated (value : Decimal) : Int :=
  if 0 ≤ value.exponent then value.coefficient * 10 ^ value.exponent.toNat
  else value.coefficient.tdiv (10 ^ (-value.exponent).toNat)

theorem thousandths_places (value : Nat) :
    ∃ places : Nat, places ≤ 3 ∧ (ofThousandths value).exponent = -(places : Int) ∧
      (ofThousandths value).coefficient * 10 ^ (3 - places) = value := by
  unfold ofThousandths
  split_ifs with thousands hundreds tens
  · refine ⟨0, by decide, rfl, ?_⟩
    simp only [Nat.sub_zero]
    omega
  · refine ⟨1, by decide, rfl, ?_⟩
    simp only [Nat.reduceSub]
    omega
  · refine ⟨2, by decide, rfl, ?_⟩
    simp only [Nat.reduceSub]
    omega
  · refine ⟨3, by decide, rfl, ?_⟩
    simp only [Nat.reduceSub]
    omega

/-- Multiplying by a thousand gives the number back. -/
theorem truncated_thousandths (value : Nat) :
    ((ofThousandths value).mul ⟨1000, 0⟩).truncated = value := by
  obtain ⟨places, few, exponent, scaled⟩ := thousandths_places value
  have whole : (ofThousandths value).coefficient * 1000 = value * 10 ^ places := by
    have powers : (1000 : Int) = 10 ^ (3 - places) * 10 ^ places := by
      rw [← pow_add, Nat.sub_add_cancel few]
      norm_num
    rw [powers, ← mul_assoc, scaled]
  unfold truncated mul
  simp only [exponent, Int.add_zero, whole]
  split_ifs with none
  · have zero : places = 0 := by omega
    rw [zero]
    simp
  · rw [Int.neg_neg, Int.toNat_natCast]
    exact Int.mul_tdiv_cancel _ (by positivity)

theorem thousandths_value (value : Nat) :
    (ofThousandths value).toRat = value * (10 : ℚ) ^ (-3 : Int) := by
  obtain ⟨places, few, exponent, scaled⟩ := thousandths_places value
  have shift : ((ofThousandths value).exponent - -3).toNat = 3 - places := by omega
  rw [← scaled_to_value (ofThousandths value) (-3) (by omega), scaledTo, shift, scaled]
  rfl

theorem thousandths_injective (left right : Nat)
    (same : (ofThousandths left).toRat = (ofThousandths right).toRat) : left = right := by
  have positive : (0 : ℚ) < (10 : ℚ) ^ (-3 : Int) := by positivity
  rw [thousandths_value, thousandths_value] at same
  exact Nat.cast_injective (mul_right_cancel₀ positive.ne' same)

end Decimal

end Morai.Python
