import Mathlib.Data.Rat.Defs
import Mathlib.Data.Int.Basic
import Mathlib.Algebra.Order.Field.Rat
import Mathlib.Algebra.Order.Field.Power
import Mathlib.Tactic.Ring
import Mathlib.Tactic.NormNum
import Mathlib.Tactic.Positivity

/-!
# Python's `decimal.Decimal`

A finite decimal is an integer coefficient and a power of ten; the sign of a
zero is not kept, as `==` does not see it. Arithmetic is exact here, without
the default context of 28 significant digits. `str` and the constructor from
text follow the documented conversion, because the ledger stores money as that
text and reads it back.
-/

namespace Morai.Python

set_option autoImplicit false

structure Decimal where
  coefficient : Int
  exponent : Int
  deriving DecidableEq, Repr

namespace Decimal

/-- The number a decimal denotes. Python compares decimals by it. -/
def toRat (value : Decimal) : ℚ := (value.coefficient : ℚ) * (10 : ℚ) ^ value.exponent

def zero : Decimal := ⟨0, 0⟩

def neg (value : Decimal) : Decimal := ⟨-value.coefficient, value.exponent⟩

def mul (left right : Decimal) : Decimal :=
  ⟨left.coefficient * right.coefficient, left.exponent + right.exponent⟩

/-- The coefficient once the value is written with a smaller exponent. -/
def scaledTo (value : Decimal) (exponent : Int) : Int :=
  value.coefficient * 10 ^ (value.exponent - exponent).toNat

def add (left right : Decimal) : Decimal :=
  let exponent := min left.exponent right.exponent
  ⟨left.scaledTo exponent + right.scaledTo exponent, exponent⟩

def IsZero (value : Decimal) : Prop := value.coefficient = 0

def IsPositive (value : Decimal) : Prop := 0 < value.coefficient

instance (value : Decimal) : Decidable value.IsZero :=
  inferInstanceAs (Decidable (value.coefficient = 0))

instance (value : Decimal) : Decidable value.IsPositive :=
  inferInstanceAs (Decidable (0 < value.coefficient))

@[simp] theorem to_rat_zero : zero.toRat = 0 := by simp [toRat, zero]

@[simp] theorem to_rat_neg (value : Decimal) : value.neg.toRat = -value.toRat := by
  simp [toRat, neg]

@[simp] theorem to_rat_mul (left right : Decimal) :
    (left.mul right).toRat = left.toRat * right.toRat := by
  simp only [toRat, mul, Int.cast_mul]
  rw [zpow_add₀ (by norm_num)]
  ring

theorem scaled_to_value (value : Decimal) (exponent : Int) (below : exponent ≤ value.exponent) :
    (value.scaledTo exponent : ℚ) * (10 : ℚ) ^ exponent = value.toRat := by
  have shift : ((value.exponent - exponent).toNat : Int) = value.exponent - exponent :=
    Int.toNat_of_nonneg (by omega)
  simp only [scaledTo, toRat, Int.cast_mul, Int.cast_pow, Int.cast_ofNat]
  rw [← zpow_natCast, shift, mul_assoc, ← zpow_add₀ (by norm_num), Int.sub_add_cancel]

@[simp] theorem to_rat_add (left right : Decimal) :
    (left.add right).toRat = left.toRat + right.toRat := by
  rw [← scaled_to_value left (min left.exponent right.exponent) (min_le_left _ _),
    ← scaled_to_value right (min left.exponent right.exponent) (min_le_right _ _)]
  simp only [toRat, add, Int.cast_add]
  ring

/-- A value and its exponent leave no choice for the coefficient. -/
theorem eq_of_value (left right : Decimal) (exponent : left.exponent = right.exponent)
    (value : left.toRat = right.toRat) : left = right := by
  have positive : (0 : ℚ) < (10 : ℚ) ^ right.exponent := by positivity
  unfold toRat at value
  rw [exponent] at value
  have coefficient := mul_right_cancel₀ positive.ne' value
  cases left
  cases right
  simp_all

/-- A running total does not see the order of two summands, not even in its
exponent. -/
theorem add_right_comm (total left right : Decimal) :
    (total.add left).add right = (total.add right).add left := by
  apply eq_of_value
  · simp only [add]
    omega
  · simp only [to_rat_add]
    ring

/-! ## Text -/

def digits (value : Decimal) : List Char := Nat.toDigits 10 value.coefficient.natAbs

def leftDigits (value : Decimal) : Int := value.exponent + value.digits.length

/-- `"%+d"`. -/
def signedText (value : Int) : List Char :=
  (if value < 0 then '-' else '+') :: Nat.toDigits 10 value.natAbs

/-- The digits with the decimal point after the given number of them. -/
def pointText (digits : List Char) (place : Int) : List Char :=
  if place ≤ 0 then '0' :: '.' :: (List.replicate (-place).toNat '0' ++ digits)
  else if (digits.length : Int) ≤ place then
    digits ++ List.replicate (place - digits.length).toNat '0'
  else digits.take place.toNat ++ '.' :: digits.drop place.toNat

/-- Plain notation for a moderate exponent, scientific notation otherwise. -/
def dotPlace (value : Decimal) : Int :=
  if value.exponent ≤ 0 ∧ -6 < value.leftDigits then value.leftDigits else 1

def exponentText (value : Int) : List Char :=
  if value = 0 then [] else 'E' :: signedText value

def strChars (value : Decimal) : List Char :=
  (if value.coefficient < 0 then ['-'] else []) ++
    (pointText value.digits value.dotPlace ++
      exponentText (value.leftDigits - value.dotPlace))

def str (value : Decimal) : String := String.ofList value.strChars

def readDigits (text : List Char) : Option Nat :=
  if text ≠ [] ∧ text.all Char.isDigit then some (Nat.ofDigitChars 10 text 0) else none

def readExponent : List Char → Option Int
  | [] => some 0
  | mark :: rest =>
      if mark = 'E' ∨ mark = 'e' then
        match rest with
        | '-' :: text => (readDigits text).map fun (value : Nat) => -(Int.ofNat value)
        | '+' :: text => (readDigits text).map Int.ofNat
        | text => (readDigits text).map Int.ofNat
      else none

def readFraction : List Char → List Char × List Char
  | '.' :: rest => (rest.takeWhile Char.isDigit, rest.dropWhile Char.isDigit)
  | rest => ([], rest)

def readUnsigned (text : List Char) : Option (Nat × Int) :=
  let whole := text.takeWhile Char.isDigit
  let (fraction, tail) := readFraction (text.dropWhile Char.isDigit)
  if whole ++ fraction = [] then none
  else (readExponent tail).map fun exponent =>
    (Nat.ofDigitChars 10 (whole ++ fraction) 0, exponent - fraction.length)

/-- The finite part of the numeric-string grammar; `none` is
`decimal.InvalidOperation`. -/
def ofChars : List Char → Option Decimal
  | '-' :: text => (readUnsigned text).map fun read => ⟨-(read.1 : Int), read.2⟩
  | '+' :: text => (readUnsigned text).map fun read => ⟨read.1, read.2⟩
  | text => (readUnsigned text).map fun read => ⟨read.1, read.2⟩

def ofStr? (text : String) : Option Decimal := ofChars text.toList

theorem digits_all (value : Nat) : ∀ digit ∈ Nat.toDigits 10 value, digit.isDigit = true := by
  intro digit member
  exact Nat.isDigit_of_mem_toDigits (by decide) (by decide) member

theorem read_digits_to_digits (value : Nat) :
    readDigits (Nat.toDigits 10 value) = some value := by
  have all : (Nat.toDigits 10 value).all Char.isDigit = true := List.all_eq_true.mpr (digits_all value)
  simp [readDigits, Nat.toDigits_ne_nil, all]

theorem read_exponent_text (value : Int) : readExponent (exponentText value) = some value := by
  unfold exponentText
  split_ifs with isZero
  · simp [readExponent, isZero]
  · by_cases negative : value < 0
    · rw [signedText, if_pos negative, readExponent, if_pos (Or.inl rfl)]
      rw [read_digits_to_digits, Option.map_some, Option.some.injEq, Int.ofNat_eq_natCast]
      omega
    · rw [signedText, if_neg negative, readExponent, if_pos (Or.inl rfl)]
      rw [read_digits_to_digits, Option.map_some, Option.some.injEq, Int.ofNat_eq_natCast]
      omega

/-- An exponent part is empty or starts with its mark, so it ends the digits
before it and is no decimal point. -/
theorem exponent_text_split (value : Int) (digits : List Char)
    (all : ∀ digit ∈ digits, digit.isDigit = true) :
    (digits ++ exponentText value).takeWhile Char.isDigit = digits ∧
      (digits ++ exponentText value).dropWhile Char.isDigit = exponentText value := by
  have stop : (exponentText value).takeWhile Char.isDigit = [] ∧
      (exponentText value).dropWhile Char.isDigit = exponentText value := by
    unfold exponentText
    split_ifs
    · exact ⟨rfl, rfl⟩
    · have mark : 'E'.isDigit = false := by decide
      simp [mark]
  rw [List.takeWhile_append_of_pos all, List.dropWhile_append_of_pos all, stop.1, stop.2,
    List.append_nil]
  exact ⟨rfl, rfl⟩

theorem read_unsigned_whole (digits : List Char) (exponent : Int) (some : digits ≠ [])
    (all : ∀ digit ∈ digits, digit.isDigit = true) :
    readUnsigned (digits ++ exponentText exponent) =
      Option.some (Nat.ofDigitChars 10 digits 0, exponent) := by
  obtain ⟨taken, left⟩ := exponent_text_split exponent digits all
  have noFraction : readFraction (exponentText exponent) = ([], exponentText exponent) := by
    unfold exponentText
    split_ifs <;> rfl
  simp [readUnsigned, taken, left, noFraction, read_exponent_text, some]

theorem read_unsigned_fraction (whole fraction : List Char) (exponent : Int) (some : whole ≠ [])
    (wholeAll : ∀ digit ∈ whole, digit.isDigit = true)
    (fractionAll : ∀ digit ∈ fraction, digit.isDigit = true) :
    readUnsigned (whole ++ '.' :: (fraction ++ exponentText exponent)) =
      Option.some (Nat.ofDigitChars 10 (whole ++ fraction) 0, exponent - fraction.length) := by
  obtain ⟨taken, left⟩ := exponent_text_split exponent fraction fractionAll
  have point : '.'.isDigit = false := by decide
  simp [readUnsigned, List.takeWhile_append_of_pos wholeAll,
    List.dropWhile_append_of_pos wholeAll, point, readFraction, taken, left,
    read_exponent_text, some]

theorem digits_length_pos (value : Decimal) : 0 < value.digits.length :=
  Nat.length_toDigits_pos

theorem digits_value (value : Decimal) :
    Nat.ofDigitChars 10 value.digits 0 = value.coefficient.natAbs :=
  Nat.ofDigitChars_ten_toDigits

/-- With the point inside the digits or before them, the digits read back and
the exponent makes up for the place. -/
theorem read_point_text (digits : List Char) (place exponent : Int) (some : digits ≠ [])
    (all : ∀ digit ∈ digits, digit.isDigit = true) (inside : place ≤ digits.length) :
    readUnsigned (pointText digits place ++ exponentText exponent) =
      Option.some (Nat.ofDigitChars 10 digits 0, exponent + place - digits.length) := by
  unfold pointText
  split_ifs with leading whole
  · have shape : '0' :: '.' :: (List.replicate (-place).toNat '0' ++ digits) ++
        exponentText exponent = ['0'] ++ '.' ::
          ((List.replicate (-place).toNat '0' ++ digits) ++ exponentText exponent) := by
      simp
    have zeroAll : ∀ digit ∈ ['0'], digit.isDigit = true :=
      List.forall_mem_singleton.mpr (by decide)
    have fractionAll : ∀ digit ∈ List.replicate (-place).toNat '0' ++ digits,
        digit.isDigit = true := by
      intro digit member
      rcases List.mem_append.mp member with zero | digitMember
      · rw [List.eq_of_mem_replicate zero]
        decide
      · exact all digit digitMember
    have zeroDigit : Nat.ofDigitChars 10 ['0'] 0 = 0 := by decide
    rw [shape, read_unsigned_fraction ['0'] _ exponent (by simp) zeroAll fractionAll,
      Nat.ofDigitChars_append, Nat.ofDigitChars_append, zeroDigit,
      Nat.ofDigitChars_replicate_zero, Nat.mul_zero]
    simp only [List.length_append, List.length_replicate, Option.some.injEq, Prod.mk.injEq,
      true_and]
    omega
  · have exact : place - digits.length = 0 := by omega
    rw [exact, Int.toNat_zero, List.replicate_zero, List.append_nil,
      read_unsigned_whole _ _ some all]
    simp only [Option.some.injEq, Prod.mk.injEq, true_and]
    omega
  · have front : digits.take place.toNat ≠ [] := by
      intro empty
      have size := congrArg List.length empty
      simp only [List.length_take, List.length_nil] at size
      omega
    rw [List.append_assoc, List.cons_append, read_unsigned_fraction _ _ _ front
      (fun digit member => all digit (List.mem_of_mem_take member))
      (fun digit member => all digit (List.mem_of_mem_drop member)), List.take_append_drop]
    simp only [List.length_drop, Option.some.injEq, Prod.mk.injEq, true_and]
    omega

theorem dot_place_inside (value : Decimal) : value.dotPlace ≤ value.digits.length := by
  have lengthPos := value.digits_length_pos
  have count : value.leftDigits = value.exponent + value.digits.length := rfl
  unfold dotPlace
  split_ifs with plain <;> omega

/-- The unsigned part of the text reads back as magnitude and exponent, in
plain and in scientific notation. -/
theorem read_unsigned_str (value : Decimal) :
    readUnsigned (pointText value.digits value.dotPlace ++
      exponentText (value.leftDigits - value.dotPlace)) =
      some (value.coefficient.natAbs, value.exponent) := by
  have all : ∀ digit ∈ value.digits, digit.isDigit = true := digits_all _
  have nonempty : value.digits ≠ [] := List.ne_nil_of_length_pos value.digits_length_pos
  have count : value.leftDigits = value.exponent + value.digits.length := rfl
  rw [read_point_text value.digits value.dotPlace _ nonempty all value.dot_place_inside,
    digits_value, count]
  simp only [Option.some.injEq, Prod.mk.injEq, true_and]
  omega

theorem point_text_head (digits : List Char) (place : Int)
    (all : ∀ digit ∈ digits, digit.isDigit = true) (some : digits ≠ []) :
    ∃ head rest, pointText digits place = head :: rest ∧ head.isDigit = true := by
  cases digits with
  | nil => exact absurd rfl some
  | cons head rest =>
      unfold pointText
      split_ifs with leading whole
      · exact ⟨_, _, rfl, by decide⟩
      · exact ⟨_, _, rfl, all head List.mem_cons_self⟩
      · have positive : place.toNat = (place.toNat - 1) + 1 := by omega
        rw [positive, List.take_succ_cons]
        exact ⟨_, _, rfl, all head List.mem_cons_self⟩

/-- Money survives its own text: what `str` writes, the constructor reads
back to the same coefficient and exponent. -/
theorem of_str_str (value : Decimal) : ofStr? value.str = some value := by
  have unsigned := read_unsigned_str value
  unfold ofStr? str strChars
  rw [String.toList_ofList]
  by_cases negative : value.coefficient < 0
  · have back : -(value.coefficient.natAbs : Int) = value.coefficient := by omega
    rw [if_pos negative]
    change (readUnsigned (pointText value.digits value.dotPlace ++
      exponentText (value.leftDigits - value.dotPlace))).map _ = _
    rw [unsigned, Option.map_some, back]
  · have back : (value.coefficient.natAbs : Int) = value.coefficient := by omega
    obtain ⟨head, rest, shape, digit⟩ := point_text_head value.digits value.dotPlace
      (digits_all _) (List.ne_nil_of_length_pos value.digits_length_pos)
    rw [if_neg negative, List.nil_append]
    rw [shape, List.cons_append] at unsigned ⊢
    have notMinus : head ≠ '-' := by
      rintro rfl
      exact absurd digit (by decide)
    have notPlus : head ≠ '+' := by
      rintro rfl
      exact absurd digit (by decide)
    unfold ofChars
    split
    · simp_all
    · simp_all
    · rw [unsigned]
      simp [back]

end Decimal

end Morai.Python
