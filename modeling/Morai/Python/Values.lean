import Mathlib.Algebra.GroupWithZero.Nat
import Mathlib.Data.String.Basic
import Mathlib.Data.List.Sort

/-!
# Strings, UUIDs and datetimes

The built-in values the ledger keys its rows by. A datetime is its instant in
integer microseconds since the epoch: that is what the `timestamptz` columns
store and what two datetimes with different offsets compare by. Python bounds
datetimes to the years 1 to 9999 and timedeltas to 999999999 days and raises
`OverflowError` beyond, which is how some date loops end.
-/

namespace Morai.Python

set_option autoImplicit false

/-! ## Strings -/

/-- `text.replace(" ", "")`. -/
def withoutSpaces (text : String) : String :=
  String.ofList (text.toList.filter fun char => char ≠ ' ')

def hexDigit (value : Nat) : Char := Nat.digitChar (value % 16)

/-- One character of `repr(text)`. Non-ASCII characters are taken as
printable. -/
def reprChar (quote char : Char) : List Char :=
  if char = quote ∨ char = '\\' then ['\\', char]
  else if char = '\n' then ['\\', 'n']
  else if char = '\r' then ['\\', 'r']
  else if char = '\t' then ['\\', 't']
  else if char.toNat < 32 ∨ char.toNat = 127 then
    ['\\', 'x', hexDigit (char.toNat / 16), hexDigit char.toNat]
  else [char]

/-- `repr(text)`: double quotes only around a text with a single quote and no
double quote. -/
def reprText (text : String) : String :=
  let chars := text.toList
  let quote := if '\'' ∈ chars ∧ '"' ∉ chars then '"' else '\''
  String.ofList (quote :: (chars.flatMap (reprChar quote) ++ [quote]))

/-- `sorted(texts)`, by code points. -/
def sortedTexts (texts : List String) : List String := texts.insertionSort (· ≤ ·)

theorem sorted_texts_perm (texts : List String) : (sortedTexts texts).Perm texts :=
  List.perm_insertionSort _ texts

theorem sorted_texts_eq_of_perm (left right : List String) (perm : left.Perm right) :
    sortedTexts left = sortedTexts right := by
  have samePerm : (sortedTexts left).Perm (sortedTexts right) :=
    (sorted_texts_perm left).trans (perm.trans (sorted_texts_perm right).symm)
  exact samePerm.eq_of_pairwise (fun _ _ _ _ leftLe rightLe => le_antisymm leftLe rightLe)
    (List.pairwise_insertionSort _ left) (List.pairwise_insertionSort _ right)

/-! ## UUIDs -/

structure Uuid where
  value : Fin (2 ^ 128)
  deriving DecidableEq, Repr

/-- Numerals stand for UUIDs in the runs on fixed inputs. -/
instance uuid_size_ne_zero : NeZero (2 ^ 128) := inferInstance

def hexText : Nat → Nat → List Char
  | 0, _ => []
  | width + 1, value => hexText width (value / 16) ++ [hexDigit value]

def hexValue (char : Char) : Option Nat :=
  if '0' ≤ char ∧ char ≤ '9' then some (char.toNat - '0'.toNat)
  else if 'a' ≤ char ∧ char ≤ 'f' then some (char.toNat - 'a'.toNat + 10)
  else none

def readHexFrom (start : Nat) : List Char → Option Nat
  | [] => some start
  | char :: rest =>
      match hexValue char with
      | some digit => readHexFrom (start * 16 + digit) rest
      | none => none

/-- Lower-case hexadecimal in groups of 8, 4, 4, 4 and 12 digits. -/
def Uuid.chars (uuid : Uuid) : List Char :=
  let hex := hexText 32 uuid.value.val
  hex.take 8 ++ '-' :: ((hex.drop 8).take 4 ++ '-' :: ((hex.drop 12).take 4 ++
    '-' :: ((hex.drop 16).take 4 ++ '-' :: hex.drop 20)))

/-- `str(uuid)`, and the database's `uuid::text`. -/
def Uuid.text (uuid : Uuid) : String := String.ofList uuid.chars

/-- `text::uuid`; hyphens carry no information. -/
def Uuid.ofText? (text : String) : Option Uuid :=
  match readHexFrom 0 (text.toList.filter fun char => char ≠ '-') with
  | some value => if small : value < 2 ^ 128 then some ⟨⟨value, small⟩⟩ else none
  | none => none

theorem hex_value_digit (value : Nat) : hexValue (hexDigit value) = some (value % 16) := by
  have table : ∀ digit : Fin 16, hexValue (Nat.digitChar digit.val) = some digit.val := by decide
  exact table ⟨value % 16, Nat.mod_lt _ (by decide)⟩

theorem hex_digit_ne_hyphen (value : Nat) : hexDigit value ≠ '-' := by
  have table : ∀ digit : Fin 16, Nat.digitChar digit.val ≠ '-' := by decide
  exact table ⟨value % 16, Nat.mod_lt _ (by decide)⟩

theorem hex_text_no_hyphen (width value : Nat) :
    ∀ char ∈ hexText width value, char ≠ '-' := by
  induction width generalizing value with
  | zero => simp [hexText]
  | succ width ih =>
      intro char member
      rcases List.mem_append.mp member with front | last
      · exact ih _ char front
      · rw [List.mem_singleton.mp last]
        exact hex_digit_ne_hyphen value

theorem hex_text_length (width value : Nat) : (hexText width value).length = width := by
  induction width generalizing value with
  | zero => rfl
  | succ width ih => rw [hexText, List.length_append, ih, List.length_singleton]

theorem read_hex_append (start : Nat) (left right : List Char) :
    readHexFrom start (left ++ right) =
      (readHexFrom start left).bind fun middle => readHexFrom middle right := by
  induction left generalizing start with
  | nil => rfl
  | cons char rest ih =>
      simp only [List.cons_append, readHexFrom]
      cases hexValue char with
      | none => rfl
      | some digit => exact ih _

theorem read_hex_text (width value : Nat) :
    readHexFrom 0 (hexText width value) = some (value % 16 ^ width) := by
  induction width generalizing value with
  | zero => simp [hexText, readHexFrom, Nat.mod_one]
  | succ width ih =>
      rw [hexText, read_hex_append, ih]
      simp only [Option.bind_some, readHexFrom, hex_value_digit, Option.some.injEq]
      rw [Nat.pow_succ, Nat.mul_comm (16 ^ width) 16, Nat.mod_mul]
      omega

theorem uuid_chars_without_hyphens (uuid : Uuid) :
    uuid.chars.filter (fun char => char ≠ '-') = hexText 32 uuid.value.val := by
  have keep : ∀ part : List Char, part ⊆ hexText 32 uuid.value.val →
      part.filter (fun char => char ≠ '-') = part := by
    intro part inside
    refine List.filter_eq_self.mpr fun char member => ?_
    simpa using hex_text_no_hyphen 32 _ char (inside member)
  have cut : ∀ start size : Nat, ((hexText 32 uuid.value.val).drop start).take size ⊆
      hexText 32 uuid.value.val := by
    intro start size char member
    exact List.mem_of_mem_drop (List.mem_of_mem_take member)
  simp only [Uuid.chars, List.filter_append, List.filter_cons]
  rw [keep _ (List.take_subset _ _), keep _ (cut 8 4), keep _ (cut 12 4), keep _ (cut 16 4),
    keep _ (List.drop_subset _ _)]
  have rejoin : ∀ (text : List Char) (start : Nat),
      (text.drop start).take 4 ++ text.drop (start + 4) = text.drop start := by
    intro text start
    rw [← List.drop_drop]
    exact List.take_append_drop 4 (text.drop start)
  simp only [ne_eq, not_true_eq_false, decide_false, Bool.false_eq_true, if_false]
  rw [rejoin _ 16, rejoin _ 12, rejoin _ 8, List.take_append_drop]

/-- The round trip `MIN(position_id::text)::uuid` relies on. -/
theorem uuid_of_text (uuid : Uuid) : Uuid.ofText? uuid.text = some uuid := by
  have small : uuid.value.val < 16 ^ 32 := by
    have bounded := uuid.value.isLt
    have size : (2 : Nat) ^ 128 = 16 ^ 32 := by decide
    omega
  have read : readHexFrom 0 (uuid.text.toList.filter fun char => char ≠ '-') =
      some uuid.value.val := by
    rw [Uuid.text, String.toList_ofList, uuid_chars_without_hyphens, read_hex_text,
      Nat.mod_eq_of_lt small]
  unfold Uuid.ofText?
  rw [read]
  simp

/-! ## Datetimes -/

abbrev Instant := Int

def dayMicros : Int := 86400000000

/-- `datetime.min` and `datetime.max`. -/
def minInstant : Instant := -62135596800000000

def maxInstant : Instant := 253402300799999999

/-- `timedelta(days=days)`; `none` is `OverflowError`. -/
def timedeltaDays (days : Int) : Option Int :=
  if -999999999 ≤ days ∧ days ≤ 999999999 then some (days * dayMicros) else none

/-- `instant + delta`; `none` is `OverflowError`. -/
def shiftInstant (instant : Instant) (delta : Int) : Option Instant :=
  if minInstant ≤ instant + delta ∧ instant + delta ≤ maxInstant then some (instant + delta)
  else none

theorem timedelta_days_eq (days delta : Int) (made : timedeltaDays days = some delta) :
    delta = days * dayMicros := by
  unfold timedeltaDays at made
  split_ifs at made with bounded
  exact (Option.some.inj made).symm

theorem shift_instant_eq (instant shifted delta : Int)
    (made : shiftInstant instant delta = some shifted) : shifted = instant + delta := by
  unfold shiftInstant at made
  split_ifs at made with bounded
  exact (Option.some.inj made).symm

end Morai.Python
