import Mathlib.Data.List.DropRight
import Morai.Python.Digits
import Morai.Python.Values

/-!
# Who reads which text as a UUID

Python's `UUID(text)` and the database's `text::uuid` both read what
`str(uuid)` writes, and each reads texts that the other refuses: Python drops
`urn:` and `uuid:`, any hyphens and braces, and leaves the rest to
`int(text, 16)`; the database wants pairs of hexadecimal digits, with a hyphen
only after every second pair, and braces around them or none.
-/

namespace Morai.Python

set_option autoImplicit false

/-! ## `int(text, 16)` -/

/-- What `int` strips: `str.isspace` without the separators of ASCII. -/
def isIntSpace (char : Char) : Bool :=
  9 ≤ char.toNat && char.toNat ≤ 13 || 0x2000 ≤ char.toNat && char.toNat ≤ 0x200a ||
    char.toNat ∈ [0x20, 0x85, 0xa0, 0x1680, 0x2028, 0x2029, 0x202f, 0x205f, 0x3000]

/-- A letter of either case, or a digit of any script. -/
def hexDigitValue (char : Char) : Option Nat :=
  if 'a' ≤ char ∧ char ≤ 'f' then some (char.toNat - 'a'.toNat + 10)
  else if 'A' ≤ char ∧ char ≤ 'F' then some (char.toNat - 'A'.toNat + 10)
  else decimalValue char

/-- Digits with single underscores between them; `value` is that of the digits
so far. -/
def readHexDigits : Bool → Nat → List Char → Option Nat
  | afterDigit, value, [] => if afterDigit then some value else none
  | afterDigit, value, char :: rest =>
      if char = '_' then if afterDigit then readHexDigits false value rest else none
      else (hexDigitValue char).bind fun digit => readHexDigits true (value * 16 + digit) rest

def withoutPlus : List Char → List Char
  | '+' :: rest => rest
  | text => text

/-- An underscore may stand between the `0x` and the first digit. -/
def withoutHexPrefix : List Char → List Char
  | zero :: mark :: rest =>
      if decimalValue zero = some 0 ∧ (mark = 'x' ∨ mark = 'X') then
        if rest.head? = some '_' then rest.tail else rest
      else zero :: mark :: rest
  | text => text

/-- `int(text, 16)`, of a text without a minus; `none` is `ValueError`. -/
def readHexInt (text : List Char) : Option Nat :=
  readHexDigits false 0
    (withoutHexPrefix (withoutPlus ((text.dropWhile isIntSpace).rdropWhile isIntSpace)))

/-! ## The two readers -/

/-- `text.replace(pattern, "")`; the count is of characters still to be
dropped. -/
def removeEach (pattern : List Char) : Nat → List Char → List Char
  | _, [] => []
  | dropped + 1, _ :: rest => removeEach pattern dropped rest
  | 0, char :: rest =>
      if pattern.isPrefixOf (char :: rest) then removeEach pattern (pattern.length - 1) rest
      else char :: removeEach pattern 0 rest

def isBrace (char : Char) : Bool := char = '\x7b' || char = '\x7d'

/-- `UUID(text)`; `none` is `ValueError`. -/
def Uuid.ofPython? (text : String) : Option Uuid :=
  let named := removeEach "uuid:".toList 0 (removeEach "urn:".toList 0 text.toList)
  let hex := ((named.dropWhile isBrace).rdropWhile isBrace).filter fun char => char ≠ '-'
  if hex.length ≠ 32 then none
  else
    match readHexInt hex with
    | some value => if small : value < 2 ^ 128 then some ⟨⟨value, small⟩⟩ else none
    | none => none

def isAsciiHex (char : Char) : Bool :=
  '0' ≤ char && char ≤ '9' || 'a' ≤ char && char ≤ 'f' || 'A' ≤ char && char ≤ 'F'

/-- Thirty-two hexadecimal digits, with a hyphen only between two groups of
four. -/
def castForm : Nat → Bool → List Char → Bool
  | digits, afterDigit, [] => digits = 32 && afterDigit
  | digits, afterDigit, char :: rest =>
      if char = '-' then afterDigit && digits % 4 = 0 && digits < 32 && castForm digits false rest
      else isAsciiHex char && castForm (digits + 1) true rest

/-- `text::uuid`; `none` is `invalid input syntax for type uuid`. -/
def Uuid.cast? (text : String) : Option Uuid :=
  let body :=
    if text.toList.head? = some '\x7b' ∧ text.toList.getLast? = some '\x7d' then
      text.toList.tail.dropLast
    else text.toList
  if castForm 0 false body then
    match readHexDigits false 0 (body.filter fun char => char ≠ '-') with
    | some value => if small : value < 2 ^ 128 then some ⟨⟨value, small⟩⟩ else none
    | none => none
  else none

/-! ## What `str(uuid)` writes -/

def hexDigits : List Char :=
  ['0', '1', '2', '3', '4', '5', '6', '7', '8', '9', 'a', 'b', 'c', 'd', 'e', 'f']

/-- A table read as one test, since characters are a finite type of their own to `decide`. -/
theorem listed_meet {digits : List Char} {good : Char → Prop} [DecidablePred good]
    (met : digits.all (fun char => decide (good char)) = true) : ∀ char ∈ digits, good char := by
  simpa only [List.all_eq_true, decide_eq_true_eq] using met

theorem hex_text_digits (width value : Nat) : ∀ char ∈ hexText width value, char ∈ hexDigits := by
  have table : ∀ digit : Fin 16, Nat.digitChar digit.val ∈ hexDigits := by decide
  induction width generalizing value with
  | zero => simp [hexText]
  | succ width ih =>
      intro char member
      cases List.mem_append.mp member with
      | inl front => exact ih _ char front
      | inr last =>
          rw [List.mem_singleton.mp last]
          exact table ⟨value % 16, Nat.mod_lt _ (by decide)⟩

theorem uuid_chars_plain (uuid : Uuid) : ∀ char ∈ uuid.chars, char = '-' ∨ char ∈ hexDigits := by
  intro char member
  by_cases hyphen : char = '-'
  · exact Or.inl hyphen
  · have digit : char ∈ uuid.chars.filter fun char => char ≠ '-' := by
      simp [member, hyphen]
    rw [uuid_chars_without_hyphens] at digit
    exact Or.inr (hex_text_digits 32 _ char digit)

/-- On such digits the readers read alike. -/
theorem read_hex_digits_eq (start : Nat) (text : List Char) (all : ∀ char ∈ text, char ∈ hexDigits) :
    readHexDigits true start text = readHexFrom start text := by
  have table : ∀ char ∈ hexDigits, char ≠ '_' ∧ hexDigitValue char = hexValue char :=
    listed_meet (by decide)
  induction text generalizing start with
  | nil => rfl
  | cons char rest ih =>
      obtain ⟨notUnderscore, same⟩ := table char (all char List.mem_cons_self)
      rw [readHexDigits, readHexFrom, if_neg notUnderscore, same]
      cases hexValue char with
      | none => rfl
      | some digit => exact ih _ fun other member => all other (List.mem_cons_of_mem _ member)

theorem read_hex_digits_text (value : Nat) :
    readHexDigits false 0 (hexText 32 value) = some (value % 16 ^ 32) := by
  have table : ∀ char ∈ hexDigits, char ≠ '_' := listed_meet (by decide)
  have all := hex_text_digits 32 value
  have size := hex_text_length 32 value
  rw [← read_hex_text, ← read_hex_digits_eq 0 _ all]
  cases text : hexText 32 value with
  | nil =>
      rw [text] at size
      cases size
  | cons char rest =>
      rw [text] at all
      rw [readHexDigits, readHexDigits, if_neg (table char (all char List.mem_cons_self)),
        if_neg (table char (all char List.mem_cons_self))]

theorem remove_each_absent (first : Char) (others text : List Char) (absent : first ∉ text) :
    removeEach (first :: others) 0 text = text := by
  induction text with
  | nil => rfl
  | cons char rest ih =>
      obtain ⟨apart, later⟩ := not_or.mp (mt List.mem_cons.mpr absent)
      rw [removeEach, if_neg (by simp [List.isPrefixOf, apart]), ih later]

theorem drop_while_none (drops : Char → Bool) (text : List Char)
    (kept : ∀ char ∈ text, drops char = false) :
    (text.dropWhile drops).rdropWhile drops = text := by
  have front : text.dropWhile drops = text := by
    refine List.dropWhile_eq_self_iff.mpr fun some_ => ?_
    simp [kept _ (List.getElem_mem some_)]
  rw [front]
  refine List.rdropWhile_eq_self_iff.mpr fun some_ => ?_
  simp [kept _ (List.getLast_mem some_)]

theorem read_hex_int_text (value : Nat) : readHexInt (hexText 32 value) = some (value % 16 ^ 32) := by
  have table : ∀ char ∈ hexDigits, isIntSpace char = false ∧ char ≠ '+' ∧ char ≠ 'x' ∧ char ≠ 'X' :=
    listed_meet (by decide)
  have all := hex_text_digits 32 value
  have noPlus : withoutPlus (hexText 32 value) = hexText 32 value := by
    unfold withoutPlus
    split
    · rename_i rest text
      rw [text] at all
      exact absurd rfl (table '+' (all '+' List.mem_cons_self)).2.1
    · rfl
  have noPrefix : withoutHexPrefix (hexText 32 value) = hexText 32 value := by
    unfold withoutHexPrefix
    split
    · rename_i zero mark rest text
      rw [text] at all
      have plain := table mark (all mark (by simp))
      rw [if_neg (by simp [plain]), text]
    · rfl
  rw [readHexInt, drop_while_none isIntSpace _ fun char member => (table char (all char member)).1,
    noPlus, noPrefix, read_hex_digits_text]

theorem uuid_value_mod (uuid : Uuid) : uuid.value.val % 16 ^ 32 = uuid.value.val := by
  have bounded := uuid.value.isLt
  have size : (2 : Nat) ^ 128 = 16 ^ 32 := by decide
  exact Nat.mod_eq_of_lt (bounded.trans_eq size)

theorem uuid_of_python_text (uuid : Uuid) : Uuid.ofPython? uuid.text = some uuid := by
  have table : ∀ char ∈ hexDigits, char ≠ 'u' ∧ isBrace char = false :=
    listed_meet (by decide)
  have noName : 'u' ∉ uuid.chars := by
    intro member
    cases uuid_chars_plain uuid 'u' member with
    | inl hyphen => cases hyphen
    | inr digit => exact (table 'u' digit).1 rfl
  have noBrace : ∀ char ∈ uuid.chars, isBrace char = false := by
    intro char member
    cases uuid_chars_plain uuid char member with
    | inl hyphen =>
        rw [hyphen]
        decide
    | inr digit => exact (table char digit).2
  have urn : "urn:".toList = 'u' :: ['r', 'n', ':'] := by decide
  have named : "uuid:".toList = 'u' :: ['u', 'i', 'd', ':'] := by decide
  unfold Uuid.ofPython?
  simp only [Uuid.text, String.toList_ofList, urn, named, remove_each_absent 'u' _ _ noName,
    drop_while_none isBrace _ noBrace, uuid_chars_without_hyphens, hex_text_length,
    read_hex_int_text, uuid_value_mod]
  simp

/-! ### As the database reads it -/

theorem cast_form_digits (digits : Nat) (afterDigit : Bool) (first : Char) (part rest : List Char)
    (all : ∀ char ∈ first :: part, char ∈ hexDigits) :
    castForm digits afterDigit (first :: part ++ rest) =
      castForm (digits + (part.length + 1)) true rest := by
  have table : ∀ char ∈ hexDigits, char ≠ '-' ∧ isAsciiHex char = true :=
    listed_meet (by decide)
  induction part generalizing digits afterDigit first with
  | nil =>
      obtain ⟨noHyphen, hex⟩ := table first (all first (by simp))
      rw [List.singleton_append, castForm, if_neg noHyphen, hex, Bool.true_and]
      rfl
  | cons second part ih =>
      obtain ⟨noHyphen, hex⟩ := table first (all first (by simp))
      have later := ih (digits + 1) true second fun char member => all char
        (List.mem_cons_of_mem first member)
      rw [List.cons_append, castForm, if_neg noHyphen, hex, Bool.true_and, later, List.length_cons]
      congr 1
      omega

/-- A group of the text before a hyphen or the end. -/
theorem cast_form_group (digits : Nat) (afterDigit : Bool) (part rest : List Char) (some_ : part ≠ [])
    (all : ∀ char ∈ part, char ∈ hexDigits) :
    castForm digits afterDigit (part ++ rest) = castForm (digits + part.length) true rest := by
  cases part with
  | nil => exact absurd rfl some_
  | cons first part => exact cast_form_digits digits afterDigit first part rest all

theorem cast_form_hyphen (digits : Nat) (rest : List Char) (between : digits % 4 = 0 ∧ digits < 32) :
    castForm digits true ('-' :: rest) = castForm digits false rest := by
  rw [castForm, if_pos rfl]
  simp [between]

theorem cast_form_text (uuid : Uuid) : castForm 0 false uuid.chars = true := by
  have size := hex_text_length 32 uuid.value.val
  have all := hex_text_digits 32 uuid.value.val
  have inside : ∀ start width : Nat, ∀ char ∈ ((hexText 32 uuid.value.val).drop start).take width,
      char ∈ hexDigits := fun start width char member =>
    all char (List.mem_of_mem_drop (List.mem_of_mem_take member))
  have long : ∀ start width : Nat, start + width ≤ 32 →
      (((hexText 32 uuid.value.val).drop start).take width).length = width := by
    intro start width fits
    rw [List.length_take, List.length_drop, size]
    omega
  have group : ∀ (digits start width : Nat) (afterDigit : Bool) (rest : List Char), 0 < width →
      start + width ≤ 32 →
      castForm digits afterDigit (((hexText 32 uuid.value.val).drop start).take width ++ rest) =
        castForm (digits + width) true rest := by
    intro digits start width afterDigit rest wide fits
    have length := long start width fits
    rw [cast_form_group digits afterDigit _ rest (List.ne_nil_of_length_pos (by omega))
      (inside start width), length]
  have first : (hexText 32 uuid.value.val).take 8 =
      ((hexText 32 uuid.value.val).drop 0).take 8 := by rw [List.drop_zero]
  have last : (hexText 32 uuid.value.val).drop 20 =
      ((hexText 32 uuid.value.val).drop 20).take 12 ++ [] := by
    rw [List.append_nil, List.take_of_length_le (by rw [List.length_drop, size])]
  unfold Uuid.chars
  dsimp only
  rw [first, last, group 0 0 8 _ _ (by decide) (by decide), cast_form_hyphen _ _ (by decide),
    group _ 8 4 _ _ (by decide) (by decide), cast_form_hyphen _ _ (by decide),
    group _ 12 4 _ _ (by decide) (by decide), cast_form_hyphen _ _ (by decide),
    group _ 16 4 _ _ (by decide) (by decide), cast_form_hyphen _ _ (by decide),
    group _ 20 12 _ _ (by decide) (by decide)]
  rfl

theorem uuid_cast_text (uuid : Uuid) : Uuid.cast? uuid.text = some uuid := by
  have table : ∀ char ∈ '-' :: hexDigits, char ≠ '\x7b' := listed_meet (by decide)
  have noBraces : ¬(uuid.chars.head? = some '\x7b' ∧ uuid.chars.getLast? = some '\x7d') := by
    rintro ⟨first, _⟩
    have member := List.mem_of_head? first
    exact table '\x7b' (List.mem_cons.mpr (uuid_chars_plain uuid _ member)) rfl
  unfold Uuid.cast?
  simp only [Uuid.text, String.toList_ofList, if_neg noBraces, cast_form_text, if_true,
    uuid_chars_without_hyphens, read_hex_digits_text, uuid_value_mod]
  simp

end Morai.Python
