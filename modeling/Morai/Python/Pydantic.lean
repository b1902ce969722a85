import Mathlib.Data.List.Forall2
import Morai.Python.Decimal
import Morai.Python.Json

/-!
# Validation of JSON values

How a model class reads one JSON value: the shape of objects, lists and
optional fields is here, in lax mode and with unknown fields ignored; what a
number, a decimal or a datetime may look like is the library's, and so is its
JSON parser.
-/

namespace Morai.Python

set_option autoImplicit false

/-- `none` is a validation error. -/
structure Pydantic where
  integer : JsonValue → Option Int
  decimal : JsonValue → Option Decimal
  datetime : JsonValue → Option Instant
  validateJson : String → Option JsonValue

variable {Value : Type}

/-- `str`: nothing else is read as a text. -/
def validateText : JsonValue → Option String
  | .str text => some text
  | _ => none

/-- `T | None`. -/
def validateOptional (validate : JsonValue → Option Value) : JsonValue → Option (Option Value)
  | .null => some none
  | value => (validate value).map some

/-- `list[T]`: one element that does not validate rejects the list. -/
def validateList (validate : JsonValue → Option Value) : JsonValue → Option (List Value)
  | .array items => items.mapM validate
  | _ => none

/-- A field with a default; the default is not validated. -/
def validateField (default : Value) (validate : JsonValue → Option Value) :
    Option JsonValue → Option Value
  | none => some default
  | some value => validate value

/-- `populate_by_name`: the alias first, then the field's own name. -/
def aliased (fields : List (String × JsonValue)) (aliasName name : String) : Option JsonValue :=
  (JsonValue.field fields aliasName).or (JsonValue.field fields name)

theorem map_m_some_iff {Item : Type} (validate : Item → Option Value) (items : List Item)
    (values : List Value) :
    items.mapM validate = some values ↔
      items.Forall₂ (fun item value => validate item = some value) values := by
  induction items generalizing values with
  | nil => cases values <;> simp
  | cons item rest ih =>
      rw [List.mapM_cons]
      constructor
      · intro made
        obtain ⟨value, first, later⟩ := Option.bind_eq_some_iff.mp made
        obtain ⟨others, remaining, whole⟩ := Option.bind_eq_some_iff.mp later
        cases whole
        exact List.Forall₂.cons first ((ih others).mp remaining)
      · intro each
        cases each with
        | cons first remaining =>
            rw [first, (ih _).mpr remaining]
            rfl

/-- A list is accepted exactly when each element is on its own. -/
theorem map_m_accepts_iff {Item : Type} (validate : Item → Option Value) (items : List Item) :
    (∃ values, items.mapM validate = some values) ↔
      ∀ item ∈ items, ∃ value, validate item = some value := by
  simp only [map_m_some_iff]
  induction items with
  | nil => simp
  | cons item rest ih =>
      rw [List.forall_mem_cons, ← ih]
      constructor
      · intro found
        obtain ⟨values, each⟩ := found
        cases each with
        | cons first remaining => exact ⟨⟨_, first⟩, _, remaining⟩
      · intro found
        obtain ⟨⟨value, first⟩, values, remaining⟩ := found
        exact ⟨value :: values, List.Forall₂.cons first remaining⟩

/-! ## A reading that evaluates

Enough of the library's conversions for concrete payloads: integers, numerals,
UTC datetimes to the second, and JSON texts that are one unescaped string. -/

/-- Days since the epoch in the proleptic Gregorian calendar, years counted
from March. -/
def civilDays (year month day : Int) : Int :=
  let shifted := if month ≤ 2 then year - 1 else year
  let era := shifted / 400
  let yearOfEra := shifted - era * 400
  let dayOfYear := (153 * (if 2 < month then month - 3 else month + 9) + 2) / 5 + day - 1
  era * 146097 + (yearOfEra * 365 + yearOfEra / 4 - yearOfEra / 100 + dayOfYear) - 719468

/-- `YYYY-MM-DDTHH:MM:SS+00:00`. -/
def readUtcDatetime (text : String) : Option Instant := do
  let chars := text.toList
  let number := fun start size => Decimal.readDigits ((chars.drop start).take size)
  let year ← number 0 4
  let month ← number 5 2
  let day ← number 8 2
  let hour ← number 11 2
  let minute ← number 14 2
  let second ← number 17 2
  let marks := [4, 7, 10, 13, 16].map fun place => chars.getD place ' '
  if marks = ['-', '-', 'T', ':', ':'] ∧ chars.drop 19 = "+00:00".toList ∧
      1 ≤ month ∧ month ≤ 12 ∧ 1 ≤ day ∧ day ≤ 31 ∧ hour < 24 ∧ minute < 60 ∧ second < 60 then
    some (civilDays year month day * dayMicros +
      ((hour * 60 + minute) * 60 + second) * 1000000)
  else none

def readPlainString (text : String) : Option JsonValue :=
  match text.toList with
  | '"' :: rest =>
      let body := rest.dropLast
      if rest.getLast? = some '"' ∧
          body.all fun char => char ≠ '"' ∧ char ≠ '\\' ∧ 32 ≤ char.toNat then
        some (.str (String.ofList body))
      else none
  | _ => none

def plainPydantic : Pydantic where
  integer
    | .int value => some value
    | .bool value => some (if value then 1 else 0)
    | _ => none
  decimal
    | .int value => some ⟨value, 0⟩
    | .float numeral => Decimal.ofStr? numeral
    | .str text => Decimal.ofStr? text
    | _ => none
  datetime
    | .str text => readUtcDatetime text
    | _ => none
  validateJson := readPlainString

example : plainPydantic.datetime (.str "2026-06-18T14:30:00+00:00") =
    some 1781793000000000 := by
  decide +kernel

end Morai.Python
