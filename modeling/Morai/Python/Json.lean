import Morai.Python.Values

/-!
# JSON values

What `response.json()` hands back and what `json.dumps` writes. A Python float
is kept as the numeral its `repr` writes, and a dict as its items in order.
-/

namespace Morai.Python

set_option autoImplicit false

inductive JsonValue where
  | null
  | bool (value : Bool)
  | int (value : Int)
  | float (numeral : String)
  | str (text : String)
  | array (items : List JsonValue)
  | object (fields : List (String × JsonValue))
  deriving Repr

/-! Equality is decided along the shape; a nested inductive derives no
instance. -/

mutual

def sameValue : JsonValue → JsonValue → Bool
  | .null, .null => true
  | .bool left, .bool right => left = right
  | .int left, .int right => left = right
  | .float left, .float right => left = right
  | .str left, .str right => left = right
  | .array left, .array right => sameItems left right
  | .object left, .object right => sameFields left right
  | _, _ => false

def sameItems : List JsonValue → List JsonValue → Bool
  | [], [] => true
  | left :: leftRest, right :: rightRest => sameValue left right && sameItems leftRest rightRest
  | _, _ => false

def sameFields : List (String × JsonValue) → List (String × JsonValue) → Bool
  | [], [] => true
  | (leftName, left) :: leftRest, (rightName, right) :: rightRest =>
      decide (leftName = rightName) && sameValue left right && sameFields leftRest rightRest
  | _, _ => false

end

mutual

theorem same_value_iff (left right : JsonValue) : sameValue left right = true ↔ left = right := by
  cases left with
  | array items =>
      cases right with
      | array others => simp only [sameValue, same_items_iff items others, JsonValue.array.injEq]
      | _ => simp [sameValue]
  | object fields =>
      cases right with
      | object others => simp only [sameValue, same_fields_iff fields others, JsonValue.object.injEq]
      | _ => simp [sameValue]
  | _ => cases right <;> simp [sameValue]

theorem same_items_iff (left right : List JsonValue) :
    sameItems left right = true ↔ left = right := by
  cases left with
  | nil => cases right <;> simp [sameItems]
  | cons item rest =>
      cases right with
      | nil => simp [sameItems]
      | cons other others =>
          simp only [sameItems, Bool.and_eq_true, same_value_iff item other,
            same_items_iff rest others, List.cons.injEq]

theorem same_fields_iff (left right : List (String × JsonValue)) :
    sameFields left right = true ↔ left = right := by
  cases left with
  | nil => cases right <;> simp [sameFields]
  | cons field rest =>
      obtain ⟨name, value⟩ := field
      cases right with
      | nil => simp [sameFields]
      | cons other others =>
          obtain ⟨otherName, otherValue⟩ := other
          simp only [sameFields, Bool.and_eq_true, decide_eq_true_eq, same_value_iff value otherValue,
            same_fields_iff rest others, List.cons.injEq, Prod.mk.injEq]

end

instance : DecidableEq JsonValue := fun left right =>
  decidable_of_iff (sameValue left right = true) (same_value_iff left right)

/-- `d.get(name)`. -/
def JsonValue.field (fields : List (String × JsonValue)) (name : String) : Option JsonValue :=
  (fields.find? fun entry => entry.1 = name).map Prod.snd

def unicodeEscape (unit : Nat) : List Char :=
  ['\\', 'u', hexDigit (unit / 4096), hexDigit (unit / 256), hexDigit (unit / 16), hexDigit unit]

/-- `ensure_ascii`: a character beyond the first plane is written as its
surrogate pair. -/
def escapeChar (char : Char) : List Char :=
  if char = '"' ∨ char = '\\' then ['\\', char]
  else if char = '\n' then ['\\', 'n']
  else if char = '\r' then ['\\', 'r']
  else if char = '\t' then ['\\', 't']
  else if char.toNat = 8 then ['\\', 'b']
  else if char.toNat = 12 then ['\\', 'f']
  else if 32 ≤ char.toNat ∧ char.toNat < 127 then [char]
  else if char.toNat < 65536 then unicodeEscape char.toNat
  else
    let offset := char.toNat - 65536
    unicodeEscape (55296 + offset / 1024) ++ unicodeEscape (56320 + offset % 1024)

def quotedText (text : String) : String :=
  "\"" ++ String.ofList (text.toList.flatMap escapeChar) ++ "\""

mutual

/-- `json.dumps(value)`. -/
def jsonDumps : JsonValue → String
  | .null => "null"
  | .bool value => if value then "true" else "false"
  | .int value => toString value
  | .float numeral => numeral
  | .str text => quotedText text
  | .array items => "[" ++ ", ".intercalate (dumpItems items) ++ "]"
  | .object fields => "\x7b" ++ ", ".intercalate (dumpFields fields) ++ "\x7d"

def dumpItems : List JsonValue → List String
  | [] => []
  | item :: rest => jsonDumps item :: dumpItems rest

def dumpFields : List (String × JsonValue) → List String
  | [] => []
  | (name, value) :: rest => (quotedText name ++ ": " ++ jsonDumps value) :: dumpFields rest

end

example : jsonDumps (.object [("ids", .array [.int 3, .null]), ("é\n", .str "😀")]) =
    "\x7b\"ids\": [3, null], \"\\u00e9\\n\": \"\\ud83d\\ude00\"\x7d" := by
  decide +kernel

end Morai.Python
