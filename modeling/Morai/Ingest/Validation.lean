import Morai.Ingest.ExtractFills
import Morai.Python.Pydantic

/-!
# The typed vendor boundary

`_Instrument`, `_TransferItem`, `_Transaction` and the list adapters of
`schwab_sync.py`, field by field: alias, own name, default and type.
-/

namespace Morai.Ingest.Validation

open Morai.Db Morai.Python Morai.Ingest.ExtractFills

set_option autoImplicit false

variable (pydantic : Pydantic)

/-- `int | str`, the text kept whenever there is one. -/
def validateActivityId : JsonValue → Option ActivityId
  | .str text => some (.text text)
  | value => (pydantic.integer value).map .number

def validateInstrument : JsonValue → Option Instrument
  | .object fields => do
      let symbol ← validateField none (validateOptional validateText)
        (JsonValue.field fields "symbol")
      let assetType ← validateField none (validateOptional validateText)
        (aliased fields "assetType" "asset_type")
      some { symbol := symbol, assetType := assetType }
  | _ => none

def validateTransferItem : JsonValue → Option TransferItem
  | .object fields => do
      let money := validateField none (validateOptional pydantic.decimal)
      let instrument ← validateField none (validateOptional validateInstrument)
        (JsonValue.field fields "instrument")
      let amount ← money (JsonValue.field fields "amount")
      let price ← money (JsonValue.field fields "price")
      let cost ← money (JsonValue.field fields "cost")
      let positionEffect ← validateField none (validateOptional validateText)
        (aliased fields "positionEffect" "position_effect")
      some { instrument := instrument, amount := amount, price := price, cost := cost
             positionEffect := positionEffect }
  | _ => none

def validateTransaction : JsonValue → Option Transaction
  | .object fields => do
      let activityId ← (aliased fields "activityId" "activity_id").bind
        (validateActivityId pydantic)
      let type ← (JsonValue.field fields "type").bind validateText
      let time ← (JsonValue.field fields "time").bind pydantic.datetime
      let orderId ← validateField none (validateOptional validateText)
        (aliased fields "orderId" "order_id")
      let transferItems ← validateField [] (validateList (validateTransferItem pydantic))
        (aliased fields "transferItems" "transfer_items")
      some { activityId := activityId, type := type, time := time, orderId := orderId
             transferItems := transferItems }
  | _ => none

/-- `_JSON_LIST.validate_python`. -/
def validateJsonList : JsonValue → Except Raised (List JsonValue)
  | .array items => .ok items
  | _ => .error .validationError

/-- `_TRANSACTIONS.validate_python`. -/
def validateTransactions (rawElements : List JsonValue) : Except Raised (List Transaction) :=
  match rawElements.mapM (validateTransaction pydantic) with
  | some transactions => .ok transactions
  | none => .error .validationError

/-- The element validates as a `_Transaction` on its own. -/
def Validates (element : JsonValue) : Prop :=
  ∃ transaction, validateTransaction pydantic element = some transaction

instance (element : JsonValue) : Decidable (Validates pydantic element) :=
  decidable_of_iff ((validateTransaction pydantic element).isSome = true) Option.isSome_iff_exists

/-- The whole list or nothing. -/
theorem validate_transactions_ok_iff (rawElements : List JsonValue) :
    (∃ transactions, validateTransactions pydantic rawElements = .ok transactions) ↔
      ∀ element ∈ rawElements, Validates pydantic element := by
  unfold Validates
  rw [← map_m_accepts_iff]
  unfold validateTransactions
  cases found : rawElements.mapM (validateTransaction pydantic) <;> simp

end Morai.Ingest.Validation
