import Morai.Foundation.JoinedText
import Morai.Ingest.BrokerTransactions
import Morai.Ledger.Events
import Morai.Ledger.Fills
import Morai.Vendor.Connections

/-!
# The slots a ciphertext can stand in

Four modules bind a ciphertext to its row by associated data of their own
format. A fill's joins two free texts, the order id and the symbol, with the
colon that also separates them, and it renders the execution time through a
double.
-/

namespace Morai.Crypto.Slots

open Morai.Crypto Morai.Db Morai.Python Morai.Foundation.JoinedText Morai.Ledger.Fills
  Morai.Ledger.Events Morai.Ingest.BrokerTransactions Morai.Vendor.Connections

set_option autoImplicit false

inductive FillColumn where
  | quantity
  | priceUsd
  deriving DecidableEq, Repr

def FillColumn.name : FillColumn → String
  | .quantity => "quantity"
  | .priceUsd => "price_usd"

inductive EventColumn where
  | openDebitUsd
  | closeCreditUsd
  deriving DecidableEq, Repr

def EventColumn.name : EventColumn → String
  | .openDebitUsd => "open_debit_usd"
  | .closeCreditUsd => "close_credit_usd"

inductive ConnectionColumn where
  | token
  | accountHash
  deriving DecidableEq, Repr

def ConnectionColumn.name : ConnectionColumn → String
  | .token => "token_ciphertext"
  | .accountHash => "account_hash_ciphertext"

/-- The encrypted columns of one user's rows, with the rest of the row's
key. -/
inductive Slot where
  | fill (column : FillColumn) (key : FillKey)
  | event (column : EventColumn) (eventId : Uuid)
  | brokerRaw (activityId : String)
  | connection (column : ConnectionColumn)
  deriving DecidableEq, Repr

def associatedData (userId : Uuid) : Slot → String
  | .fill column key => fillAssociatedData column.name userId key
  | .event column eventId => eventAssociatedData column.name eventId
  | .brokerRaw activityId => brokerTransactionAssociatedData "raw_ciphertext" userId activityId
  | .connection column => connectionAssociatedData column.name userId

/-- The order id and the symbol as they stand in the associated data. -/
def joinedKey (key : FillKey) : String := key.orderId ++ ":" ++ key.occSymbol

/-- Two keys whose order id and symbol join to one text, at one leg index and
at execution times rendered alike. -/
def JoinAlike (left right : FillKey) : Prop :=
  joinedKey left = joinedKey right ∧ left.legIndex = right.legIndex ∧
    timestampMicros left.executionTime = timestampMicros right.executionTime

instance decidableJoinAlike (left right : FillKey) : Decidable (JoinAlike left right) :=
  inferInstanceAs (Decidable (_ ∧ _ ∧ _))

/-- The slots of one fill column whose keys join alike. -/
def RendersAlike : Slot → Slot → Prop
  | .fill column key, .fill otherColumn otherKey => column = otherColumn ∧ JoinAlike key otherKey
  | _, _ => False

instance decidableRendersAlike : ∀ left right, Decidable (RendersAlike left right)
  | .fill column key, .fill otherColumn otherKey =>
      inferInstanceAs (Decidable (column = otherColumn ∧ JoinAlike key otherKey))
  | .fill _ _, .event _ _ | .fill _ _, .brokerRaw _ | .fill _ _, .connection _
  | .event _ _, _ | .brokerRaw _, _ | .connection _, _ => isFalse id

/-! ## One format at a time -/

theorem fill_columns_differ (rest other : List Char) :
    "quantity".toList ++ rest ≠ "price_usd".toList ++ other := by
  intro same
  exact absurd (List.cons.inj same).1 (by decide)

theorem fill_front_iff (userId : Uuid) (left right : FillColumn) (key otherKey : FillKey) :
    "fills:" ++ left.name ++ ":" ++ userId.text ++ ":" ++ key.orderId ++ ":" ++ key.occSymbol =
        "fills:" ++ right.name ++ ":" ++ userId.text ++ ":" ++ otherKey.orderId ++ ":" ++
          otherKey.occSymbol ↔
      left = right ∧ joinedKey key = joinedKey otherKey := by
  have joinedIff : joinedKey key = joinedKey otherKey ↔
      (joinedKey key).toList = (joinedKey otherKey).toList := String.toList_inj.symm
  rw [joinedIff, ← String.toList_inj]
  simp only [joinedKey, String.toList_append, List.append_assoc, List.append_cancel_left_eq]
  cases left <;> cases right
  · simp only [FillColumn.name, List.append_cancel_left_eq, true_and]
  · simp only [FillColumn.name, fill_columns_differ, reduceCtorEq, false_and]
  · simp only [FillColumn.name, Ne.symm (fill_columns_differ _ _), reduceCtorEq, false_and]
  · simp only [FillColumn.name, List.append_cancel_left_eq, true_and]

theorem fill_data_iff (userId : Uuid) (left right : FillColumn) (key otherKey : FillKey) :
    fillAssociatedData left.name userId key = fillAssociatedData right.name userId otherKey ↔
      left = right ∧ JoinAlike key otherKey := by
  unfold fillAssociatedData microsText
  rw [last_text_iff _ _ _ _ (int_text_colon_free _) (int_text_colon_free _),
    last_text_iff _ _ _ _ (int_text_colon_free _) (int_text_colon_free _), fill_front_iff,
    int_text_iff, int_text_iff, JoinAlike, and_assoc, and_assoc]

theorem uuid_text_iff (left right : Uuid) : left.text = right.text ↔ left = right := by
  constructor
  · intro same
    have read := uuid_of_text left
    rw [same, uuid_of_text] at read
    exact (Option.some.inj read).symm
  · exact congrArg Uuid.text

theorem event_data_iff (left right : EventColumn) (eventId otherId : Uuid) :
    eventAssociatedData left.name eventId = eventAssociatedData right.name otherId ↔
      left = right ∧ eventId = otherId := by
  unfold eventAssociatedData
  constructor
  · intro same
    cases left <;> cases right
    · exact ⟨rfl, (uuid_text_iff _ _).mp ((append_left_iff _ _ _).mp same)⟩
    · have chars := congrArg String.toList same
      simp [EventColumn.name, String.toList_append] at chars
    · have chars := congrArg String.toList same
      simp [EventColumn.name, String.toList_append] at chars
    · exact ⟨rfl, (uuid_text_iff _ _).mp ((append_left_iff _ _ _).mp same)⟩
  · intro same
    rw [same.1, same.2]

theorem broker_data_iff (userId : Uuid) (left right : String) :
    brokerTransactionAssociatedData "raw_ciphertext" userId left =
      brokerTransactionAssociatedData "raw_ciphertext" userId right ↔ left = right := by
  unfold brokerTransactionAssociatedData
  rw [append_left_iff]

theorem connection_data_iff (userId : Uuid) (left right : ConnectionColumn) :
    connectionAssociatedData left.name userId = connectionAssociatedData right.name userId ↔
      left = right := by
  unfold connectionAssociatedData
  constructor
  · intro same
    have chars := congrArg String.toList same
    cases left <;> cases right
    · rfl
    · simp [ConnectionColumn.name, String.toList_append] at chars
    · simp [ConnectionColumn.name, String.toList_append] at chars
    · rfl
  · intro same
    rw [same]

/-! ## Across the formats -/

/-- The first letter of the table's name tells the formats apart. -/
def tableLetter : Slot → Char
  | .fill _ _ => 'f'
  | .event _ _ => 'e'
  | .brokerRaw _ => 'b'
  | .connection _ => 's'

theorem head_of_append (front rest : String) (letter : Char)
    (first : front.toList.head? = some letter) : (front ++ rest).toList.head? = some letter := by
  rw [String.toList_append, List.head?_append, first, Option.some_or]

theorem associated_data_head (userId : Uuid) (slot : Slot) :
    (associatedData userId slot).toList.head? = some (tableLetter slot) := by
  cases slot with
  | fill column key =>
      unfold associatedData fillAssociatedData
      iterate 11 apply head_of_append
      rfl
  | event column eventId =>
      unfold associatedData eventAssociatedData
      iterate 3 apply head_of_append
      rfl
  | brokerRaw activityId =>
      unfold associatedData brokerTransactionAssociatedData
      iterate 5 apply head_of_append
      rfl
  | connection column =>
      unfold associatedData connectionAssociatedData
      iterate 3 apply head_of_append
      rfl

theorem associated_data_iff (userId : Uuid) (left right : Slot) :
    associatedData userId left = associatedData userId right ↔
      left = right ∨ RendersAlike left right := by
  have sameLetter : associatedData userId left = associatedData userId right →
      tableLetter left = tableLetter right := by
    intro same
    have heads := associated_data_head userId left
    rw [same, associated_data_head] at heads
    exact (Option.some.inj heads).symm
  cases left with
  | fill column key =>
      cases right with
      | fill otherColumn otherKey =>
          simp only [associatedData, fill_data_iff, RendersAlike, Slot.fill.injEq]
          constructor
          · exact Or.inr
          · intro alike
            cases alike with
            | inl same => exact ⟨same.1, by rw [same.2]; exact ⟨rfl, rfl, rfl⟩⟩
            | inr joined => exact joined
      | _ => simpa [RendersAlike, tableLetter] using sameLetter
  | event column eventId =>
      cases right with
      | event otherColumn otherId =>
          simp only [associatedData, event_data_iff, RendersAlike, Slot.event.injEq, or_false]
      | _ => simpa [RendersAlike, tableLetter] using sameLetter
  | brokerRaw activityId =>
      cases right with
      | brokerRaw otherId =>
          simp only [associatedData, broker_data_iff, RendersAlike, Slot.brokerRaw.injEq, or_false]
      | _ => simpa [RendersAlike, tableLetter] using sameLetter
  | connection column =>
      cases right with
      | connection otherColumn =>
          simp only [associatedData, connection_data_iff, RendersAlike, Slot.connection.injEq,
            or_false]
      | _ => simpa [RendersAlike, tableLetter] using sameLetter

/-! ## What is bound to its slot -/

/-- Two different slots of one user have different associated data, and no key
opens in one of them a value encrypted for the other, exactly when they are
not two fills whose keys join alike. -/
theorem slots_bound_iff (keys : KeyService) (ideal : keys.toEnvelope.Ideal) (userId : Uuid)
    (left right : Slot) (different : left ≠ right) :
    (associatedData userId left ≠ associatedData userId right ↔ ¬RendersAlike left right) ∧
      ∀ plaintext dek nonce,
        (∀ otherNonce otherDek, keys.decryptField
            (keys.encryptField plaintext dek (associatedData userId left) nonce) otherNonce otherDek
            (associatedData userId right) = none) ↔ ¬RendersAlike left right := by
  have sameData : associatedData userId left = associatedData userId right ↔
      RendersAlike left right := by
    rw [associated_data_iff, or_iff_right different]
  refine ⟨not_congr sameData, ?_⟩
  intro plaintext dek nonce
  constructor
  · intro closed alike
    have opened := keys.decrypt_encrypt plaintext dek (associatedData userId left) nonce
    have never := closed nonce dek
    rw [← sameData.mpr alike, opened] at never
    cases never
  · intro apart otherNonce otherDek
    cases opened : keys.decryptField
        (keys.encryptField plaintext dek (associatedData userId left) nonce) otherNonce otherDek
        (associatedData userId right) with
    | none => rfl
    | some found =>
        have exact := ideal.decrypt_exact _ _ _ _ _ _ _ _ opened
        exact absurd (sameData.mp exact.2.2.symm) apart

/-- Without a colon in the symbols, and at execution times that are rendered
exactly, a fill's key is told apart whatever the order ids are. -/
theorem join_alike_plain (left right : FillKey) (leftPlain : ':' ∉ left.occSymbol.toList)
    (rightPlain : ':' ∉ right.occSymbol.toList)
    (leftTime : 1125899906842624 < left.executionTime ∧ left.executionTime < 2147483648000000)
    (rightTime : 1125899906842624 < right.executionTime ∧ right.executionTime < 2147483648000000)
    (alike : JoinAlike left right) : left = right := by
  obtain ⟨joined, sameLeg, sameTime⟩ := alike
  obtain ⟨sameOrder, sameSymbol⟩ := (last_text_iff _ _ _ _ leftPlain rightPlain).mp joined
  rw [timestamp_micros_exact left.executionTime leftTime.1 leftTime.2,
    timestamp_micros_exact right.executionTime rightTime.1 rightTime.2] at sameTime
  cases left
  cases right
  simp_all

def soldCall : FillKey := ⟨"7001", "SPXW260320C05000000", 0, 1781793000000000⟩

theorem slots_bound_iff_columns :
    idealEnvelope.decryptField
      (idealEnvelope.encryptField "2" [7] (associatedData ⟨1⟩ (.fill .quantity soldCall)) [3])
      [3] [7] (associatedData ⟨1⟩ (.fill .priceUsd soldCall)) = none := by
  have bound := slots_bound_iff (idealEnvelope.under [5]) ideal_envelope_ideal ⟨1⟩
    (.fill .quantity soldCall) (.fill .priceUsd soldCall) (by decide)
  exact (bound.2 "2" [7] [3]).mpr (by decide) [3] [7]

/-- A colon that ends the order id or begins the symbol, and two times a
microsecond apart in 2038 whose products are cut off alike. -/
theorem distinct_fills_open_alike :
    (Slot.fill .quantity ⟨"7001:A", "B", 0, 1000⟩ ≠ .fill .quantity ⟨"7001", "A:B", 0, 1000⟩ ∧
      ∀ plaintext dek nonce, idealEnvelope.decryptField
        (idealEnvelope.encryptField plaintext dek
          (associatedData ⟨1⟩ (.fill .quantity ⟨"7001:A", "B", 0, 1000⟩)) nonce) nonce dek
        (associatedData ⟨1⟩ (.fill .quantity ⟨"7001", "A:B", 0, 1000⟩)) = some plaintext) ∧
    (Slot.fill .quantity ⟨"7001", "B", 0, 2169250975670107⟩ ≠
        .fill .quantity ⟨"7001", "B", 0, 2169250975670108⟩ ∧
      associatedData ⟨1⟩ (.fill .quantity ⟨"7001", "B", 0, 2169250975670107⟩) =
        associatedData ⟨1⟩ (.fill .quantity ⟨"7001", "B", 0, 2169250975670108⟩)) := by
  have colon : associatedData ⟨1⟩ (.fill .quantity ⟨"7001:A", "B", 0, 1000⟩) =
      associatedData ⟨1⟩ (.fill .quantity ⟨"7001", "A:B", 0, 1000⟩) :=
    (associated_data_iff _ _ _).mpr (Or.inr (by decide +kernel))
  refine ⟨⟨by decide, ?_⟩, by decide, (associated_data_iff _ _ _).mpr (Or.inr (by decide +kernel))⟩
  intro plaintext dek nonce
  rw [← colon]
  exact idealEnvelope.decrypt_encrypt _ _ _ _

end Morai.Crypto.Slots
