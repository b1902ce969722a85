import Morai.Crypto.Envelope
import Morai.Python.Json

/-!
# The raw copy of the vendor's elements

`insert_broker_transactions` encrypts each raw element as its JSON text and
inserts with `ON CONFLICT DO NOTHING` on `(user_id, activity_id)`, chunk by
chunk.
-/

namespace Morai.Ingest.BrokerTransactions

open Morai.Crypto Morai.Db Morai.Python Morai.Foundation.PrimaryKey

set_option autoImplicit false

/-- NN-5, OPS-05. -/
def chunkSize : Nat := 2000

structure BrokerTransactionWrite where
  activityId : String
  transactionType : String
  transactionTime : Instant
  orderId : Option String
  rawPayload : JsonValue

/-- The columns take the row; the payload is stored as bytes. -/
def BrokerTransactionWrite.Fits (write : BrokerTransactionWrite) : Prop :=
  TextFits write.activityId ∧ TextFits write.transactionType ∧
    InstantFits write.transactionTime ∧ ∀ orderId ∈ write.orderId, TextFits orderId

instance (write : BrokerTransactionWrite) : Decidable write.Fits :=
  inferInstanceAs (Decidable (_ ∧ _))

/-- `_broker_transaction_associated_data`. -/
def brokerTransactionAssociatedData (column : String) (userId : Uuid) (activityId : String) :
    String :=
  "broker_transactions:" ++ column ++ ":" ++ userId.text ++ ":" ++ activityId

variable (keys : KeyService)

/-- One entry of `values`. -/
def brokerTransactionRow (userId : Uuid) (dek : Bytes) (keyVersion : Int) (rawNonce : Bytes)
    (write : BrokerTransactionWrite) : BrokerTransaction :=
  { userId := userId
    activityId := write.activityId
    transactionType := write.transactionType
    transactionTime := write.transactionTime
    orderId := write.orderId
    rawCiphertext := keys.encryptField (jsonDumps write.rawPayload) dek
      (brokerTransactionAssociatedData "raw_ciphertext" userId write.activityId) rawNonce
    rawNonce := rawNonce
    keyVersion := keyVersion }

/-- The rows of a batch; the one at position `i` draws `draws i`. -/
def brokerTransactionRows (userId : Uuid) (dek : Bytes) (keyVersion : Int) (draws : Nat → Bytes)
    (writes : List (BrokerTransactionWrite × Nat)) : List BrokerTransaction :=
  writes.map fun write =>
    brokerTransactionRow keys userId dek keyVersion (draws write.2) write.1

/-- Of rows that fit their columns. -/
def insertBrokerTransactions (draws : Nat → Bytes) (userId : Uuid)
    (rows : List BrokerTransactionWrite) (db : Database) : Except Raised (Nat × Database) :=
  if rows.isEmpty then .ok (0, db)
  else do
    let (dek, keyVersion) ← currentDek keys db userId
    let chunks := chunksOf chunkSize rows.zipIdx
    let inserted := insertChunked db.brokerTransactions
      (chunks.map (brokerTransactionRows keys userId dek keyVersion draws))
    .ok (inserted.2.length, { db with brokerTransactions := inserted.1 })

theorem insert_broker_transactions_rows (draws : Nat → Bytes) (userId : Uuid)
    (rows : List BrokerTransactionWrite) (db : Database) (dek : Bytes) (keyVersion : Int)
    (current : currentDek keys db userId = .ok (dek, keyVersion)) :
    insertBrokerTransactions keys draws userId rows db =
      .ok ((insertOrSkip db.brokerTransactions
          (brokerTransactionRows keys userId dek keyVersion draws rows.zipIdx)).2.length,
        { db with brokerTransactions := (insertOrSkip db.brokerTransactions
          (brokerTransactionRows keys userId dek keyVersion draws rows.zipIdx)).1 }) := by
  cases rows with
  | nil => simp [insertBrokerTransactions, brokerTransactionRows, insertOrSkip]
  | cons row rest =>
      have joined : ((chunksOf chunkSize (row :: rest).zipIdx).map
          (brokerTransactionRows keys userId dek keyVersion draws)).flatten =
          brokerTransactionRows keys userId dek keyVersion draws (row :: rest).zipIdx := by
        have whole := chunks_of_flatten chunkSize (row :: rest).zipIdx (by decide)
        conv_rhs => rw [← whole]
        simp only [brokerTransactionRows, List.map_flatten]
        rfl
      simp only [insertBrokerTransactions, List.isEmpty_cons, Bool.false_eq_true, if_false,
        current, bind, Except.bind, insert_chunked_flatten, joined]

/-- The count returned is the number of rows added to the table. -/
theorem insert_broker_transactions_grows (draws : Nat → Bytes) (userId : Uuid)
    (rows : List BrokerTransactionWrite) (landed : Nat) (db after : Database)
    (inserted : insertBrokerTransactions keys draws userId rows db = .ok (landed, after)) :
    after = { db with brokerTransactions := after.brokerTransactions } ∧
      ∃ added, after.brokerTransactions.rows = db.brokerTransactions.rows ++ added ∧
        added.length = landed := by
  unfold insertBrokerTransactions at inserted
  split_ifs at inserted with empty
  · cases inserted
    exact ⟨rfl, [], (List.append_nil _).symm, rfl⟩
  · obtain ⟨found, _, written⟩ := bind_ok _ _ _ inserted
    cases written
    refine ⟨rfl, _, ?_, rfl⟩
    rw [insert_chunked_flatten]
    apply insert_or_skip_rows

theorem broker_transaction_rows_keys (userId : Uuid) (dek : Bytes) (keyVersion : Int)
    (draws : Nat → Bytes) (writes : List BrokerTransactionWrite) :
    (brokerTransactionRows keys userId dek keyVersion draws writes.zipIdx).map
        BrokerTransaction.primaryKey = writes.map fun write => (userId, write.activityId) := by
  rw [brokerTransactionRows, List.map_map]
  have split : (BrokerTransaction.primaryKey ∘ fun write : BrokerTransactionWrite × Nat =>
      brokerTransactionRow keys userId dek keyVersion (draws write.2) write.1) =
      (fun write : BrokerTransactionWrite => (userId, write.activityId)) ∘ Prod.fst := rfl
  rw [split, ← List.map_map, List.zipIdx_map_fst]

theorem mem_broker_transaction_rows (userId : Uuid) (dek : Bytes) (keyVersion : Int)
    (draws : Nat → Bytes) (writes : List BrokerTransactionWrite) (row : BrokerTransaction)
    (member : row ∈ brokerTransactionRows keys userId dek keyVersion draws writes.zipIdx) :
    ∃ write ∈ writes, ∃ nonce,
      row = brokerTransactionRow keys userId dek keyVersion nonce write := by
  obtain ⟨indexed, indexedMember, shape⟩ := List.mem_map.mp member
  exact ⟨indexed.1, List.fst_mem_of_mem_zipIdx indexedMember, _, shape.symm⟩

/-- What is stored under the raw payload's own key decrypts to its text. -/
theorem broker_transaction_row_decrypts (userId : Uuid) (dek : Bytes) (keyVersion : Int)
    (rawNonce : Bytes) (write : BrokerTransactionWrite) :
    keys.decryptField
        (brokerTransactionRow keys userId dek keyVersion rawNonce write).rawCiphertext
        (brokerTransactionRow keys userId dek keyVersion rawNonce write).rawNonce dek
        (brokerTransactionAssociatedData "raw_ciphertext" userId write.activityId) =
      some (jsonDumps write.rawPayload) :=
  keys.decrypt_encrypt _ _ _ _

end Morai.Ingest.BrokerTransactions
