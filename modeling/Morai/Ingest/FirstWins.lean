import Morai.Ingest.BrokerTransactions
import Morai.Ingest.ExtractFills

/-!
# Chunked inserts as one

However a batch is cut into statements, the two ledger inserts leave what one
first-wins insert of all its rows leaves, and count as many.
-/

namespace Morai.Ingest.FirstWins

open Morai.Crypto Morai.Db Morai.Python Morai.Foundation.PrimaryKey Morai.Ledger.Fills
open Morai.Ingest.BrokerTransactions Morai.Ingest.ExtractFills

set_option autoImplicit false

/-- A batch of items stored as rows, in whatever pieces. -/
structure InsertsOnce {Item Row Key : Type} [DecidableEq Key] {key : Row → Key}
    (before after : KeyedTable key) (rowsOf : List Item → List Row) (items : List Item)
    (landed : Nat) : Prop where
  firstWins : FirstWins before after (rowsOf items) landed
  anyPieces : ∀ pieces : List (List Item), pieces.flatten = items →
    (insertChunked before (pieces.map rowsOf)).1 = after ∧
      (insertChunked before (pieces.map rowsOf)).2.length = landed

theorem inserts_once_of_map {Item Row Key : Type} [DecidableEq Key] {key : Row → Key}
    (before : KeyedTable key) (rowOf : Item → Row) (items : List Item) :
    InsertsOnce before (insertOrSkip before (items.map rowOf)).1 (List.map rowOf) items
      (insertOrSkip before (items.map rowOf)).2.length := by
  constructor
  · exact insert_or_skip_first_wins before (items.map rowOf)
  · intro pieces whole
    rw [insert_chunked_pieces, whole]
    exact ⟨rfl, rfl⟩

variable (keys : KeyService)

/-- **Both inserts are one first-wins insert, wherever the chunks end.** Each
item of the batch is one of its rows, under the item's own key. -/
theorem inserts_first_wins (userId : Uuid) (db : Database) (dek : Bytes) (keyVersion : Int)
    (current : currentDek keys db userId = .ok (dek, keyVersion)) :
    (∀ (draws : Nat → FillDraw) (fills : List FillWrite), ∃ landed table,
      insertFills keys draws userId fills db = .ok (landed, { db with fills := table }) ∧
        (fillRows keys userId dek keyVersion draws fills.zipIdx).map Fill.primaryKey =
          fills.map (fun fill => (userId, fill.key)) ∧
        InsertsOnce db.fills table (fillRows keys userId dek keyVersion draws) fills.zipIdx
          landed) ∧
    ∀ (draws : Nat → Bytes) (rows : List BrokerTransactionWrite), ∃ landed table,
      insertBrokerTransactions keys draws userId rows db =
          .ok (landed, { db with brokerTransactions := table }) ∧
        (brokerTransactionRows keys userId dek keyVersion draws rows.zipIdx).map
            BrokerTransaction.primaryKey = rows.map (fun row => (userId, row.activityId)) ∧
        InsertsOnce db.brokerTransactions table
          (brokerTransactionRows keys userId dek keyVersion draws) rows.zipIdx landed := by
  constructor
  · intro draws fills
    exact ⟨_, _, insert_fills_rows keys draws userId fills db dek keyVersion current,
      fill_rows_keys keys userId dek keyVersion draws fills,
      inserts_once_of_map db.fills _ fills.zipIdx⟩
  · intro draws rows
    exact ⟨_, _, insert_broker_transactions_rows keys draws userId rows db dek keyVersion current,
      broker_transaction_rows_keys keys userId dek keyVersion draws rows,
      inserts_once_of_map db.brokerTransactions _ rows.zipIdx⟩

/-- Two fills of one key with different quantities. -/
def offeredTwice : List FillWrite :=
  [executionOf 1 "SPXW  260320C05000000" 1, executionOf 2 "SPXW  260320C05000000" 2].flatMap fillsOf

theorem inserts_first_wins_offered_twice :
    ∃ landed table, insertFills plainKeys plainDraw ⟨1⟩ offeredTwice provisionedUser =
        .ok (landed, { provisionedUser with fills := table }) ∧
      (fillRows plainKeys ⟨1⟩ [7] 1 plainDraw offeredTwice.zipIdx).map Fill.primaryKey =
        offeredTwice.map (fun fill => (⟨1⟩, fill.key)) ∧
      InsertsOnce provisionedUser.fills table (fillRows plainKeys ⟨1⟩ [7] 1 plainDraw)
        offeredTwice.zipIdx landed :=
  (inserts_first_wins plainKeys ⟨1⟩ provisionedUser [7] 1 (by decide)).1 plainDraw offeredTwice

end Morai.Ingest.FirstWins
