import Morai.Ingest.BrokerTransactions
import Morai.Ingest.SyncWindows
import Morai.Ingest.Validation
import Morai.Vendor.Connections

/-!
# One sync of one user

`sync_user` inside the transaction its caller owns: the database argument is
what that transaction sees, and a run that raises leaves nothing to commit.
The vendor is the answers its client gives during the run.
-/

namespace Morai.Ingest.SyncUser

open Morai.Crypto Morai.Db Morai.Python Morai.Foundation.PrimaryKey
open Morai.Ledger.Fills Morai.Ingest.ExtractFills Morai.Ingest.Validation
open Morai.Ingest.BrokerTransactions Morai.Ingest.SyncWindows Morai.Vendor.Connections

set_option autoImplicit false

/-- What the vendor does in one run: calls are numbered in the order they are
made, and `written` is the last token its client handed to the holder. -/
structure VendorRun where
  buildClient : JsonValue → Except Raised Unit
  getTransactions : Nat → String → SyncWindow → Except Raised JsonValue
  written : Option JsonValue

/-- The nonces of one run, by window and by row. -/
structure SyncDraws where
  raw : Nat → Nat → Bytes
  fills : Nat → Nat → FillDraw
  token : Bytes

structure SyncOutcome where
  brokerTransactionsLanded : Nat
  fillsLanded : Nat
  skipReasons : List String
  deriving DecidableEq, Repr

def SyncOutcome.add (sofar window : SyncOutcome) : SyncOutcome where
  brokerTransactionsLanded := sofar.brokerTransactionsLanded + window.brokerTransactionsLanded
  fillsLanded := sofar.fillsLanded + window.fillsLanded
  skipReasons := sofar.skipReasons ++ window.skipReasons

def elementWrite (element : JsonValue × Transaction) : BrokerTransactionWrite where
  activityId := element.2.activityId.str
  transactionType := element.2.type
  transactionTime := element.2.time
  orderId := element.2.orderId
  rawPayload := element.1

section Run

variable (keys : KeyService) (pydantic : Pydantic) (settings : Settings) (vendor : VendorRun)
  (draws : SyncDraws) (userId : Uuid)

/-- The loop body. The list is validated and extracted as a whole before any of
it is written. -/
def syncWindow (accountHash : String) (window : SyncWindow × Nat) (db : Database) :
    Except Raised (SyncOutcome × Database) := do
  let response ← vendor.getTransactions window.2 accountHash window.1
  let rawElements ← validateJsonList response
  let transactions ← validateTransactions pydantic rawElements
  let brokerRows := (rawElements.zip transactions).map elementWrite
  let extracted ← extractAll transactions
  let (brokerLanded, db) ← withinColumns (∀ row ∈ brokerRows, row.Fits)
    (insertBrokerTransactions keys (draws.raw window.2) userId brokerRows db)
  let (fillsLanded, db) ← withinColumns (∀ fill ∈ extracted.1, fill.Fits)
    (insertFills keys (draws.fills window.2) userId extracted.1 db)
  .ok (⟨brokerLanded, fillsLanded, extracted.2⟩, db)

def syncEach (accountHash : String) :
    List (SyncWindow × Nat) → SyncOutcome → Database → Except Raised (SyncOutcome × Database)
  | [], sofar, db => .ok (sofar, db)
  | window :: rest, sofar, db => do
      let (outcome, db) ← syncWindow keys pydantic vendor draws userId accountHash window db
      syncEach accountHash rest (sofar.add outcome) db

/-- The holder after the body. -/
def afterVendor (holder : TokenHolder) : TokenHolder :=
  match vendor.written with
  | none => holder
  | some token => holder.write token

def nothingToSync : Raised :=
  .connectionNotFound ("No schwab_connections row for user_id=" ++ userId.text ++
    " -- nothing to sync.")

/-- The `async with schwab_client_for_user` block. -/
def syncWithClient (accountHash : String) (windows : List SyncWindow) (db : Database) :
    Except Raised (SyncOutcome × Database) := do
  let holder ← openHolder keys pydantic userId db
  vendor.buildClient holder.token
  let (outcome, db) ← syncEach keys pydantic vendor draws userId accountHash windows.zipIdx
    ⟨0, 0, []⟩ db
  let db ← writeBack keys pydantic draws.token userId (afterVendor vendor holder) db
  .ok (outcome, db)

/-- `none` when `sync_windows` does not return. -/
def syncUser (now : Instant) (db : Database) :
    Option (Except Raised (SyncOutcome × Database)) :=
  match readConnection keys pydantic userId db with
  | .error raised => some (.error raised)
  | .ok none => some (.error (nothingToSync userId))
  | .ok (some connection) =>
      match syncWindows connection.lastSyncedAt now settings with
      | none => none
      | some (.error raised) => some (.error raised)
      | some (.ok windows) =>
          some (syncWithClient keys pydantic vendor draws userId connection.accountHash windows db)

/-! ## What a run leaves alone -/

/-- The stages of a window that returned. -/
structure WindowStages (accountHash : String) (window : SyncWindow × Nat) (db after : Database)
    (outcome : SyncOutcome) (rawElements : List JsonValue) (transactions : List Transaction)
    (extracted : List FillWrite × List String) (middle : Database) : Prop where
  answered : vendor.getTransactions window.2 accountHash window.1 = .ok (.array rawElements)
  validated : validateTransactions pydantic rawElements = .ok transactions
  ran : extractAll transactions = .ok extracted
  rawFit : ∀ row ∈ (rawElements.zip transactions).map elementWrite, row.Fits
  raw : insertBrokerTransactions keys (draws.raw window.2) userId
    ((rawElements.zip transactions).map elementWrite) db =
      .ok (outcome.brokerTransactionsLanded, middle)
  fillsFit : ∀ fill ∈ extracted.1, fill.Fits
  fills : insertFills keys (draws.fills window.2) userId extracted.1 middle =
    .ok (outcome.fillsLanded, after)

theorem sync_window_ok (accountHash : String) (window : SyncWindow × Nat) (outcome : SyncOutcome)
    (db after : Database)
    (ran : syncWindow keys pydantic vendor draws userId accountHash window db =
      .ok (outcome, after)) :
    ∃ rawElements transactions extracted middle, WindowStages keys pydantic vendor draws userId
      accountHash window db after outcome rawElements transactions extracted middle := by
  obtain ⟨response, answered, ran⟩ := bind_ok _ _ _ ran
  obtain ⟨rawElements, listed, ran⟩ := bind_ok _ _ _ ran
  obtain ⟨transactions, validated, ran⟩ := bind_ok _ _ _ ran
  obtain ⟨extracted, ranAll, ran⟩ := bind_ok _ _ _ ran
  obtain ⟨⟨brokerLanded, middle⟩, rawInserted, ran⟩ := bind_ok _ _ _ ran
  obtain ⟨⟨fillsLanded, final⟩, fillsInserted, ran⟩ := bind_ok _ _ _ ran
  obtain ⟨rawFit, raw⟩ := (within_columns_ok _ _ _).mp rawInserted
  obtain ⟨fillsFit, fills⟩ := (within_columns_ok _ _ _).mp fillsInserted
  cases ran
  have shape : response = .array rawElements := by
    cases response with
    | array items =>
        cases listed
        rfl
    | _ => cases listed
  exact ⟨rawElements, transactions, extracted, middle, shape ▸ answered, validated, ranAll, rawFit,
    raw, fillsFit, fills⟩

theorem sync_window_frame (accountHash : String) (window : SyncWindow × Nat)
    (outcome : SyncOutcome) (db after : Database)
    (ran : syncWindow keys pydantic vendor draws userId accountHash window db =
      .ok (outcome, after)) :
    after = { db with brokerTransactions := after.brokerTransactions, fills := after.fills } := by
  obtain ⟨rawElements, transactions, extracted, middle, stages⟩ :=
    sync_window_ok keys pydantic vendor draws userId accountHash window outcome db after ran
  have first := (insert_broker_transactions_grows keys _ userId _ _ db middle stages.raw).1
  have second := (insert_fills_extends keys _ userId _ middle after _ stages.fills).1
  rw [second, first]

theorem sync_each_frame (accountHash : String) (windows : List (SyncWindow × Nat))
    (sofar outcome : SyncOutcome) (db after : Database)
    (ran : syncEach keys pydantic vendor draws userId accountHash windows sofar db =
      .ok (outcome, after)) :
    after = { db with brokerTransactions := after.brokerTransactions, fills := after.fills } := by
  induction windows generalizing sofar db with
  | nil =>
      cases ran
      rfl
  | cons window rest ih =>
      obtain ⟨⟨part, middle⟩, first, later⟩ := bind_ok _ _ _ ran
      have here := sync_window_frame keys pydantic vendor draws userId accountHash window part db
        middle first
      have there := ih (sofar.add part) middle later
      rw [there, here]

/-- The stages of a run that returned. -/
structure RunStages (now : Instant) (db after : Database) (outcome : SyncOutcome)
    (connection : ConnectionRecord) (windows : List SyncWindow) (holder : TokenHolder)
    (middle : Database) : Prop where
  read : readConnection keys pydantic userId db = .ok (some connection)
  planned : syncWindows connection.lastSyncedAt now settings = some (.ok windows)
  opened : openHolder keys pydantic userId db = .ok holder
  built : vendor.buildClient holder.token = .ok ()
  synced : syncEach keys pydantic vendor draws userId connection.accountHash windows.zipIdx
    ⟨0, 0, []⟩ db = .ok (outcome, middle)
  written : writeBack keys pydantic draws.token userId (afterVendor vendor holder) middle =
    .ok after

theorem sync_user_ok (now : Instant) (db after : Database) (outcome : SyncOutcome)
    (ran : syncUser keys pydantic settings vendor draws userId now db =
      some (.ok (outcome, after))) :
    ∃ connection windows holder middle, RunStages keys pydantic settings vendor draws userId now db
      after outcome connection windows holder middle := by
  unfold syncUser at ran
  split at ran
  · simp at ran
  · simp at ran
  · rename_i connection read
    split at ran
    · simp at ran
    · simp at ran
    · rename_i windows planned
      have inner := Option.some.inj ran
      obtain ⟨holder, opened, inner⟩ := bind_ok _ _ _ inner
      obtain ⟨_, built, inner⟩ := bind_ok _ _ _ inner
      obtain ⟨⟨part, middle⟩, synced, inner⟩ := bind_ok _ _ _ inner
      obtain ⟨final, written, inner⟩ := bind_ok _ _ _ inner
      cases inner
      exact ⟨connection, windows, holder, middle, read, planned, opened, built, synced, written⟩

/-- The account hash and the window of each call a run makes, in order. -/
def requestedCalls (now : Instant) (db : Database) : List (String × SyncWindow) :=
  match readConnection keys pydantic userId db with
  | .ok (some connection) =>
      match syncWindows connection.lastSyncedAt now settings with
      | some (.ok windows) => windows.map (Prod.mk connection.accountHash)
      | _ => []
  | _ => []

/-! ## What a run counts -/

/-- The rows added to the two tables, as many as were counted. -/
structure Grew (db after : Database) (brokerTransactionsLanded fillsLanded : Nat) : Prop where
  brokerTransactions : ∃ added, after.brokerTransactions.rows =
    db.brokerTransactions.rows ++ added ∧ added.length = brokerTransactionsLanded
  fills : ∃ added, after.fills.rows = db.fills.rows ++ added ∧ added.length = fillsLanded

theorem grew_append (before middle after : Database) (raw raw' fills fills' : Nat)
    (first : Grew before middle raw fills) (second : Grew middle after raw' fills') :
    Grew before after (raw + raw') (fills + fills') := by
  obtain ⟨⟨rawFirst, rawRows, rawCount⟩, fillsFirst, fillRows, fillCount⟩ := first
  obtain ⟨⟨rawSecond, rawRows', rawCount'⟩, fillsSecond, fillRows', fillCount'⟩ := second
  constructor
  · refine ⟨rawFirst ++ rawSecond, ?_, by rw [List.length_append, rawCount, rawCount']⟩
    rw [rawRows', rawRows, List.append_assoc]
  · refine ⟨fillsFirst ++ fillsSecond, ?_, by rw [List.length_append, fillCount, fillCount']⟩
    rw [fillRows', fillRows, List.append_assoc]

theorem sync_window_grows (accountHash : String) (window : SyncWindow × Nat)
    (outcome : SyncOutcome) (db after : Database)
    (ran : syncWindow keys pydantic vendor draws userId accountHash window db =
      .ok (outcome, after)) :
    Grew db after outcome.brokerTransactionsLanded outcome.fillsLanded := by
  obtain ⟨rawElements, transactions, extracted, middle, stages⟩ :=
    sync_window_ok keys pydantic vendor draws userId accountHash window outcome db after ran
  have raw := insert_broker_transactions_grows keys _ userId _ _ db middle stages.raw
  have fills := insert_fills_grows keys _ userId _ _ middle after stages.fills
  constructor
  · rw [fills.1]
    exact raw.2
  · rw [raw.1] at fills
    exact fills.2

theorem sync_each_grows (accountHash : String) (windows : List (SyncWindow × Nat))
    (sofar outcome : SyncOutcome) (before db after : Database)
    (grew : Grew before db sofar.brokerTransactionsLanded sofar.fillsLanded)
    (ran : syncEach keys pydantic vendor draws userId accountHash windows sofar db =
      .ok (outcome, after)) :
    Grew before after outcome.brokerTransactionsLanded outcome.fillsLanded := by
  induction windows generalizing sofar db with
  | nil =>
      cases ran
      exact grew
  | cons window rest ih =>
      obtain ⟨⟨part, middle⟩, first, later⟩ := bind_ok _ _ _ ran
      have here := sync_window_grows keys pydantic vendor draws userId accountHash window part db
        middle first
      exact ih (sofar.add part) middle (grew_append before db middle _ _ _ _ grew here) later

/-- The write-back touches neither table. -/
theorem write_back_frame (nonce : Bytes) (holder : TokenHolder) (db after : Database)
    (ran : writeBack keys pydantic nonce userId holder db = .ok after) :
    after = { db with schwabConnections := after.schwabConnections } := by
  unfold writeBack at ran
  split_ifs at ran
  · cases validated : validateWrappedToken pydantic holder.token with
    | none => simp [validated] at ran
    | some token =>
        simp only [validated] at ran
        obtain ⟨found, _, ran⟩ := bind_ok _ _ _ ran
        cases stored : db.schwabConnections.get? userId with
        | none =>
            simp only [stored, Except.ok.injEq] at ran
            exact ran ▸ rfl
        | some row =>
            simp only [stored, Except.ok.injEq] at ran
            exact ran ▸ rfl
  · cases ran
    rfl

/-- What a run reports is exactly what it added, over all its windows. -/
theorem sync_user_grows (now : Instant) (db after : Database) (outcome : SyncOutcome)
    (ran : syncUser keys pydantic settings vendor draws userId now db =
      some (.ok (outcome, after))) :
    Grew db after outcome.brokerTransactionsLanded outcome.fillsLanded := by
  obtain ⟨connection, windows, holder, middle, stages⟩ :=
    sync_user_ok keys pydantic settings vendor draws userId now db after outcome ran
  have start : Grew db db 0 0 :=
    ⟨⟨[], (List.append_nil _).symm, rfl⟩, [], (List.append_nil _).symm, rfl⟩
  have grew := sync_each_grows keys pydantic vendor draws userId connection.accountHash
    windows.zipIdx ⟨0, 0, []⟩ outcome db db middle start stages.synced
  have frame := write_back_frame keys pydantic userId _ _ middle after stages.written
  constructor
  · rw [frame]
    exact grew.brokerTransactions
  · rw [frame]
    exact grew.fills

theorem sync_user_frame (now : Instant) (db after : Database) (outcome : SyncOutcome)
    (ran : syncUser keys pydantic settings vendor draws userId now db =
      some (.ok (outcome, after))) :
    after = { db with
      brokerTransactions := after.brokerTransactions
      fills := after.fills
      schwabConnections := after.schwabConnections } := by
  obtain ⟨connection, windows, holder, middle, stages⟩ :=
    sync_user_ok keys pydantic settings vendor draws userId now db after outcome ran
  have frame := sync_each_frame keys pydantic vendor draws userId connection.accountHash
    windows.zipIdx _ outcome db middle stages.synced
  rw [write_back_frame keys pydantic userId _ _ middle after stages.written, frame]

theorem sync_user_sync_runs (now : Instant) (db after : Database) (outcome : SyncOutcome)
    (ran : syncUser keys pydantic settings vendor draws userId now db =
      some (.ok (outcome, after))) : after.syncRuns = db.syncRuns := by
  rw [sync_user_frame keys pydantic settings vendor draws userId now db after outcome ran]

/-- A run that returned leaves the connection it worked on in its place. -/
theorem sync_user_connected (now : Instant) (db after : Database) (outcome : SyncOutcome)
    (ran : syncUser keys pydantic settings vendor draws userId now db =
      some (.ok (outcome, after))) :
    ∃ row, after.schwabConnections.get? userId = some row := by
  obtain ⟨connection, windows, holder, middle, stages⟩ :=
    sync_user_ok keys pydantic settings vendor draws userId now db after outcome ran
  obtain ⟨row, stored, _⟩ := read_connection_ok keys pydantic userId db connection stages.read
  have frame := sync_each_frame keys pydantic vendor draws userId connection.accountHash
    windows.zipIdx _ outcome db middle stages.synced
  have kept : middle.schwabConnections.get? userId = some row := by
    rw [frame]
    exact stored
  cases write_back_ok keys pydantic draws.token userId _ middle after row kept stages.written with
  | inl idle =>
      rw [idle.2]
      exact ⟨row, kept⟩
  | inr wrote =>
      obtain ⟨token, dek, keyVersion, _, _, _, shape⟩ := wrote
      rw [shape, store_connection_get]
      exact ⟨_, if_pos (connection_get_owner middle userId row kept)⟩

end Run

end Morai.Ingest.SyncUser
