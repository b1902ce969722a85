import Morai.Ingest.SyncUser

/-!
# The sync job

`sync_user_task` commits a run together with its `sync_runs` row and the new
`last_synced_at`; a run that raises is rolled back and leaves a failed row,
written by a session of its own, before the exception goes on.
-/

namespace Morai.Worker.SyncUserTask

open Morai.Crypto Morai.Db Morai.Python Morai.Foundation.PrimaryKey
open Morai.Ingest.SyncWindows Morai.Ingest.SyncUser Morai.Vendor.Connections

set_option autoImplicit false

inductive SyncTrigger where
  | scheduled
  | manual
  deriving DecidableEq, Repr

def SyncTrigger.value : SyncTrigger → String
  | .scheduled => "scheduled"
  | .manual => "manual"

inductive SyncStatus where
  | succeeded
  | failed
  deriving DecidableEq, Repr

def SyncStatus.value : SyncStatus → String
  | .succeeded => "succeeded"
  | .failed => "failed"

inductive SyncError where
  | connectionNotFound
  | vendorAuthFailed
  | vendorRateLimited
  | vendorPayloadUnparseable
  | unknown
  deriving DecidableEq, Repr

def SyncError.value : SyncError → String
  | .connectionNotFound => "connection_not_found"
  | .vendorAuthFailed => "vendor_auth_failed"
  | .vendorRateLimited => "vendor_rate_limited"
  | .vendorPayloadUnparseable => "vendor_payload_unparseable"
  | .unknown => "unknown"

def classifySyncError : Raised → SyncError
  | .connectionNotFound _ => .connectionNotFound
  | .validationError => .vendorPayloadUnparseable
  | .httpStatusError statusCode =>
      if statusCode = 401 ∨ statusCode = 403 then .vendorAuthFailed
      else if statusCode = 429 then .vendorRateLimited
      else .unknown
  | _ => .unknown

structure TaskCall where
  startedAt : Instant
  finishedAt : Instant
  trigger : SyncTrigger

def recordSyncRun (userId : Uuid) (call : TaskCall) (status : SyncStatus)
    (fillsLanded brokerTransactionsLanded : Option Nat) (errorCode : Option SyncError)
    (db : Database) : Database :=
  { db with syncRuns := db.syncRuns ++ [
      { userId := userId
        startedAt := call.startedAt
        finishedAt := call.finishedAt
        trigger := call.trigger.value
        status := status.value
        fillsLanded := fillsLanded
        brokerTransactionsLanded := brokerTransactionsLanded
        errorCode := errorCode.map SyncError.value }] }

section Rows

variable (userId : Uuid) (call : TaskCall)

def succeededRun (outcome : SyncOutcome) : SyncRun where
  userId := userId
  startedAt := call.startedAt
  finishedAt := call.finishedAt
  trigger := call.trigger.value
  status := SyncStatus.succeeded.value
  fillsLanded := some outcome.fillsLanded
  brokerTransactionsLanded := some outcome.brokerTransactionsLanded
  errorCode := none

def failedRun (raised : Raised) : SyncRun where
  userId := userId
  startedAt := call.startedAt
  finishedAt := call.finishedAt
  trigger := call.trigger.value
  status := SyncStatus.failed.value
  fillsLanded := none
  brokerTransactionsLanded := none
  errorCode := some (classifySyncError raised).value

theorem stamped_run_recorded (outcome : SyncOutcome) (db : Database) :
    (stampSynced userId call.startedAt (recordSyncRun userId call .succeeded
      (some outcome.fillsLanded) (some outcome.brokerTransactionsLanded) none db)).syncRuns =
      db.syncRuns ++ [succeededRun userId call outcome] := by
  rw [stamp_synced_frame]
  rfl

end Rows

section Task

variable (keys : KeyService) (pydantic : Pydantic) (settings : Settings) (vendor : VendorRun)
  (draws : SyncDraws) (userId : Uuid) (call : TaskCall)

/-- The exception that goes on, if any, and the database as committed;
`none` when the job never ends. -/
def syncUserTask (db : Database) : Option (Except Raised Unit × Database) :=
  match syncUser keys pydantic settings vendor draws userId call.startedAt db with
  | none => none
  | some (.error raised) =>
      some (.error raised, recordSyncRun userId call .failed none none
        (some (classifySyncError raised)) db)
  | some (.ok (outcome, after)) =>
      some (.ok (), stampSynced userId call.startedAt (recordSyncRun userId call .succeeded
        (some outcome.fillsLanded) (some outcome.brokerTransactionsLanded) none after))

/-- A failed job leaves its row in `sync_runs` and nothing else. -/
theorem sync_user_task_failed (db after : Database) (raised : Raised)
    (ran : syncUserTask keys pydantic settings vendor draws userId call db =
      some (.error raised, after)) :
    after = { db with syncRuns := after.syncRuns } ∧
      ∃ run, after.syncRuns = db.syncRuns ++ [run] ∧ run.userId = userId ∧
        run.status = SyncStatus.failed.value ∧
        run.errorCode = some (classifySyncError raised).value := by
  unfold syncUserTask at ran
  split at ran
  · cases ran
  · cases ran
    exact ⟨rfl, _, rfl, rfl, rfl, rfl⟩
  · cases ran

/-- A job that succeeded committed a whole run, stamped with its start. -/
theorem sync_user_task_ok (db after : Database)
    (ran : syncUserTask keys pydantic settings vendor draws userId call db =
      some (.ok (), after)) :
    ∃ outcome middle, syncUser keys pydantic settings vendor draws userId call.startedAt db =
        some (.ok (outcome, middle)) ∧
      after.schwabConnections =
        (stampSynced userId call.startedAt middle).schwabConnections ∧
      after.userDataKeys = middle.userDataKeys := by
  unfold syncUserTask at ran
  split at ran
  · cases ran
  · cases ran
  · rename_i outcome middle synced
    cases ran
    refine ⟨outcome, middle, synced, ?_⟩
    unfold stampSynced recordSyncRun storeConnection
    cases middle.schwabConnections.get? userId <;> exact ⟨rfl, rfl⟩

/-- A run that returned is committed with a row of its own. -/
theorem sync_user_task_commits (db : Database) (result : SyncOutcome × Database)
    (ran : syncUser keys pydantic settings vendor draws userId call.startedAt db =
      some (.ok result)) :
    ∃ after, syncUserTask keys pydantic settings vendor draws userId call db =
        some (.ok (), after) ∧
      after.syncRuns = db.syncRuns ++ [succeededRun userId call result.1] := by
  have untouched := sync_user_sync_runs keys pydantic settings vendor draws userId call.startedAt db
    result.2 result.1 ran
  have recorded := stamped_run_recorded userId call result.1 result.2
  rw [untouched] at recorded
  exact ⟨_, by simp only [syncUserTask, ran], recorded⟩

/-- What a successful job does to the connection: it asks for the windows of
the stored account and moves the sync time to its own start. -/
structure Synced (db after : Database) (row : SchwabConnection) (dek : Bytes)
    (keyVersion : Int) (accountHash : String) (windows : List SyncWindow)
    (row' : SchwabConnection) : Prop where
  planned : syncWindows row.lastSyncedAt call.startedAt settings = some (.ok windows)
  requested : requestedCalls keys pydantic settings userId call.startedAt db =
    windows.map (Prod.mk accountHash)
  sameKeys : after.userDataKeys = db.userDataKeys
  stored : after.schwabConnections.get? userId = some row'
  holds : ∃ token, RowHolds keys userId dek keyVersion row' accountHash token
  stamped : row'.lastSyncedAt = some call.startedAt

theorem sync_user_task_connection (db after : Database) (row : SchwabConnection) (dek : Bytes)
    (keyVersion : Int) (accountHash : String) (token : JsonValue)
    (stored : db.schwabConnections.get? userId = some row)
    (current : currentDek keys db userId = .ok (dek, keyVersion))
    (holds : RowHolds keys userId dek keyVersion row accountHash token)
    (ran : syncUserTask keys pydantic settings vendor draws userId call db =
      some (.ok (), after)) :
    ∃ windows row', Synced keys pydantic settings userId call db after row dek keyVersion
      accountHash windows row' := by
  obtain ⟨outcome, written, synced, connections, sameKeys⟩ :=
    sync_user_task_ok keys pydantic settings vendor draws userId call db after ran
  obtain ⟨connection, windows, holder, middle, stages⟩ :=
    sync_user_ok keys pydantic settings vendor draws userId call.startedAt db written outcome synced
  obtain ⟨other, otherStored, read⟩ := read_connection_ok keys pydantic userId db connection
    stages.read
  rw [stored] at otherStored
  cases otherStored
  have account := read_row_account_hash keys pydantic db userId row dek keyVersion accountHash token
    connection current holds read
  have columns := read_row_columns keys pydantic db userId row connection read
  have synced : connection.lastSyncedAt = row.lastSyncedAt := by
    rw [columns]
    rfl
  have frame := sync_each_frame keys pydantic vendor draws userId connection.accountHash
    windows.zipIdx _ outcome db middle stages.synced
  have middleStored : middle.schwabConnections.get? userId = some row := by
    rw [frame]
    exact stored
  have middleCurrent : currentDek keys middle userId = .ok (dek, keyVersion) := by
    rw [frame]
    exact current
  obtain ⟨writtenKeys, row', token', writtenStored, writtenHolds, _, _⟩ := write_back_holds keys
    pydantic draws.token userId _ middle written row dek keyVersion accountHash token middleStored
    middleCurrent holds stages.written
  refine ⟨windows, { row' with lastSyncedAt := some call.startedAt }, ?_⟩
  constructor
  · rw [← synced]
    exact stages.planned
  · simp only [requestedCalls, stages.read, stages.planned, account]
  · rw [sameKeys, writtenKeys, frame]
  · rw [connections]
    exact stamp_synced_get userId call.startedAt written row' writtenStored
  · exact ⟨token', writtenHolds.owner, writtenHolds.version, writtenHolds.token,
      writtenHolds.accountHash⟩
  · rfl

end Task

end Morai.Worker.SyncUserTask
