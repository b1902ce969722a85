import Mathlib.Data.List.Sort
import Morai.Worker.SyncUserTask

/-!
# Reading the sync history

`read_sync_runs` returns a user's runs, most recent start first. Rows with one
start come in whatever order the scan had them.
-/

namespace Morai.Api.SyncRuns

open Morai.Db Morai.Python Morai.Worker.SyncUserTask

set_option autoImplicit false

structure SyncRunRecord where
  userId : Uuid
  startedAt : Instant
  finishedAt : Instant
  trigger : SyncTrigger
  status : SyncStatus
  fillsLanded : Option Nat
  brokerTransactionsLanded : Option Nat
  errorCode : Option SyncError
  deriving DecidableEq, Repr

/-- The member of an enumeration with this value, else `ValueError`. -/
def enumMember {Member : Type} (value : Member → String) (members : List Member) (text : String) :
    Except Raised Member :=
  match members.find? fun member => value member = text with
  | none => .error (.valueError (reprText text))
  | some member => .ok member

def syncTriggerOf : String → Except Raised SyncTrigger :=
  enumMember SyncTrigger.value [.scheduled, .manual]

def syncStatusOf : String → Except Raised SyncStatus :=
  enumMember SyncStatus.value [.succeeded, .failed]

def syncErrorOf : String → Except Raised SyncError :=
  enumMember SyncError.value [.connectionNotFound, .vendorAuthFailed, .vendorRateLimited,
    .vendorPayloadUnparseable, .unknown]

def errorCodeOf : Option String → Except Raised (Option SyncError)
  | none => .ok none
  | some errorCode => (syncErrorOf errorCode).map some

def readSyncRun (row : SyncRun) : Except Raised SyncRunRecord := do
  let trigger ← syncTriggerOf row.trigger
  let status ← syncStatusOf row.status
  let errorCode ← errorCodeOf row.errorCode
  .ok { userId := row.userId
        startedAt := row.startedAt
        finishedAt := row.finishedAt
        trigger := trigger
        status := status
        fillsLanded := row.fillsLanded
        brokerTransactionsLanded := row.brokerTransactionsLanded
        errorCode := errorCode }

/-- `ORDER BY started_at DESC`. -/
def StartsLater (left right : SyncRun) : Prop := right.startedAt ≤ left.startedAt

instance decidableStartsLater : DecidableRel StartsLater := fun left right =>
  inferInstanceAs (Decidable (right.startedAt ≤ left.startedAt))

def syncRunsOf (db : Database) (userId : Uuid) : List SyncRun :=
  db.syncRuns.filter fun row => row.userId = userId

def readSyncRuns (order : ScanOrder SyncRun) (userId : Uuid) (limit : Nat) (db : Database) :
    Except Raised (List SyncRunRecord) :=
  (((order.arrange (syncRunsOf db userId)).insertionSort StartsLater).take limit).mapM readSyncRun

theorem read_sync_run_started (row : SyncRun) (record : SyncRunRecord)
    (read : readSyncRun row = .ok record) : record.startedAt = row.startedAt := by
  obtain ⟨_, _, read⟩ := bind_ok _ _ _ read
  obtain ⟨_, _, read⟩ := bind_ok _ _ _ read
  obtain ⟨_, _, read⟩ := bind_ok _ _ _ read
  cases read
  rfl

/-- The most recent run that a read with limit 1 returns is no older than any
run of the user. -/
theorem read_sync_runs_latest (order : ScanOrder SyncRun) (userId : Uuid) (db : Database)
    (records : List SyncRunRecord) (read : readSyncRuns order userId 1 db = .ok records) :
    ∀ row ∈ syncRunsOf db userId, ∃ recent, records.head? = some recent ∧
      row.startedAt ≤ recent.startedAt := by
  intro row member
  obtain ⟨sorted, sortedEq⟩ : ∃ sorted,
      sorted = (order.arrange (syncRunsOf db userId)).insertionSort StartsLater := ⟨_, rfl⟩
  have perm : sorted.Perm (syncRunsOf db userId) := by
    rw [sortedEq]
    exact (List.perm_insertionSort StartsLater _).trans (order.perm _)
  have present : row ∈ sorted := perm.mem_iff.mpr member
  have total : Std.Total StartsLater := ⟨fun left right => le_total _ _⟩
  have transitive : IsTrans SyncRun StartsLater := ⟨fun _ _ _ first second => le_trans second first⟩
  have ordered : sorted.Pairwise StartsLater := by
    rw [sortedEq]
    exact List.pairwise_insertionSort StartsLater _
  unfold readSyncRuns at read
  rw [← sortedEq] at read
  have starts := map_m_ok_field readSyncRun SyncRunRecord.startedAt SyncRun.startedAt
    read_sync_run_started _ records read
  cases sorted with
  | nil => cases present
  | cons first rest =>
      cases records with
      | nil => cases starts
      | cons recent others =>
          have sameStart : recent.startedAt = first.startedAt := (List.cons.inj starts).1
          refine ⟨recent, rfl, ?_⟩
          rw [sameStart]
          cases List.mem_cons.mp present with
          | inl same => rw [same]
          | inr behind => exact (List.pairwise_cons.mp ordered).1 row behind

end Morai.Api.SyncRuns
