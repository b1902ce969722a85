import Morai.Foundation.Attempts
import Morai.Ingest.ElementsLand
import Morai.Worker.SyncUserTask

/-!
# A sync attempt, statement by statement

The functions of a sync as one statement after the other on what the open
transaction sees, with a point before each at which anything outside the code
may raise. What had been written by then is in the transaction's view; the
task's two sessions decide what is committed.
-/

namespace Morai.Worker.SyncAttempt

open Morai.Crypto Morai.Db Morai.Python Morai.Foundation.PrimaryKey Morai.Foundation.Attempts
open Morai.Ledger.Fills Morai.Ingest.ExtractFills Morai.Ingest.Validation
open Morai.Ingest.BrokerTransactions Morai.Ingest.SyncWindows Morai.Ingest.SyncUser
open Morai.Ingest.ElementsLand Morai.Vendor.Connections Morai.Worker.SyncUserTask

set_option autoImplicit false

/-- Where a job can be interrupted, in the order it gets there; windows and
chunks are numbered from 0. -/
inductive Point where
  | setConfig
  | lock
  | readConnection
  | planWindows
  | lockForClient
  | rereadConnection
  | buildClient
  | request (window : Nat)
  | parse (window : Nat)
  | rawKey (window : Nat)
  | rawChunk (window chunk : Nat)
  | fillKey (window : Nat)
  | fillChunk (window chunk : Nat)
  | writeBack
  | closeClient
  | recordRun
  | stampSynced
  | commit
  deriving DecidableEq, Repr

/-- The points inside `run_sync_user`. -/
def Point.inRun : Point → Bool
  | .recordRun | .stampSynced | .commit => false
  | _ => true

abbrev Job (Value : Type) := Attempt Database Raised Value

def brokerTransactionsTable : TableOf Database BrokerTransaction.primaryKey where
  table db := db.brokerTransactions
  store db rows := { db with brokerTransactions := rows }
  table_store _ _ := rfl
  store_store _ _ _ := rfl
  store_table _ := rfl

def fillsTable : TableOf Database Fill.primaryKey where
  table db := db.fills
  store db rows := { db with fills := rows }
  table_store _ _ := rfl
  store_store _ _ _ := rfl
  store_table _ := rfl

section Statements

variable (faults : Point → Option Raised) (keys : KeyService) (pydantic : Pydantic)
  (settings : Settings) (vendor : VendorRun) (draws : SyncDraws) (userId : Uuid)

def attemptBrokerTransactions (window : Nat) (rows : List BrokerTransactionWrite) : Job Nat :=
  if rows.isEmpty then pure 0
  else do
    reach (faults (.rawKey window))
    let (dek, keyVersion) ← reads (currentDek keys · userId)
    let chunks := chunksOf Morai.Ingest.BrokerTransactions.chunkSize rows.zipIdx
    insertChunks brokerTransactionsTable (fun chunk => faults (.rawChunk window chunk))
      (chunks.map (brokerTransactionRows keys userId dek keyVersion (draws.raw window))).zipIdx 0

def attemptFills (window : Nat) (fills : List FillWrite) : Job Nat :=
  if fills = [] then pure 0
  else do
    reach (faults (.fillKey window))
    let (dek, keyVersion) ← reads (currentDek keys · userId)
    let chunks := chunksOf Morai.Ledger.Fills.chunkSize fills.zipIdx
    insertChunks fillsTable (fun chunk => faults (.fillChunk window chunk))
      (chunks.map (fillRows keys userId dek keyVersion (draws.fills window))).zipIdx 0

/-- A statement with a value its column does not take raises. -/
def attemptWithinColumns {Value : Type} (fits : Prop) [Decidable fits] (stored : Job Value) :
    Job Value := do
  let value ← stored
  writes fun db => if fits then .ok (value, db) else .error .dataError

def attemptWindow (accountHash : String) (window : SyncWindow × Nat) : Job SyncOutcome := do
  reach (faults (.request window.2))
  let response ← reads fun _ => vendor.getTransactions window.2 accountHash window.1
  reach (faults (.parse window.2))
  let rawElements ← reads fun _ => validateJsonList response
  let transactions ← reads fun _ => validateTransactions pydantic rawElements
  let brokerRows := (rawElements.zip transactions).map elementWrite
  let extracted ← reads fun _ => extractAll transactions
  let brokerLanded ← attemptWithinColumns (∀ row ∈ brokerRows, row.Fits)
    (attemptBrokerTransactions faults keys draws userId window.2 brokerRows)
  let fillsLanded ← attemptWithinColumns (∀ fill ∈ extracted.1, fill.Fits)
    (attemptFills faults keys draws userId window.2 extracted.1)
  pure ⟨brokerLanded, fillsLanded, extracted.2⟩

def attemptEach (accountHash : String) : List (SyncWindow × Nat) → SyncOutcome → Job SyncOutcome
  | [], sofar => pure sofar
  | window :: rest, sofar => do
      let outcome ← attemptWindow faults keys pydantic vendor draws userId accountHash window
      attemptEach accountHash rest (sofar.add outcome)

def attemptWithClient (accountHash : String) (windows : List SyncWindow) : Job SyncOutcome := do
  reach (faults .lockForClient)
  reach (faults .rereadConnection)
  let holder ← reads (openHolder keys pydantic userId)
  reach (faults .buildClient)
  let _ ← reads fun _ => vendor.buildClient holder.token
  let outcome ← attemptEach faults keys pydantic vendor draws userId accountHash windows.zipIdx
    ⟨0, 0, []⟩
  reach (faults .writeBack)
  writes fun db => (writeBack keys pydantic draws.token userId (afterVendor vendor holder) db).map
    (Prod.mk ())
  reach (faults .closeClient)
  pure outcome

def attemptSyncUser (now : Instant) : Job SyncOutcome := do
  reach (faults .setConfig)
  reach (faults .lock)
  reach (faults .readConnection)
  match ← reads (readConnection keys pydantic userId) with
  | none => reads fun _ => .error (nothingToSync userId)
  | some connection => do
      reach (faults .planWindows)
      let windows ← awaits fun _ => syncWindows connection.lastSyncedAt now settings
      attemptWithClient faults keys pydantic vendor draws userId connection.accountHash windows

/-- After `run_sync_user` returned, on the same session. -/
def attemptRecord (call : TaskCall) (outcome : SyncOutcome) : Job Unit := do
  reach (faults .recordRun)
  writes fun db => .ok ((), recordSyncRun userId call .succeeded (some outcome.fillsLanded)
    (some outcome.brokerTransactionsLanded) none db)
  reach (faults .stampSynced)
  writes fun db => .ok ((), stampSynced userId call.startedAt db)
  reach (faults .commit)

/-- The second session. Its own statements are taken not to fail. -/
def recordFailure (call : TaskCall) (raised : Raised) (committed : Database) :
    Session Database :=
  let failureSession := Session.start committed
  let recorded := recordSyncRun userId call .failed none none (some (classifySyncError raised))
    failureSession.seen
  { failureSession with seen := recorded }.commit

/-- The exception that goes on, if any, and the database as committed. -/
def attemptSyncUserTask (call : TaskCall) (db : Database) :
    Option (Except Raised Unit × Database) :=
  match (Session.start db).perform
      (attemptSyncUser faults keys pydantic settings vendor draws userId call.startedAt) with
  | none => none
  | some (.error raised, session) =>
      some (.error raised, (recordFailure userId call raised session.rollback.committed).committed)
  | some (.ok outcome, session) =>
      match session.perform (attemptRecord faults userId call outcome) with
      | none => none
      | some (.error raised, session) => some (.error raised, session.rollback.committed)
      | some (.ok (), session) => some (.ok (), session.commit.committed)

/-! ## The statements carry out the run -/

/-- Nothing outside the code raises inside `run_sync_user`. -/
def Undisturbed : Prop := ∀ point, point.inRun = true → faults point = none

theorem attempt_broker_transactions_carries_out (window : Nat)
    (rows : List BrokerTransactionWrite) :
    CarriesOut (Undisturbed faults) (attemptBrokerTransactions faults keys draws userId window rows)
      (insertBrokerTransactions keys (draws.raw window) userId rows) := by
  unfold attemptBrokerTransactions insertBrokerTransactions
  split_ifs with empty
  · exact carries_out_pure 0
  · apply carries_out_reach _ _ _ fun calm => calm (.rawKey window) rfl
    apply carries_out_reads
    intro found
    have quiet : Undisturbed faults → ∀ chunk, faults (.rawChunk window chunk) = none :=
      fun calm chunk => calm (.rawChunk window chunk) rfl
    have chunks := insert_chunks_carry_out brokerTransactionsTable _ quiet
      ((chunksOf Morai.Ingest.BrokerTransactions.chunkSize rows.zipIdx).map
        (brokerTransactionRows keys userId found.1 found.2 (draws.raw window))).zipIdx 0
    simp only [List.zipIdx_map_fst, Nat.zero_add] at chunks
    exact chunks

theorem attempt_fills_carries_out (window : Nat) (fills : List FillWrite) :
    CarriesOut (Undisturbed faults) (attemptFills faults keys draws userId window fills)
      (insertFills keys (draws.fills window) userId fills) := by
  unfold attemptFills insertFills
  split_ifs with empty
  · exact carries_out_pure 0
  · apply carries_out_reach _ _ _ fun calm => calm (.fillKey window) rfl
    apply carries_out_reads
    intro found
    have quiet : Undisturbed faults → ∀ chunk, faults (.fillChunk window chunk) = none :=
      fun calm chunk => calm (.fillChunk window chunk) rfl
    have chunks := insert_chunks_carry_out fillsTable _ quiet
      ((chunksOf Morai.Ledger.Fills.chunkSize fills.zipIdx).map
        (fillRows keys userId found.1 found.2 (draws.fills window))).zipIdx 0
    simp only [List.zipIdx_map_fst, Nat.zero_add] at chunks
    exact chunks

theorem attempt_within_columns_carries_out {Value : Type} (fits : Prop) [Decidable fits]
    (stored : Job Value) (plan : Database → Except Raised (Value × Database))
    (here : CarriesOut (Undisturbed faults) stored plan) :
    CarriesOut (Undisturbed faults) (attemptWithinColumns fits stored)
      fun db => withinColumns fits (plan db) :=
  carries_out_bind _ _ _ _ here fun _ => carries_out_writes _

theorem attempt_window_carries_out (accountHash : String) (window : SyncWindow × Nat) :
    CarriesOut (Undisturbed faults)
      (attemptWindow faults keys pydantic vendor draws userId accountHash window)
      (syncWindow keys pydantic vendor draws userId accountHash window) := by
  apply carries_out_reach _ _ _ fun calm => calm (.request window.2) rfl
  apply carries_out_reads
  intro response
  apply carries_out_reach _ _ _ fun calm => calm (.parse window.2) rfl
  apply carries_out_reads
  intro rawElements
  apply carries_out_reads
  intro transactions
  apply carries_out_reads
  intro extracted
  let brokerRows := (rawElements.zip transactions).map elementWrite
  have raw := attempt_within_columns_carries_out faults (∀ row ∈ brokerRows, row.Fits) _ _
    (attempt_broker_transactions_carries_out faults keys draws userId window.2 brokerRows)
  have fills := attempt_within_columns_carries_out faults (∀ fill ∈ extracted.1, fill.Fits) _ _
    (attempt_fills_carries_out faults keys draws userId window.2 extracted.1)
  have fillsThen := fun brokerLanded => carries_out_bind _ _ _ _ fills fun fillsLanded =>
    carries_out_pure (SyncOutcome.mk brokerLanded fillsLanded extracted.2)
  exact carries_out_bind _ _ _ _ raw fillsThen

theorem attempt_each_carries_out (accountHash : String) (windows : List (SyncWindow × Nat))
    (sofar : SyncOutcome) :
    CarriesOut (Undisturbed faults)
      (attemptEach faults keys pydantic vendor draws userId accountHash windows sofar)
      (syncEach keys pydantic vendor draws userId accountHash windows sofar) := by
  induction windows generalizing sofar with
  | nil => exact carries_out_pure sofar
  | cons window rest ih =>
      exact carries_out_bind _ _ _ _ (attempt_window_carries_out faults keys pydantic vendor draws
        userId accountHash window) fun outcome => ih (sofar.add outcome)

theorem attempt_with_client_carries_out (accountHash : String) (windows : List SyncWindow) :
    CarriesOut (Undisturbed faults)
      (attemptWithClient faults keys pydantic vendor draws userId accountHash windows)
      (syncWithClient keys pydantic vendor draws userId accountHash windows) := by
  apply carries_out_reach _ _ _ fun calm => calm .lockForClient rfl
  apply carries_out_reach _ _ _ fun calm => calm .rereadConnection rfl
  apply carries_out_reads
  intro holder
  apply carries_out_reach _ _ _ fun calm => calm .buildClient rfl
  apply carries_out_reads
  intro built
  have written : ∀ outcome : SyncOutcome, CarriesOut (Undisturbed faults)
      (reach (faults .writeBack) >>= fun _ =>
        writes (fun db => (writeBack keys pydantic draws.token userId (afterVendor vendor holder)
          db).map (Prod.mk ())) >>= fun _ => reach (faults .closeClient) >>= fun _ => pure outcome)
      fun db => writeBack keys pydantic draws.token userId (afterVendor vendor holder) db >>=
        fun db => .ok (outcome, db) := by
    intro outcome
    apply carries_out_reach _ _ _ fun calm => calm .writeBack rfl
    have returns : CarriesOut (Undisturbed faults) (pure outcome : Job SyncOutcome)
        fun db => .ok (outcome, db) := carries_out_pure outcome
    have close := carries_out_reach (faults .closeClient) _ _ (fun calm => calm .closeClient rfl)
      returns
    have both := carries_out_bind _ _ _ _ (carries_out_writes fun db =>
      (writeBack keys pydantic draws.token userId (afterVendor vendor holder) db).map (Prod.mk ()))
      fun _ => close
    convert both using 2 with db
    cases writeBack keys pydantic draws.token userId (afterVendor vendor holder) db <;> rfl
  exact carries_out_bind _ _ _ _ (attempt_each_carries_out faults keys pydantic vendor draws userId
    accountHash windows.zipIdx ⟨0, 0, []⟩) written

theorem attempt_sync_user_returned (now : Instant) (db seen : Database) (outcome : SyncOutcome)
    (ran : attemptSyncUser faults keys pydantic settings vendor draws userId now db =
      some (.ok outcome, seen)) :
    syncUser keys pydantic settings vendor draws userId now db = some (.ok (outcome, seen)) := by
  obtain ⟨_, _, configured, ran⟩ := bind_eq_some _ _ db outcome seen ran
  obtain ⟨_, _, locked, ran⟩ := bind_eq_some _ _ _ outcome seen ran
  obtain ⟨_, _, reached, ran⟩ := bind_eq_some _ _ _ outcome seen ran
  obtain ⟨found, _, read, ran⟩ := bind_eq_some _ _ _ outcome seen ran
  cases reach_ok _ _ _ configured
  cases reach_ok _ _ _ locked
  cases reach_ok _ _ _ reached
  obtain ⟨readOk, same⟩ := reads_ok _ _ _ _ read
  cases same
  unfold syncUser
  rw [readOk]
  cases found with
  | none => cases ran
  | some connection =>
      obtain ⟨_, _, reached, ran⟩ := bind_eq_some _ _ _ outcome seen ran
      obtain ⟨windows, _, planned, ran⟩ := bind_eq_some _ _ _ outcome seen ran
      cases reach_ok _ _ _ reached
      obtain ⟨plannedOk, same⟩ := awaits_ok _ _ _ _ planned
      cases same
      dsimp only
      rw [plannedOk]
      exact congrArg some ((attempt_with_client_carries_out faults keys pydantic vendor draws userId
        connection.accountHash windows).returned db outcome seen ran)

/-- When nothing outside the code raises, the attempt ends as the run does. -/
theorem attempt_sync_user_undisturbed (now : Instant) (db : Database)
    (calm : Undisturbed faults) :
    (attemptSyncUser faults keys pydantic settings vendor draws userId now db).map Prod.fst =
      (syncUser keys pydantic settings vendor draws userId now db).map fun ended =>
        ended.map Prod.fst := by
  have quiet : ∀ point, point.inRun = true → reach (faults point) = fun db : Database =>
      some (.ok (), db) := by
    intro point inRun
    rw [calm point inRun]
    rfl
  unfold attemptSyncUser syncUser
  simp only [quiet .setConfig rfl, quiet .lock rfl, quiet .readConnection rfl,
    quiet .planWindows rfl, bind, reads, awaits]
  cases readConnection keys pydantic userId db with
  | error raised => rfl
  | ok found =>
      cases found with
      | none => rfl
      | some connection =>
          dsimp only
          cases syncWindows connection.lastSyncedAt now settings with
          | none => rfl
          | some planned =>
              cases planned with
              | error raised => rfl
              | ok windows =>
                  obtain ⟨seen, ended⟩ := (attempt_with_client_carries_out faults keys pydantic vendor
                    draws userId connection.accountHash windows).ends calm db
                  simp only [Option.map_some, ended]

/-! ## What is committed -/

/-- Nothing raises between the end of the run and its commit. -/
def Commits : Prop :=
  faults .recordRun = none ∧ faults .stampSynced = none ∧ faults .commit = none

theorem attempt_record_commits (call : TaskCall) (outcome : SyncOutcome)
    (commits : Commits faults) (db : Database) :
    attemptRecord faults userId call outcome db =
      some (.ok (), stampSynced userId call.startedAt (recordSyncRun userId call .succeeded
        (some outcome.fillsLanded) (some outcome.brokerTransactionsLanded) none db)) := by
  obtain ⟨recorded, stamped, committed⟩ := commits
  simp only [attemptRecord, recorded, stamped, committed, reach, writes, bind]

/-- What the run wrote is in the session's view when it raises, and gone after
the rollback; the second session adds its row to what was committed before. -/
theorem failed_attempt_records_once (call : TaskCall) (db seen : Database) (raised : Raised)
    (ran : attemptSyncUser faults keys pydantic settings vendor draws userId call.startedAt db =
      some (.error raised, seen)) :
    attemptSyncUserTask faults keys pydantic settings vendor draws userId call db =
      some (.error raised, { db with syncRuns := db.syncRuns ++ [failedRun userId call raised] }) := by
  have performed := (Session.start db).perform_eq _ _ seen ran
  have restored := Session.perform_rollback db _ _ _ performed
  simp only [attemptSyncUserTask, performed, restored]
  rfl

theorem committed_attempt_records_once (call : TaskCall) (db seen : Database)
    (outcome : SyncOutcome) (commits : Commits faults)
    (ran : attemptSyncUser faults keys pydantic settings vendor draws userId call.startedAt db =
      some (.ok outcome, seen)) :
    ∃ after, attemptSyncUserTask faults keys pydantic settings vendor draws userId call db =
        some (.ok (), after) ∧
      after.syncRuns = db.syncRuns ++ [succeededRun userId call outcome] ∧
      Grew db after outcome.brokerTransactionsLanded outcome.fillsLanded ∧
      storedLastSyncedAt userId after = some call.startedAt := by
  have synced := attempt_sync_user_returned faults keys pydantic settings vendor draws userId
    call.startedAt db seen outcome ran
  have performed := (Session.start db).perform_eq _ _ seen ran
  have recorded := attempt_record_commits faults userId call outcome commits seen
  refine ⟨stampSynced userId call.startedAt (recordSyncRun userId call .succeeded
    (some outcome.fillsLanded) (some outcome.brokerTransactionsLanded) none seen), ?_, ?_, ?_, ?_⟩
  · simp only [attemptSyncUserTask, performed,
      Session.perform_eq ⟨(Session.start db).committed, seen⟩ _ _ _ recorded]
    rfl
  · have untouched := sync_user_sync_runs keys pydantic settings vendor draws userId call.startedAt
      db seen outcome synced
    rw [← untouched]
    exact stamped_run_recorded userId call outcome seen
  · have grew := sync_user_grows keys pydantic settings vendor draws userId call.startedAt db seen
      outcome synced
    rw [stamp_synced_frame]
    exact ⟨grew.brokerTransactions, grew.fills⟩
  · obtain ⟨row, connected⟩ := sync_user_connected keys pydantic settings vendor draws userId
      call.startedAt db seen outcome synced
    have stamped := stamp_synced_get userId call.startedAt (recordSyncRun userId call .succeeded
      (some outcome.fillsLanded) (some outcome.brokerTransactionsLanded) none seen) row connected
    rw [storedLastSyncedAt, stamped]
    rfl

/-- A run that returned but was not committed leaves nothing, and no row. -/
theorem uncommitted_attempt_leaves_nothing (call : TaskCall) (db seen : Database)
    (outcome : SyncOutcome) (broken : ¬Commits faults)
    (ran : attemptSyncUser faults keys pydantic settings vendor draws userId call.startedAt db =
      some (.ok outcome, seen)) :
    ∃ raised, attemptSyncUserTask faults keys pydantic settings vendor draws userId call db =
      some (.error raised, db) := by
  have performed := (Session.start db).perform_eq _ _ seen ran
  have raises : ∃ raised after, attemptRecord faults userId call outcome seen =
      some (.error raised, after) := by
    unfold Commits at broken
    cases recorded : faults .recordRun with
    | some raised => exact ⟨raised, _, by simp only [attemptRecord, recorded, reach, bind]; rfl⟩
    | none =>
        cases stamped : faults .stampSynced with
        | some raised =>
            exact ⟨raised, _, by
              simp only [attemptRecord, recorded, stamped, reach, writes, bind]
              rfl⟩
        | none =>
            cases committed : faults .commit with
            | some raised =>
                exact ⟨raised, _, by
                  simp only [attemptRecord, recorded, stamped, committed, reach, writes, bind]
                  rfl⟩
            | none => exact absurd ⟨recorded, stamped, committed⟩ broken
  obtain ⟨raised, after, raises⟩ := raises
  refine ⟨raised, ?_⟩
  simp only [attemptSyncUserTask, performed,
    Session.perform_eq ⟨(Session.start db).committed, seen⟩ _ _ _ raises]
  rfl

/-- An attempt either failed and left its row, or was not committed, or was
committed with all its run wrote. -/
theorem attempt_task_cases (call : TaskCall) (db after : Database) (ended : Except Raised Unit)
    (ran : attemptSyncUserTask faults keys pydantic settings vendor draws userId call db =
      some (ended, after)) :
    (∃ raised, ended = .error raised ∧ after = { db with syncRuns := after.syncRuns }) ∨
      ∃ outcome seen, ended = .ok () ∧
        syncUser keys pydantic settings vendor draws userId call.startedAt db =
          some (.ok (outcome, seen)) ∧
        after = stampSynced userId call.startedAt (recordSyncRun userId call .succeeded
          (some outcome.fillsLanded) (some outcome.brokerTransactionsLanded) none seen) := by
  cases attempted : attemptSyncUser faults keys pydantic settings vendor draws userId call.startedAt
      db with
  | none => simp [attemptSyncUserTask, Session.perform, Session.start, attempted] at ran
  | some result =>
      obtain ⟨outcome, seen⟩ := result
      cases outcome with
      | error raised =>
          rw [failed_attempt_records_once faults keys pydantic settings vendor draws userId call db
            seen raised attempted] at ran
          cases ran
          exact Or.inl ⟨raised, rfl, rfl⟩
      | ok outcome =>
          by_cases commits : Commits faults
          · have synced := attempt_sync_user_returned faults keys pydantic settings vendor draws userId
              call.startedAt db seen outcome attempted
            have performed := (Session.start db).perform_eq _ _ seen attempted
            have recorded := attempt_record_commits faults userId call outcome commits seen
            simp only [attemptSyncUserTask, performed,
              Session.perform_eq ⟨(Session.start db).committed, seen⟩ _ _ _ recorded] at ran
            cases ran
            exact Or.inr ⟨outcome, seen, rfl, synced, rfl⟩
          · obtain ⟨raised, uncommitted⟩ := uncommitted_attempt_leaves_nothing faults keys pydantic
              settings vendor draws userId call db seen outcome commits attempted
            rw [uncommitted] at ran
            cases ran
            exact Or.inl ⟨raised, rfl, rfl⟩

/-- Every attempt is atomic and recorded once. -/
theorem sync_attempt_is_atomic (call : TaskCall) (db : Database) :
    (∀ raised seen, attemptSyncUser faults keys pydantic settings vendor draws userId
        call.startedAt db = some (.error raised, seen) →
      attemptSyncUserTask faults keys pydantic settings vendor draws userId call db =
        some (.error raised,
          { db with syncRuns := db.syncRuns ++ [failedRun userId call raised] })) ∧
      ∀ outcome seen, attemptSyncUser faults keys pydantic settings vendor draws userId
        call.startedAt db = some (.ok outcome, seen) → Commits faults →
      ∃ after, attemptSyncUserTask faults keys pydantic settings vendor draws userId call db =
          some (.ok (), after) ∧
        after.syncRuns = db.syncRuns ++ [succeededRun userId call outcome] ∧
        Grew db after outcome.brokerTransactionsLanded outcome.fillsLanded ∧
        storedLastSyncedAt userId after = some call.startedAt := by
  constructor
  · intro raised seen ran
    exact failed_attempt_records_once faults keys pydantic settings vendor draws userId call db seen
      raised ran
  · intro outcome seen ran commits
    exact committed_attempt_records_once faults keys pydantic settings vendor draws userId call db
      seen outcome commits ran

/-- Undisturbed, the statements are the job. -/
theorem attempt_task_undisturbed (call : TaskCall) (db : Database) (calm : Undisturbed faults)
    (commits : Commits faults) :
    attemptSyncUserTask faults keys pydantic settings vendor draws userId call db =
      syncUserTask keys pydantic settings vendor draws userId call db := by
  have ended := attempt_sync_user_undisturbed faults keys pydantic settings vendor draws userId
    call.startedAt db calm
  cases ran : attemptSyncUser faults keys pydantic settings vendor draws userId call.startedAt db with
  | none =>
      rw [ran, Option.map_none, eq_comm, Option.map_eq_none_iff] at ended
      simp only [attemptSyncUserTask, Session.perform, Session.start, ran, Option.map_none,
        syncUserTask, ended]
  | some result =>
      obtain ⟨outcome, seen⟩ := result
      rw [ran, Option.map_some, eq_comm, Option.map_eq_some_iff] at ended
      obtain ⟨planned, synced, shape⟩ := ended
      cases outcome with
      | error raised =>
          cases planned with
          | ok found => cases shape
          | error same =>
              cases shape
              rw [failed_attempt_records_once faults keys pydantic settings vendor draws userId call db
                seen raised ran]
              simp only [syncUserTask, synced]
              rfl
      | ok outcome =>
          have returned := attempt_sync_user_returned faults keys pydantic settings vendor draws
            userId call.startedAt db seen outcome ran
          have recorded := attempt_record_commits faults userId call outcome commits seen
          have performed := (Session.start db).perform_eq _ _ seen ran
          simp only [attemptSyncUserTask, performed, syncUserTask, returned,
            Session.perform_eq ⟨(Session.start db).committed, seen⟩ _ _ _ recorded]
          rfl

end Statements

/-! ## An attempt interrupted after its inserts -/

/-- The client's connection breaks while it is being closed. -/
def closeFails : Point → Option Raised
  | .closeClient => some .other
  | _ => none

def oneTrade : VendorRun := answering [tradeElement 1 (.str "100")]

def afternoonCall : TaskCall := ⟨afternoon, afternoon, .manual⟩

def filledBy (seen : Database) : Nat := seen.fills.rows.length

theorem sync_attempt_is_atomic_at_close :
    (∃ seen, filledBy seen = 1 ∧ attemptSyncUserTask closeFails plainKeys plainPydantic {} oneTrade
        plainDraws ⟨1⟩ afternoonCall syncedUser = some (.error .other,
          { syncedUser with syncRuns := [failedRun ⟨1⟩ afternoonCall .other] })) ∧
      ∃ after, attemptSyncUserTask (fun _ => none) plainKeys plainPydantic {} oneTrade plainDraws ⟨1⟩
        afternoonCall syncedUser = some (.ok (), after) ∧
        storedLastSyncedAt ⟨1⟩ after = some afternoon := by
  have interrupted : ((attemptSyncUser closeFails plainKeys plainPydantic {} oneTrade plainDraws ⟨1⟩
      afternoon syncedUser).any fun ended =>
        (match ended.1 with | .error raised => raised = .other | .ok _ => false) &&
          filledBy ended.2 = 1) = true := by decide +kernel
  have whole : ((attemptSyncUser (fun _ => none) plainKeys plainPydantic {} oneTrade plainDraws ⟨1⟩
      afternoon syncedUser).any fun ended => ended.1.toOption.isSome) = true := by decide +kernel
  constructor
  · cases ran : attemptSyncUser closeFails plainKeys plainPydantic {} oneTrade plainDraws ⟨1⟩
        afternoon syncedUser with
    | none => simp [ran] at interrupted
    | some ended =>
        obtain ⟨outcome, seen⟩ := ended
        rw [ran] at interrupted
        cases outcome with
        | ok outcome => simp at interrupted
        | error raised =>
            simp only [Option.any_some, Bool.and_eq_true, decide_eq_true_eq] at interrupted
            refine ⟨seen, interrupted.2, ?_⟩
            rw [← interrupted.1]
            exact (sync_attempt_is_atomic closeFails plainKeys plainPydantic {} oneTrade plainDraws ⟨1⟩
              afternoonCall syncedUser).1 raised seen ran
  · cases ran : attemptSyncUser (fun _ => none) plainKeys plainPydantic {} oneTrade plainDraws ⟨1⟩
        afternoon syncedUser with
    | none => simp [ran] at whole
    | some ended =>
        obtain ⟨outcome, seen⟩ := ended
        rw [ran] at whole
        cases outcome with
        | error raised => simp [Except.toOption] at whole
        | ok outcome =>
            obtain ⟨after, committed, _, _, stamped⟩ := (sync_attempt_is_atomic (fun _ => none)
              plainKeys plainPydantic {} oneTrade plainDraws ⟨1⟩ afternoonCall syncedUser).2 outcome
              seen ran ⟨rfl, rfl, rfl⟩
            exact ⟨after, committed, stamped⟩

end Morai.Worker.SyncAttempt
