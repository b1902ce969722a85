import Morai.Worker.ConnectionTransactions
import Morai.Worker.SyncUserTask

/-!
# A job that meets no other

The statements of a job, taken with nobody else holding a lock, do to the
connection rows what `sync_user_task` as a whole does, and ask for the same
windows; a callback taken alone is `upsert_connection`. So the interleaved
system is about the same two functions.
-/

namespace Morai.Worker.SoleJob

open Morai.Crypto Morai.Db Morai.Python Morai.Foundation.PrimaryKey Morai.Foundation.Runs
open Morai.Foundation.HeldLocks Morai.Ingest.SyncWindows Morai.Ingest.SyncUser
open Morai.Vendor.Connections Morai.Worker.SyncUserTask Morai.Worker.ConnectionTransactions

set_option autoImplicit false

section Statements

variable (keys : KeyService) (pydantic : Pydantic) (settings : Settings)
  (grantOf : JsonValue → Instant) (userId : Uuid)

/-- Several statements of one transaction on one committed database. -/
def executeAll (db : Database) : Option Txn → List (Statement pydantic) → Option Txn
  | before, [] => before
  | before, statement :: rest =>
      (execute keys pydantic settings grantOf userId db before statement).bind fun txn =>
        executeAll db (some txn) rest

/-- Every lock is free or the transaction's own. -/
def Alone (state : System) (id : Nat) : Prop :=
  ∀ lock, state.locking.holder lock = none ∨ state.locking.holder lock = some id

theorem execute_alone (state : System) (id : Nat) (statement : Statement pydantic) (txn : Txn)
    (alone : Alone state id)
    (executed : execute keys pydantic settings grantOf userId state.db (state.locking.txns id)
      statement = some txn) :
    ∃ next, step keys pydantic settings grantOf userId state (.execute id statement) = some next ∧
      next.db = state.db ∧ next.synced = state.synced ∧
      next.locking.txns id = some txn ∧ Alone next id := by
  have free : ∀ lock, txn.holds lock = true →
      state.locking.holder lock = none ∨ state.locking.holder lock = some id :=
    fun lock _ => alone lock
  refine ⟨{ state with locking :=
      { holder := fun lock => if txn.holds lock then some id else state.locking.holder lock
        txns := Function.update state.locking.txns id (some txn) } }, ?_, rfl, rfl, ?_, ?_⟩
  · simp only [step, executed, advance, if_pos free, bind, Option.bind_some]
  · exact Function.update_self ..
  · intro lock
    dsimp only
    split_ifs
    · exact Or.inr rfl
    · exact alone lock

theorem execute_all_alone (id : Nat) (statements : List (Statement pydantic)) (state : System)
    (txn : Txn) (alone : Alone state id)
    (executed : executeAll keys pydantic settings grantOf userId state.db (state.locking.txns id)
      statements = some txn) :
    ∃ next, runFrom (step keys pydantic settings grantOf userId)
        (statements.map (Action.execute id)) state = some next ∧
      next.db = state.db ∧ next.synced = state.synced ∧ next.locking.txns id = some txn := by
  induction statements generalizing state with
  | nil => exact ⟨state, rfl, rfl, rfl, executed⟩
  | cons statement rest ih =>
      obtain ⟨moved, first, later⟩ := Option.bind_eq_some_iff.mp executed
      obtain ⟨middle, stepped, sameDb, sameSynced, found, stillAlone⟩ :=
        execute_alone keys pydantic settings grantOf userId state id statement moved alone first
      rw [← sameDb, ← found] at later
      obtain ⟨next, ran, nextDb, nextSynced, nextFound⟩ := ih middle stillAlone later
      refine ⟨next, ?_, nextDb.trans sameDb, nextSynced.trans sameSynced, nextFound⟩
      rw [List.map_cons, runFrom, stepped]
      exact ran

theorem execute_all_append (db : Database) (before : Option Txn) (txn : Txn)
    (left right : List (Statement pydantic))
    (executed : executeAll keys pydantic settings grantOf userId db before left = some txn) :
    executeAll keys pydantic settings grantOf userId db before (left ++ right) =
      executeAll keys pydantic settings grantOf userId db (some txn) right := by
  induction left generalizing before with
  | nil => exact congrArg (executeAll keys pydantic settings grantOf userId db · right) executed
  | cons statement rest ih =>
      obtain ⟨moved, first, later⟩ := Option.bind_eq_some_iff.mp executed
      rw [List.cons_append, executeAll, first]
      exact ih (some moved) later

/-- One request for each window left. -/
theorem execute_requests (db : Database) (startedAt : Instant) (plan : Plan)
    (requested remaining : List SyncWindow) (holder : TokenHolder) (overtaken : Bool) :
    executeAll keys pydantic settings grantOf userId db
        (some (.fetching startedAt plan requested remaining holder overtaken))
        (List.replicate remaining.length .request) =
      some (.fetching startedAt plan (requested ++ remaining) [] holder overtaken) := by
  induction remaining generalizing requested with
  | nil =>
      rw [List.append_nil]
      rfl
  | cons window rest ih =>
      rw [List.length_cons, List.replicate_succ, executeAll]
      refine (ih (requested ++ [window])).trans ?_
      rw [List.append_assoc]
      rfl

end Statements

section Job

variable (keys : KeyService) (pydantic : Pydantic) (settings : Settings)
  (grantOf : JsonValue → Instant) (vendor : VendorRun) (draws : SyncDraws) (userId : Uuid)
  (call : TaskCall)

/-- The refreshed token with its wrapper's timestamp, if the vendor refreshed
in the run. -/
abbrev Refreshed := Option (Int × StorableToken pydantic)

def refreshStatements : Refreshed pydantic → List (Statement pydantic)
  | none => []
  | some fresh => [.refresh fresh.1 fresh.2]

def jobStatements (startedAt : Instant) (refreshed : Refreshed pydantic) (requests : Nat)
    (nonce : Bytes) : List (Statement pydantic) :=
  [.begin startedAt, .lock, .plan, .openClient] ++
    (refreshStatements pydantic refreshed ++ (List.replicate requests .request ++
      [.persist nonce, .stamp]))

/-- A whole job of transaction `id`. -/
def soleJob (id : Nat) (startedAt : Instant) (refreshed : Refreshed pydantic) (requests : Nat)
    (nonce : Bytes) : List (Action pydantic) :=
  (jobStatements pydantic startedAt refreshed requests nonce).map (Action.execute id) ++
    [.commit id]

/-- The vendor's part of a run, said as the interleaved system says it. -/
structure RefreshedAs (db : Database) (refreshed : Refreshed pydantic) : Prop where
  written : vendor.written = refreshed.map fun fresh => wrapToken fresh.1 fresh.2.value
  ofGrant : ∀ record fresh, readConnection keys pydantic userId db = .ok (some record) →
    refreshed = some fresh → grantOf fresh.2.value = grantOf record.token

theorem opened_alone (db : Database) (startedAt : Instant) (connection : ConnectionRecord)
    (windows : List SyncWindow) (holder : TokenHolder)
    (read : readConnection keys pydantic userId db = .ok (some connection))
    (planned : syncWindows connection.lastSyncedAt startedAt settings = some (.ok windows))
    (opened : openHolder keys pydantic userId db = .ok holder) :
    executeAll keys pydantic settings grantOf userId db none
        [.begin startedAt, .lock, .plan, .openClient] =
      some (.fetching startedAt ⟨connection.lastSyncedAt, connection.accountHash, windows⟩ []
        windows holder false) := by
  have made : makePlan keys pydantic settings userId startedAt db =
      some ⟨connection.lastSyncedAt, connection.accountHash, windows⟩ := by
    simp only [makePlan, read, planned]
  simp only [executeAll, execute, made, opened, Option.bind_some, Option.map_some]

theorem refreshed_alone (db : Database) (refreshed : Refreshed pydantic) (startedAt : Instant)
    (plan : Plan) (remaining : List SyncWindow) (holder : TokenHolder)
    (vendorPart : RefreshedAs keys pydantic grantOf vendor userId db refreshed)
    (opened : openHolder keys pydantic userId db = .ok holder) :
    executeAll keys pydantic settings grantOf userId db
        (some (.fetching startedAt plan [] remaining holder false))
        (refreshStatements pydantic refreshed) =
      some (.fetching startedAt plan [] remaining (afterVendor vendor holder) false) := by
  obtain ⟨record, read, wrapped, _⟩ := open_holder_ok keys pydantic userId db holder opened
  cases found : refreshed with
  | none =>
      have silent : vendor.written = none := by rw [vendorPart.written, found, Option.map_none]
      simp only [refreshStatements, executeAll, afterVendor, silent]
  | some fresh =>
      have spoken : vendor.written = some (wrapToken fresh.1 fresh.2.value) := by
        rw [vendorPart.written, found, Option.map_some]
      have same : sameGrant grantOf holder fresh.2.value = true := by
        simp only [sameGrant, wrapped, vendorPart.ofGrant record fresh read found, decide_true]
      simp only [refreshStatements, executeAll, execute, same, if_true, Option.bind_some,
        afterVendor, spoken]

/-- A write-back looks at the connection rows and the data keys alone. -/
theorem write_back_congr (nonce : Bytes) (holder : TokenHolder) (left right after : Database)
    (connections : left.schwabConnections = right.schwabConnections)
    (sameKeys : left.userDataKeys = right.userDataKeys)
    (ran : writeBack keys pydantic nonce userId holder left = .ok after) :
    ∃ other, writeBack keys pydantic nonce userId holder right = .ok other ∧
      other.schwabConnections = after.schwabConnections := by
  unfold writeBack at ran ⊢
  split_ifs at ran ⊢ with wrote
  · rw [current_dek_congr keys left right userId sameKeys, connections] at ran
    split at ran
    · cases ran
    · obtain ⟨⟨dek, keyVersion⟩, current, ran⟩ := bind_ok _ _ _ ran
      simp only [current, bind, Except.bind]
      cases found : right.schwabConnections.get? userId with
      | none =>
          simp only [found, Except.ok.injEq] at ran
          exact ⟨right, rfl, by rw [← ran, connections]⟩
      | some row =>
          simp only [found, Except.ok.injEq] at ran
          exact ⟨_, rfl, by rw [← ran, storeConnection, storeConnection, connections]⟩
  · cases ran
    exact ⟨_, rfl, connections.symm⟩

theorem write_back_rows (nonce : Bytes) (holder : TokenHolder) (db after : Database)
    (row : SchwabConnection) (stored : db.schwabConnections.get? userId = some row)
    (ran : writeBack keys pydantic nonce userId holder db = .ok after) :
    (∃ row', after.schwabConnections.get? userId = some row') ∧
      ∀ owner, owner ≠ userId →
        after.schwabConnections.get? owner = db.schwabConnections.get? owner := by
  cases write_back_ok keys pydantic nonce userId holder db after row stored ran with
  | inl kept =>
      obtain ⟨_, same⟩ := kept
      subst same
      exact ⟨⟨row, stored⟩, fun _ _ => rfl⟩
  | inr wrote =>
      obtain ⟨token, dek, keyVersion, _, _, _, shape⟩ := wrote
      have owned : (setToken row (encryptToken keys userId dek nonce token) nonce
          keyVersion).userId = userId := connection_get_owner db userId row stored
      subst shape
      constructor
      · exact ⟨_, (store_connection_get db _ userId).trans (if_pos owned)⟩
      · intro owner apart
        rw [store_connection_get, owned]
        exact if_neg (Ne.symm apart)

theorem stamp_synced_other (startedAt : Instant) (db : Database) (owner : Uuid)
    (apart : owner ≠ userId) :
    (stampSynced userId startedAt db).schwabConnections.get? owner =
      db.schwabConnections.get? owner := by
  unfold stampSynced
  cases stored : db.schwabConnections.get? userId with
  | none => rfl
  | some row =>
      have owned := connection_get_owner db userId row stored
      dsimp only
      rw [store_connection_get]
      exact if_neg fun same => apart (same.symm.trans owned)

/-- The rest of a job, from the answered requests to the stamp. -/
theorem closed_alone (db after : Database) (startedAt : Instant) (plan : Plan)
    (requested : List SyncWindow) (holder : TokenHolder) (nonce : Bytes)
    (row row' : SchwabConnection) (stored : db.schwabConnections.get? userId = some row)
    (written : writeBack keys pydantic nonce userId holder db = .ok after)
    (left : after.schwabConnections.get? userId = some row') :
    ∃ stale, executeAll keys pydantic settings grantOf userId db
        (some (.fetching startedAt plan requested [] holder false)) [.persist nonce, .stamp] =
      some (.stamped startedAt plan requested stale { row' with lastSyncedAt := some startedAt }) := by
  have owner := connection_get_owner after userId row' left
  let pending := if holder.wrote then after.schwabConnections.get? userId else none
  have seen : (view db pending).schwabConnections.get? userId = some row' := by
    cases write_back_ok keys pydantic nonce userId holder db after row stored written with
    | inl kept =>
        have nothing : pending = none := by simp only [pending, kept.1, Bool.false_eq_true, if_false]
        rw [nothing, view, ← kept.2]
        exact left
    | inr wrote =>
        obtain ⟨_, _, _, wrote, _⟩ := wrote
        have own : pending = some row' := by simp only [pending, wrote, if_true, left]
        rw [own, view, store_connection_get]
        exact if_pos owner
  have stamped := stamp_synced_get userId startedAt (view db pending) row' seen
  refine ⟨holder.wrote && false, ?_⟩
  simp only [executeAll, execute, written, Option.bind_some]
  change Option.bind (Option.map _ ((stampSynced userId startedAt
    (view db pending)).schwabConnections.get? userId)) some = _
  rw [stamped]
  rfl

/-- All statements of a job whose run returned, with the row they leave. -/
theorem job_alone (db written middle : Database) (outcome : SyncOutcome)
    (connection : ConnectionRecord) (windows : List SyncWindow) (holder : TokenHolder)
    (refreshed : Refreshed pydantic)
    (vendorPart : RefreshedAs keys pydantic grantOf vendor userId db refreshed)
    (stages : RunStages keys pydantic settings vendor draws userId call.startedAt db written outcome
      connection windows holder middle) :
    ∃ row stale, written.schwabConnections.get? userId = some row ∧
      (∀ owner, owner ≠ userId →
        written.schwabConnections.get? owner = db.schwabConnections.get? owner) ∧
      executeAll keys pydantic settings grantOf userId db none
          (jobStatements pydantic call.startedAt refreshed windows.length draws.token) =
        some (.stamped call.startedAt
          ⟨connection.lastSyncedAt, connection.accountHash, windows⟩ windows stale
          { row with lastSyncedAt := some call.startedAt }) := by
  obtain ⟨old, stored, _⟩ := read_connection_ok keys pydantic userId db connection stages.read
  have frame := sync_each_frame keys pydantic vendor draws userId connection.accountHash
    windows.zipIdx _ outcome db middle stages.synced
  have sameRows : middle.schwabConnections = db.schwabConnections := by rw [frame]
  have sameKeys : middle.userDataKeys = db.userDataKeys := by rw [frame]
  obtain ⟨other, otherWritten, otherRows⟩ := write_back_congr keys pydantic userId draws.token _
    middle db written sameRows sameKeys stages.written
  obtain ⟨⟨row, left⟩, others⟩ := write_back_rows keys pydantic userId draws.token _ db other old
    stored otherWritten
  let plan : Plan := ⟨connection.lastSyncedAt, connection.accountHash, windows⟩
  obtain ⟨stale, closed⟩ := closed_alone keys pydantic settings grantOf userId db other
    call.startedAt plan windows (afterVendor vendor holder) draws.token old row stored otherWritten
    left
  refine ⟨row, stale, otherRows ▸ left, fun owner apart => otherRows ▸ others owner apart, ?_⟩
  have opened := opened_alone keys pydantic settings grantOf userId db call.startedAt connection
    windows holder stages.read stages.planned stages.opened
  have spoken := refreshed_alone keys pydantic settings grantOf vendor userId db refreshed
    call.startedAt plan windows holder vendorPart stages.opened
  have asked := execute_requests keys pydantic settings grantOf userId db call.startedAt plan []
    windows (afterVendor vendor holder) false
  unfold jobStatements
  rw [execute_all_append _ _ _ _ _ _ _ _ _ _ opened,
    execute_all_append _ _ _ _ _ _ _ _ _ _ spoken,
    execute_all_append _ _ _ _ _ _ _ _ _ _ asked]
  exact closed

/-- A job alone from its first statement to its commit does to the connection
rows what `sync_user_task` does, and asks for the same windows. -/
theorem sole_job_is_sync_user_task (id : Nat) (db after : Database)
    (refreshed : Refreshed pydantic)
    (vendorPart : RefreshedAs keys pydantic grantOf vendor userId db refreshed)
    (ran : syncUserTask keys pydantic settings vendor draws userId call db =
      some (.ok (), after)) :
    ∃ accountHash windows final, runFrom (step keys pydantic settings grantOf userId)
        (soleJob pydantic id call.startedAt refreshed windows.length draws.token)
        (quietSystem db) = some final ∧
      requestedCalls keys pydantic settings userId call.startedAt db =
        windows.map (Prod.mk accountHash) ∧
      final.synced = [⟨call.startedAt, storedLastSyncedAt userId db, windows⟩] ∧
      ∀ owner, final.db.schwabConnections.get? owner = after.schwabConnections.get? owner := by
  obtain ⟨outcome, written, synced, connections, _⟩ :=
    sync_user_task_ok keys pydantic settings vendor draws userId call db after ran
  obtain ⟨connection, windows, holder, middle, stages⟩ :=
    sync_user_ok keys pydantic settings vendor draws userId call.startedAt db written outcome synced
  obtain ⟨row, stale, left, others, statements⟩ := job_alone keys pydantic settings grantOf vendor
    draws userId call db written middle outcome connection windows holder refreshed vendorPart stages
  let plan : Plan := ⟨connection.lastSyncedAt, connection.accountHash, windows⟩
  let stamped : SchwabConnection := { row with lastSyncedAt := some call.startedAt }
  obtain ⟨last, executed, sameDb, noneSynced, found⟩ := execute_all_alone keys pydantic settings
    grantOf userId id _ (quietSystem db) (.stamped call.startedAt plan windows stale stamped)
    (fun _ => Or.inl rfl) statements
  have owned : row.userId = userId := connection_get_owner written userId row left
  refine ⟨connection.accountHash, windows,
    { db := storeConnection db stamped
      locking := finish last.locking id
      synced := [⟨call.startedAt, plan.lastSyncedAt, windows⟩] }, ?_, ?_, ?_, ?_⟩
  · rw [soleJob, run_from_append, executed, Option.bind_some, runFrom]
    simp only [step, found, sameDb, noneSynced]
    rfl
  · simp only [requestedCalls, stages.read, stages.planned]
  · obtain ⟨old, stored, read⟩ := read_connection_ok keys pydantic userId db connection stages.read
    have columns := read_row_columns keys pydantic db userId old connection read
    have planned : plan.lastSyncedAt = storedLastSyncedAt userId db := by
      rw [storedLastSyncedAt, stored]
      exact congrArg ConnectionRecord.lastSyncedAt columns
    rw [planned]
  · intro owner
    rw [connections, store_connection_get]
    by_cases own : owner = userId
    · subst own
      rw [stamp_synced_get owner call.startedAt written row left]
      exact if_pos owned
    · rw [stamp_synced_other userId call.startedAt written owner own, others owner own]
      exact if_neg fun same => own (same.symm.trans owned)

/-- A callback alone is `upsert_connection`. -/
theorem sole_callback_is_upsert (id : Nat) (db after : Database) (draw : UpsertDraw)
    (token : StorableToken pydantic) (createdAt : Instant) (accountHash : String)
    (anchored : grantOf token.value = createdAt)
    (ran : upsertConnection keys draw userId ⟨token.value, createdAt⟩ accountHash db =
      .ok after) :
    ∃ final, runFrom (step keys pydantic settings grantOf userId)
        [.execute id (.upsert draw token createdAt accountHash), .commit id] (quietSystem db) =
          some final ∧ final.db = after := by
  obtain ⟨dek, keyVersion, row, shape, upserted⟩ :=
    upsert_connection_ok keys draw userId ⟨token.value, createdAt⟩ accountHash db after ran
  have stored : after.schwabConnections.get? userId = some row := by
    rw [shape, store_connection_get]
    exact if_pos upserted.holds.owner
  have executed : execute keys pydantic settings grantOf userId (quietSystem db).db
      ((quietSystem db).locking.txns id) (.upsert draw token createdAt accountHash) =
      some (.callback row) := by
    change (if grantOf token.value = createdAt then _ else none) = _
    rw [if_pos anchored]
    simp only [quietSystem, ran, stored, Option.map_some]
  obtain ⟨next, stepped, sameDb, _, found, _⟩ := execute_alone keys pydantic settings grantOf userId
    (quietSystem db) id _ _ (fun _ => Or.inl rfl) executed
  refine ⟨{ next with
    db := storeConnection next.db row
    locking := mapTxns Txn.overtake (finish next.locking id) }, ?_, ?_⟩
  · rw [runFrom, stepped, Option.bind_some, runFrom]
    simp only [step, found]
    rfl
  · rw [shape, sameDb]
    rfl

end Job

end Morai.Worker.SoleJob
