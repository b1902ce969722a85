import Morai.Foundation.HeldLocks
import Morai.Foundation.Runs
import Morai.Ingest.SyncWindows
import Morai.Vendor.Connections

/-!
# Jobs and callbacks of one user, interleaved

Under READ COMMITTED each statement works on the last committed row and on its
own transaction's version of it. A job takes the user's advisory lock before
it reads anything and keeps it until it ends; the row lock goes to whoever
writes the connection row, until that transaction ends. The callback takes no
advisory lock. Broker transactions, fills and `sync_runs` rows are left out
here: nothing a job decides depends on them.
-/

namespace Morai.Worker.ConnectionTransactions

open Morai.Crypto Morai.Db Morai.Python Morai.Foundation.PrimaryKey Morai.Foundation.HeldLocks
open Morai.Ingest.SyncWindows Morai.Vendor.Connections

set_option autoImplicit false

/-- What `sync_user` has read and computed before it opens its client. -/
structure Plan where
  lastSyncedAt : Option Instant
  accountHash : String
  windows : List SyncWindow

/-- An open transaction, by how far it has come. `overtaken` records that a
callback committed after this job read its token, `stale` that the job then
wrote the refreshed token back. -/
inductive Txn where
  | waiting (startedAt : Instant)
  | locked (startedAt : Instant)
  | planned (startedAt : Instant) (plan : Plan)
  | fetching (startedAt : Instant) (plan : Plan) (requested remaining : List SyncWindow)
      (holder : TokenHolder) (overtaken : Bool)
  | persisted (startedAt : Instant) (plan : Plan) (requested : List SyncWindow) (stale : Bool)
      (pending : Option SchwabConnection)
  | stamped (startedAt : Instant) (plan : Plan) (requested : List SyncWindow) (stale : Bool)
      (pending : SchwabConnection)
  | callback (pending : SchwabConnection)

inductive Lock where
  | advisory
  | connectionRow
  deriving DecidableEq

instance : Fintype Lock := ⟨{.advisory, .connectionRow}, by intro lock; cases lock <;> decide⟩

/-- The transaction's own uncommitted version of the row. -/
def Txn.pending : Txn → Option SchwabConnection
  | .persisted _ _ _ _ pending => pending
  | .stamped _ _ _ _ pending => some pending
  | .callback pending => some pending
  | _ => none

/-- A job that would commit the refreshed token of an overtaken grant. -/
def Txn.stale : Txn → Bool
  | .stamped _ _ _ stale _ => stale
  | _ => false

def Txn.holds (txn : Txn) : Lock → Bool
  | .advisory =>
      match txn with
      | .waiting _ => false
      | .callback _ => false
      | _ => true
  | .connectionRow => txn.pending.isSome

variable (keys : KeyService) (pydantic : Pydantic)

/-- The statements of the two transactions, in the order the code issues
them: `sync_user_task` from `begin` to `stamp`, the callback with `upsert`. -/
inductive Statement where
  | begin (startedAt : Instant)
  | lock
  | plan
  | openClient
  | refresh (creationTimestamp : Int) (token : StorableToken pydantic)
  | request
  | persist (nonce : Bytes)
  | stamp
  | upsert (draw : UpsertDraw) (token : StorableToken pydantic) (createdAt : Instant)
      (accountHash : String)

section Statements

variable (settings : Settings) (grantOf : JsonValue → Instant) (userId : Uuid)

/-- The database as the transaction sees it. -/
def view (db : Database) : Option SchwabConnection → Database
  | none => db
  | some row => storeConnection db row

/-- `read_connection` and `sync_windows`. -/
def makePlan (startedAt : Instant) (db : Database) : Option Plan :=
  match readConnection keys pydantic userId db with
  | .ok (some connection) =>
      match syncWindows connection.lastSyncedAt startedAt settings with
      | some (.ok windows) => some ⟨connection.lastSyncedAt, connection.accountHash, windows⟩
      | _ => none
  | _ => none

/-- A refreshed token belongs to the grant of the token it was refreshed
from. -/
def sameGrant (holder : TokenHolder) (token : JsonValue) : Bool :=
  match wrappedToken holder.token with
  | none => false
  | some old => grantOf token = grantOf old

/-- One statement on the committed database; `none` when the transaction is
not at that point or the statement raises. -/
def execute (db : Database) : Option Txn → Statement pydantic → Option Txn
  | none, .begin startedAt => some (.waiting startedAt)
  | none, .upsert draw token createdAt accountHash =>
      if grantOf token.value = createdAt then
        match upsertConnection keys draw userId ⟨token.value, createdAt⟩ accountHash db with
        | .ok after => (after.schwabConnections.get? userId).map .callback
        | .error _ => none
      else none
  | some (.waiting startedAt), .lock => some (.locked startedAt)
  | some (.locked startedAt), .plan =>
      (makePlan keys pydantic settings userId startedAt db).map (.planned startedAt)
  | some (.planned startedAt plan), .openClient =>
      match openHolder keys pydantic userId db with
      | .ok holder => some (.fetching startedAt plan [] plan.windows holder false)
      | .error _ => none
  | some (.fetching startedAt plan requested remaining holder overtaken),
      .refresh creationTimestamp token =>
      if sameGrant grantOf holder token.value then
        some (.fetching startedAt plan requested remaining
          (holder.write (wrapToken creationTimestamp token.value)) overtaken)
      else none
  | some (.fetching startedAt plan requested (window :: remaining) holder overtaken), .request =>
      some (.fetching startedAt plan (requested ++ [window]) remaining holder overtaken)
  | some (.fetching startedAt plan requested [] holder overtaken), .persist nonce =>
      match writeBack keys pydantic nonce userId holder db with
      | .ok after =>
          some (.persisted startedAt plan requested (holder.wrote && overtaken)
            (if holder.wrote then after.schwabConnections.get? userId else none))
      | .error _ => none
  | some (.persisted startedAt plan requested stale pending), .stamp =>
      ((stampSynced userId startedAt (view db pending)).schwabConnections.get? userId).map
        (.stamped startedAt plan requested stale)
  | _, _ => none

end Statements

/-! ## The system -/

/-- A committed job, with what it asked the vendor for. -/
structure SyncedRun where
  startedAt : Instant
  lastSyncedAt : Option Instant
  windows : List SyncWindow
  deriving DecidableEq

structure System where
  db : Database
  locking : Locking Lock Txn
  synced : List SyncedRun

inductive Action where
  | execute (id : Nat) (statement : Statement pydantic)
  | commit (id : Nat)
  | rollback (id : Nat)

def Txn.overtake : Txn → Txn
  | .fetching startedAt plan requested remaining holder _ =>
      .fetching startedAt plan requested remaining holder true
  | txn => txn

section System

variable (settings : Settings) (grantOf : JsonValue → Instant) (userId : Uuid)

def step (state : System) : Action pydantic → Option System
  | .execute id statement => do
      let txn ← execute keys pydantic settings grantOf userId state.db (state.locking.txns id)
        statement
      let locking ← advance Txn.holds state.locking id txn
      some { state with locking := locking }
  | .commit id =>
      match state.locking.txns id with
      | some (.stamped startedAt plan requested _ pending) =>
          some { db := storeConnection state.db pending
                 locking := finish state.locking id
                 synced := state.synced ++ [⟨startedAt, plan.lastSyncedAt, requested⟩] }
      | some (.callback pending) =>
          some { state with
                 db := storeConnection state.db pending
                 locking := mapTxns Txn.overtake (finish state.locking id) }
      | _ => none
  | .rollback id =>
      if (state.locking.txns id).isSome then
        some { state with locking := finish state.locking id }
      else none

/-- No transaction open, no lock held, no job committed yet. -/
def Quiet (state : System) : Prop :=
  state.locking = Locking.idle ∧ state.synced = []

/-! ## What a step can do -/

theorem execute_step (state next : System) (id : Nat) (statement : Statement pydantic)
    (stepped : step keys pydantic settings grantOf userId state (.execute id statement) =
      some next) :
    ∃ txn, execute keys pydantic settings grantOf userId state.db (state.locking.txns id)
        statement = some txn ∧
      advance Txn.holds state.locking id txn = some next.locking ∧
      next.db = state.db ∧ next.synced = state.synced := by
  obtain ⟨txn, executed, later⟩ := Option.bind_eq_some_iff.mp stepped
  obtain ⟨locking, advanced, made⟩ := Option.bind_eq_some_iff.mp later
  cases made
  exact ⟨txn, executed, advanced, rfl, rfl⟩

/-- After a statement each transaction is the one it moved, or where it was. -/
theorem execute_txns (state next : System) (id : Nat) (statement : Statement pydantic)
    (stepped : step keys pydantic settings grantOf userId state (.execute id statement) =
      some next) (other : Nat) (found : Txn) (present : next.locking.txns other = some found) :
    next.db = state.db ∧
      ((other = id ∧ execute keys pydantic settings grantOf userId state.db
          (state.locking.txns id) statement = some found) ∨
        (other ≠ id ∧ state.locking.txns other = some found)) := by
  obtain ⟨txn, executed, advanced, sameDb, _⟩ :=
    execute_step keys pydantic settings grantOf userId state next id statement stepped
  refine ⟨sameDb, ?_⟩
  cases advance_txns Txn.holds state.locking next.locking id other txn found advanced present with
  | inl moved => exact Or.inl ⟨moved.1, moved.2 ▸ executed⟩
  | inr unmoved => exact Or.inr unmoved

theorem commit_step (state next : System) (id : Nat)
    (stepped : step keys pydantic settings grantOf userId state (.commit id) = some next) :
    (∃ startedAt plan requested stale pending,
        state.locking.txns id = some (.stamped startedAt plan requested stale pending) ∧
        next = { db := storeConnection state.db pending
                 locking := finish state.locking id
                 synced := state.synced ++ [⟨startedAt, plan.lastSyncedAt, requested⟩] }) ∨
      ∃ pending, state.locking.txns id = some (.callback pending) ∧
        next = { state with
                 db := storeConnection state.db pending
                 locking := mapTxns Txn.overtake (finish state.locking id) } := by
  simp only [step] at stepped
  split at stepped
  · rename_i startedAt plan requested stale pending found
    exact Or.inl ⟨startedAt, plan, requested, stale, pending, found, (Option.some.inj stepped).symm⟩
  · rename_i pending found
    exact Or.inr ⟨pending, found, (Option.some.inj stepped).symm⟩
  · cases stepped

theorem rollback_step (state next : System) (id : Nat)
    (stepped : step keys pydantic settings grantOf userId state (.rollback id) = some next) :
    next = { state with locking := finish state.locking id } := by
  simp only [step] at stepped
  split_ifs at stepped with found
  exact (Option.some.inj stepped).symm

theorem overtake_holds (txn : Txn) : txn.overtake.holds = txn.holds := by
  cases txn <;> rfl

theorem step_granted (state : System) (action : Action pydantic) (next : System)
    (granted : Granted Txn.holds state.locking)
    (stepped : step keys pydantic settings grantOf userId state action = some next) :
    Granted Txn.holds next.locking := by
  cases action with
  | execute id statement =>
      obtain ⟨txn, _, advanced, _, _⟩ := execute_step keys pydantic settings grantOf userId state next
        id statement stepped
      exact granted_advance Txn.holds state.locking next.locking id txn granted advanced
  | commit id =>
      cases commit_step keys pydantic settings grantOf userId state next id stepped with
      | inl job =>
          obtain ⟨_, _, _, _, _, _, shape⟩ := job
          rw [shape]
          exact granted_finish Txn.holds state.locking id granted
      | inr callback =>
          obtain ⟨_, _, shape⟩ := callback
          rw [shape]
          apply granted_map Txn.holds Txn.overtake _ overtake_holds
          exact granted_finish Txn.holds state.locking id granted
  | rollback id =>
      rw [rollback_step keys pydantic settings grantOf userId state next id stepped]
      exact granted_finish Txn.holds state.locking id granted

def Action.id : Action pydantic → Nat
  | .execute id _ => id
  | .commit id => id
  | .rollback id => id

/-- A step opens no transaction but its own. -/
theorem step_leaves_closed (state : System) (action : Action pydantic) (next : System)
    (other : Nat) (closed : state.locking.txns other = none) (apart : other ≠ action.id)
    (stepped : step keys pydantic settings grantOf userId state action = some next) :
    next.locking.txns other = none := by
  have finished : ∀ id, other ≠ id → (finish state.locking id).txns other = none := by
    intro id different
    simpa only [finish, Function.update_of_ne different] using closed
  cases action with
  | execute id statement =>
      obtain ⟨txn, _, advanced, _, _⟩ := execute_step keys pydantic settings grantOf userId state next
        id statement stepped
      rw [(advance_eq Txn.holds state.locking next.locking id txn advanced).2.1]
      exact (Function.update_of_ne apart _ _).trans closed
  | commit id =>
      cases commit_step keys pydantic settings grantOf userId state next id stepped with
      | inl job =>
          obtain ⟨_, _, _, _, _, _, shape⟩ := job
          rw [shape]
          exact finished id apart
      | inr callback =>
          obtain ⟨_, _, shape⟩ := callback
          rw [shape]
          exact Option.map_eq_none_iff.mpr (finished id apart)
  | rollback id =>
      rw [rollback_step keys pydantic settings grantOf userId state next id stepped]
      exact finished id apart

/-- Beside a job that is about to commit, only jobs without the lock are
open. -/
theorem stamped_alone (state : System) (granted : Granted Txn.holds state.locking)
    (id other : Nat) (startedAt : Instant) (plan : Plan) (requested : List SyncWindow)
    (stale : Bool) (pending : SchwabConnection) (txn : Txn)
    (found : state.locking.txns id = some (.stamped startedAt plan requested stale pending))
    (present : state.locking.txns other = some txn) (apart : other ≠ id) :
    ∃ begun, txn = .waiting begun := by
  have free : ∀ lock, Txn.holds (.stamped startedAt plan requested stale pending) lock = true →
      txn.holds lock = false := by
    intro lock held
    cases taken : txn.holds lock with
    | false => rfl
    | true => exact absurd (granted_exclusive Txn.holds state.locking granted other id txn _ lock
        present taken found held) apart
  have unlocked := free .advisory rfl
  have unwritten := free .connectionRow rfl
  cases txn with
  | waiting begun => exact ⟨begun, rfl⟩
  | callback row => cases unwritten
  | _ => cases unlocked

end System

/-! ## Concrete transactions -/

def firstToken : StorableToken plainPydantic := ⟨.str "first", by rfl⟩

def secondToken : StorableToken plainPydantic := ⟨.str "second", by rfl⟩

def refreshedToken : StorableToken plainPydantic := ⟨.str "first refreshed", by rfl⟩

/-- The first grant is of day 20000 and the second of day 20002. -/
def plainGrant : JsonValue → Instant
  | .str text =>
      if text.toList.take 5 = "first".toList then 20000 * dayMicros else 20002 * dayMicros
  | _ => 0

def callbackOf (id : Nat) (token : StorableToken plainPydantic) : List (Action plainPydantic) :=
  [.execute id (.upsert ⟨[1], [2]⟩ token (plainGrant token.value) "hash"), .commit id]

def openJob (id : Nat) (day : Int) : List (Action plainPydantic) :=
  [.execute id (.begin (day * dayMicros)), .execute id .lock, .execute id .plan,
    .execute id .openClient]

def closeJob (id : Nat) : List (Action plainPydantic) :=
  [.execute id (.persist [3]), .execute id .stamp, .commit id]

def quietSystem (db : Database) : System := ⟨db, Locking.idle, []⟩

end Morai.Worker.ConnectionTransactions
