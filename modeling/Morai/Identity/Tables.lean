import Morai.Db.Models

/-!
# The identity tables and what refers to a user

`System` adds to the ledger's database the tables a request touches before and
beside it. Every column with a foreign key to `users.id` or `positions.id` is
read through `Row`, so a foreign key check is one search through `System.rows`.
-/

namespace Morai.Identity.Tables

open Morai.Db Morai.Python Morai.Foundation.PrimaryKey

set_option autoImplicit false

structure User where
  id : Uuid
  username : String
  passwordHash : Option String
  isAdmin : Bool
  deriving DecidableEq, Repr

/-- A row of `sessions`. -/
structure SessionRow where
  tokenHash : String
  userId : Uuid
  expiresAt : Instant
  deriving DecidableEq, Repr

inductive TokenPurpose where
  | setup
  | passwordReset
  | oauthState
  deriving DecidableEq, Repr

structure SetupToken where
  tokenHash : String
  userId : Uuid
  purpose : TokenPurpose
  expiresAt : Instant
  deriving DecidableEq, Repr

/-- A row of `audit_log`; the app role may only insert. -/
structure AuditEntry where
  readerId : Uuid
  subjectId : Uuid
  deriving DecidableEq, Repr

structure Position where
  id : Uuid
  userId : Uuid
  openedAt : Option Instant
  deriving DecidableEq, Repr

structure System where
  users : KeyedTable User.id
  sessions : KeyedTable SessionRow.tokenHash
  setupTokens : KeyedTable SetupToken.tokenHash
  auditLog : List AuditEntry
  positions : KeyedTable Position.id
  ledger : Database

def System.empty : System := ⟨.empty, .empty, .empty, [], .empty, .empty⟩

/-- How a request ends without its answer. -/
inductive Failure where
  | raised (raised : Raised)
  | httpException (statusCode : Nat)
  | runtimeError (message : String)
  deriving DecidableEq, Repr

/-- A plain `INSERT` against a unique column. -/
def insertRow {Stored Key : Type} [DecidableEq Key] {key : Stored → Key} (constraintName : String)
    (row : Stored) (table : KeyedTable key) : Except Failure (KeyedTable key) :=
  if taken : table.Has (key row) then .error (.raised (.integrityError constraintName))
  else .ok (table.push row taken)

theorem insert_row_ok {Stored Key : Type} [DecidableEq Key] {key : Stored → Key}
    (constraintName : String) (row : Stored) (table after : KeyedTable key)
    (inserted : insertRow constraintName row table = .ok after) :
    ¬table.Has (key row) ∧ after.rows = table.rows ++ [row] := by
  unfold insertRow at inserted
  split at inserted
  · cases inserted
  · rename_i fresh
    cases inserted
    exact ⟨fresh, rfl⟩

/-- The tables with a foreign key to `users.id`. -/
inductive Table where
  | userDataKeys
  | events
  | legs
  | positions
  | fills
  | brokerTransactions
  | sessions
  | setupTokens
  | schwabConnections
  | syncRuns
  | auditLog
  deriving DecidableEq, Repr

def Table.name : Table → String
  | .userDataKeys => "user_data_keys"
  | .events => "events"
  | .legs => "legs"
  | .positions => "positions"
  | .fills => "fills"
  | .brokerTransactions => "broker_transactions"
  | .sessions => "sessions"
  | .setupTokens => "setup_tokens"
  | .schwabConnections => "schwab_connections"
  | .syncRuns => "sync_runs"
  | .auditLog => "audit_log"

inductive Row where
  | userDataKey (row : UserDataKey)
  | event (row : Event)
  | leg (row : Leg)
  | position (row : Position)
  | fill (row : Fill)
  | brokerTransaction (row : BrokerTransaction)
  | session (row : SessionRow)
  | setupToken (row : SetupToken)
  | schwabConnection (row : SchwabConnection)
  | syncRun (row : SyncRun)
  | auditEntry (row : AuditEntry)
  deriving DecidableEq

namespace Row

def table : Row → Table
  | .userDataKey _ => .userDataKeys
  | .event _ => .events
  | .leg _ => .legs
  | .position _ => .positions
  | .fill _ => .fills
  | .brokerTransaction _ => .brokerTransactions
  | .session _ => .sessions
  | .setupToken _ => .setupTokens
  | .schwabConnection _ => .schwabConnections
  | .syncRun _ => .syncRuns
  | .auditEntry _ => .auditLog

/-- The columns that refer to `users.id`, by name. -/
def userColumns : Row → List (String × Uuid)
  | .userDataKey row => [("user_id", row.userId)]
  | .event row => [("user_id", row.userId)]
  | .leg row => [("user_id", row.userId)]
  | .position row => [("user_id", row.userId)]
  | .fill row => [("user_id", row.userId)]
  | .brokerTransaction row => [("user_id", row.userId)]
  | .session row => [("user_id", row.userId)]
  | .setupToken row => [("user_id", row.userId)]
  | .schwabConnection row => [("user_id", row.userId)]
  | .syncRun row => [("user_id", row.userId)]
  | .auditEntry row => [("reader_id", row.readerId), ("subject_id", row.subjectId)]

def Refers (row : Row) (userId : Uuid) : Prop := userId ∈ row.userColumns.map Prod.snd

instance decidableRefers (row : Row) (userId : Uuid) : Decidable (row.Refers userId) :=
  inferInstanceAs (Decidable (userId ∈ _))

/-- The column that refers to `positions.id`. -/
def positionColumn : Row → Option Uuid
  | .event row => some row.positionId
  | .leg row => some row.positionId
  | _ => none

/-- The `positions.id` of a row of that table. -/
def positionId : Row → Option Uuid
  | .position row => some row.id
  | _ => none

/-- The name Postgres gives an unnamed foreign key. -/
def foreignKey (row : Row) (column : String) : String :=
  row.table.name ++ "_" ++ column ++ "_fkey"

end Row

def System.rows (system : System) : List Row :=
  system.ledger.userDataKeys.rows.map .userDataKey ++ system.ledger.events.map .event ++
    system.ledger.legs.map .leg ++ system.positions.rows.map .position ++
    system.ledger.fills.rows.map .fill ++
    system.ledger.brokerTransactions.rows.map .brokerTransaction ++
    system.sessions.rows.map .session ++ system.setupTokens.rows.map .setupToken ++
    system.ledger.schwabConnections.rows.map .schwabConnection ++
    system.ledger.syncRuns.map .syncRun ++ system.auditLog.map .auditEntry

/-- The system once these rows are gone. -/
def System.without (system : System) (removed : List Row) : System where
  users := system.users
  sessions := system.sessions.filter fun row => Row.session row ∉ removed
  setupTokens := system.setupTokens.filter fun row => Row.setupToken row ∉ removed
  auditLog := system.auditLog.filter fun row => Row.auditEntry row ∉ removed
  positions := system.positions.filter fun row => Row.position row ∉ removed
  ledger :=
    { userDataKeys := system.ledger.userDataKeys.filter fun row => Row.userDataKey row ∉ removed
      fills := system.ledger.fills.filter fun row => Row.fill row ∉ removed
      legs := system.ledger.legs.filter fun row => Row.leg row ∉ removed
      events := system.ledger.events.filter fun row => Row.event row ∉ removed
      schwabConnections :=
        system.ledger.schwabConnections.filter fun row => Row.schwabConnection row ∉ removed
      brokerTransactions :=
        system.ledger.brokerTransactions.filter fun row => Row.brokerTransaction row ∉ removed
      syncRuns := system.ledger.syncRuns.filter fun row => Row.syncRun row ∉ removed }

theorem mem_without_rows (system : System) (removed : List Row) (row : Row) :
    row ∈ (system.without removed).rows ↔ row ∈ system.rows ∧ row ∉ removed := by
  cases row <;> simp [System.rows, System.without, KeyedTable.filter]

theorem mem_rows_user_data_key (system : System) (row : UserDataKey) :
    Row.userDataKey row ∈ system.rows ↔ row ∈ system.ledger.userDataKeys.rows := by
  simp [System.rows]

end Morai.Identity.Tables
