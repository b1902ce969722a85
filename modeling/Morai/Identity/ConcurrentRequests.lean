import Morai.Foundation.RowLocks
import Morai.Foundation.Runs
import Morai.Identity.Requests

/-!
# Requests statement by statement

Any number of requests are served at once. Each statement reads what is
committed when it runs and what its own transaction has written, and holds the
row locks of what it writes until the transaction ends. A request can be cut
short before any statement and before any commit. Statements that touch no
table are left out.
-/

namespace Morai.Identity.ConcurrentRequests

open Morai.Crypto Morai.Db Morai.Python Morai.Foundation.PrimaryKey Morai.Foundation.RowLocks
open Morai.Foundation.Runs Morai.Identity.Tables Morai.Identity.Deletion Morai.Identity.Requests
open Morai.Vendor.Connections

set_option autoImplicit false

/-- What the caller sends. `exchange` is what the vendor makes of the code and
the accounts it then lists; `visit` is any other authenticated request. -/
inductive Route where
  | createAdmin (username : String)
  | createUser (cookie : Option String) (username : String)
  | resetPassword (cookie : Option String) (subjectId : Uuid)
  | setup (rawToken password : String)
  | login (username password : String)
  | logout (cookie : Option String)
  | connect (cookie : Option String)
  | callback (rawState : String) (exchange : Except Failure (ExchangedToken × List String))
  | deleteMe (cookie : Option String)
  | visit (cookie : Option String)

/-- What a statement draws and reads from the clock. -/
structure Draw where
  now : Instant
  rawToken : String
  newId : Uuid
  salt : Bytes
  dek : Bytes
  wrapNonce : Bytes
  upsert : UpsertDraw

/-- A draw of nothing but an id and a token. -/
def drawing (now : Instant) (newId : Uuid) (rawToken : String) : Draw :=
  ⟨now, rawToken, newId, [], [], [], ⟨[], []⟩⟩

/-! ## What a transaction writes -/

/-- A token and the row stored for it. -/
structure Issue where
  rawToken : String
  userId : Uuid
  purpose : TokenPurpose
  expiresAt : Instant
  deriving DecidableEq, Repr

structure Login where
  rawToken : String
  userId : Uuid
  issuedAt : Instant
  deriving DecidableEq, Repr

/-- The row `consume_token` found for the token presented. -/
structure Consumption where
  rawToken : String
  row : SetupToken
  now : Instant
  deriving DecidableEq, Repr

/-- `knownSince` is how much was committed when the request learned whose
password to write. -/
structure PasswordChange where
  userId : Uuid
  passwordHash : String
  knownSince : Nat
  deriving DecidableEq, Repr

/-- The row the `DELETE` of `/logout` matched. -/
structure Dropped where
  rawToken : String
  row : Option SessionRow
  deriving DecidableEq, Repr

structure Writes where
  user : Option User
  dataKey : Option UserDataKey
  token : Option Issue
  auditEntry : Option AuditEntry
  session : Option Login
  consumed : Option Consumption
  password : Option PasswordChange
  dropped : Option Dropped
  connection : Option SchwabConnection
  deletion : Option AccountDeletion

def Writes.nothing : Writes :=
  { user := none, dataKey := none, token := none, auditEntry := none, session := none
    consumed := none, password := none, dropped := none, connection := none, deletion := none }

section Applied

variable (credentials : Credentials)

def Issue.row (issue : Issue) : SetupToken :=
  ⟨credentials.hashToken issue.rawToken, issue.userId, issue.purpose, issue.expiresAt⟩

def Login.row (login : Login) : SessionRow :=
  ⟨credentials.hashToken login.rawToken, login.userId, login.issuedAt + sessionCookieTtl⟩

def addRow {Stored Key : Type} [DecidableEq Key] {key : Stored → Key} (row : Option Stored)
    (table : KeyedTable key) : KeyedTable key :=
  match row with
  | none => table
  | some row => (insertOne table row).1

def setHash (change : Option PasswordChange) (users : KeyedTable User.id) : KeyedTable User.id :=
  match change with
  | none => users
  | some change =>
      match users.get? change.userId with
      | none => users
      | some user => users.put { user with passwordHash := some change.passwordHash }

/-- What is there once these writes are. The locks see to it that a commit
finds each row as the statement did that wrote it. -/
def Writes.apply (writes : Writes) (system : System) : System :=
  let written : System :=
    { users := setHash writes.password (addRow writes.user system.users)
      sessions := (addRow (writes.session.map (Login.row credentials)) system.sessions).filter
        fun row => writes.dropped.bind Dropped.row ≠ some row
      setupTokens := (addRow (writes.token.map (Issue.row credentials)) system.setupTokens).filter
        fun row => writes.consumed.map Consumption.row ≠ some row
      auditLog := system.auditLog ++ writes.auditEntry.toList
      positions := system.positions
      ledger := { system.ledger with
        userDataKeys := addRow writes.dataKey system.ledger.userDataKeys
        schwabConnections := match writes.connection with
          | none => system.ledger.schwabConnections
          | some row => system.ledger.schwabConnections.put row } }
  match writes.deletion with
  | none => written
  | some deletion => { written.without deletion.removed with
      users := written.users.filter fun user => user.id ≠ deletion.userId }

end Applied

/-! ## The locks -/

inductive Resource where
  | advisory
  | user (id : Uuid)
  | username (username : String)
  | dataKey (key : Uuid × Int)
  | session (tokenHash : String)
  | token (tokenHash : String)
  | connection (userId : Uuid)
  | row (row : Row)
  deriving DecidableEq

def rowResource : Row → Resource
  | .session row => .session row.tokenHash
  | .setupToken row => .token row.tokenHash
  | .userDataKey row => .dataKey row.primaryKey
  | .schwabConnection row => .connection row.userId
  | row => .row row

def inserted (resource : Resource) (userId : Uuid) : List (Hold Resource) :=
  [⟨resource, .update⟩, ⟨.user userId, .keyShare⟩]

def removedHolds (rows : List Row) : List (Hold Resource) :=
  rows.map fun row => ⟨rowResource row, .update⟩

def Writes.holds (credentials : Credentials) (writes : Writes) : List (Hold Resource) :=
  (writes.user.toList.flatMap fun user =>
      [⟨.user user.id, .update⟩, ⟨.username user.username, .update⟩]) ++
    (writes.dataKey.toList.flatMap fun row => inserted (.dataKey row.primaryKey) row.userId) ++
    (writes.token.toList.flatMap fun issue =>
      inserted (.token (credentials.hashToken issue.rawToken)) issue.userId) ++
    (writes.auditEntry.toList.flatMap fun entry =>
      [⟨.user entry.readerId, .keyShare⟩, ⟨.user entry.subjectId, .keyShare⟩]) ++
    (writes.session.toList.flatMap fun login =>
      inserted (.session (credentials.hashToken login.rawToken)) login.userId) ++
    (writes.consumed.toList.map fun consumption =>
      ⟨.token consumption.row.tokenHash, .update⟩) ++
    (writes.password.toList.map fun change => ⟨.user change.userId, .noKeyUpdate⟩) ++
    ((writes.dropped.bind Dropped.row).toList.map fun row => ⟨.session row.tokenHash, .update⟩) ++
    (writes.connection.toList.flatMap fun row => inserted (.connection row.userId) row.userId) ++
    (writes.deletion.toList.flatMap fun deletion =>
      ⟨.user deletion.userId, .update⟩ :: removedHolds deletion.removed)

/-! ## Where a request stands -/

/-- A write statement still to come. -/
inductive Write where
  | insertUser (user : User)
  | insertKey (userId : Uuid)
  | insertToken (userId : Uuid) (purpose : TokenPurpose) (ttl : Int)
  | insertAuditEntry (readerId subjectId : Uuid)
  | insertSession (userId : Uuid)
  | setPassword (unmatched : Failure) (userId : Uuid) (password : String) (knownSince : Nat)
  | deleteSession (rawToken : String)
  | upsertConnection (userId : Uuid) (exchangedToken : ExchangedToken) (accountHash : String)

/-- What the first query of `get_current_user` found, and how much was
committed then. -/
structure Reading where
  userId : Uuid
  readAt : Nat
  now : Instant

/-- The next statement; at `consumed` and at the end of `writing` only a
commit is left of the transaction. -/
inductive Stage where
  | arrived
  | lockHeld
  | sessionRead (reading : Reading)
  | consuming (rawToken : String) (purpose : TokenPurpose)
  | consumed (purpose : TokenPurpose) (found : Option SetupToken)
  | writing (todo : List Write)
  | deleting (deletion : AccountDeletion)

structure Txn where
  route : Route
  stage : Stage
  writes : Writes

/-- `create_admin` keeps its advisory lock to the end of the transaction. -/
def Txn.locked (txn : Txn) : Bool :=
  match txn.route, txn.stage with
  | .createAdmin _, .arrived => false
  | .createAdmin _, _ => true
  | _, _ => false

def Stage.holds : Stage → List (Hold Resource)
  | .deleting deletion => removedHolds deletion.removed
  | _ => []

def Txn.holds (credentials : Credentials) (txn : Txn) : List (Hold Resource) :=
  (if txn.locked then [⟨.advisory, .update⟩] else []) ++ txn.stage.holds ++
    txn.writes.holds credentials

inductive Answer where
  | returned
  | refused
  | failed (failure : Failure)
  deriving DecidableEq

/-- The outcome of one statement. -/
inductive Next where
  | goesOn (stage : Stage) (writes : Writes)
  | ends (answer : Answer)

/-- The cookie a route hands to `get_current_user`. -/
def Route.session? : Route → Option (Option String)
  | .createUser cookie _ | .resetPassword cookie _ | .logout cookie | .connect cookie
  | .deleteMe cookie | .visit cookie => some cookie
  | .createAdmin _ | .setup _ _ | .login _ _ | .callback _ _ => none

def Route.firstStage : Route → Stage
  | .setup rawToken _ => .consuming rawToken .setup
  | .callback rawState _ => .consuming rawState .oauthState
  | _ => .arrived

section Statements

variable (keys : KeyService) (credentials : Credentials)

/-- The first query of `get_current_user`. -/
def readSession (cookie : Option String) (now : Instant) (view : System) : Except Failure Uuid :=
  match cookie with
  | none => .error (.httpException 401)
  | some rawToken =>
      match view.sessions.get? (credentials.hashToken rawToken) with
      | none => .error (.httpException 401)
      | some row => if now < row.expiresAt then .ok row.userId else .error (.httpException 401)

/-- The two queries of `get_current_user`, with nothing between them. -/
theorem current_user_eq (cookie : Option String) (now : Instant) (system : System) :
    currentUser credentials cookie now system =
      match readSession credentials cookie now system with
      | .error failure => .error failure
      | .ok userId =>
          match system.users.get? userId with
          | none => .error (.raised .noResultFound)
          | some caller => .ok ⟨userId, caller.isAdmin⟩ := by
  unfold currentUser readSession
  cases cookie with
  | none => rfl
  | some rawToken =>
      dsimp only
      cases system.sessions.get? (credentials.hashToken rawToken) with
      | none => rfl
      | some row =>
          dsimp only
          split_ifs <;> rfl

/-- The foreign key check of an `INSERT`. -/
def referring (constraintName : String) (userId : Uuid) (view : System) : Except Failure Unit :=
  if view.users.Has userId then .ok () else .error (.raised (.integrityError constraintName))

def perform (draw : Draw) (view : System) (writes : Writes) : Write → Except Failure Writes
  | .insertUser user => do
      let _ ← insertUser user view
      .ok { writes with user := some user }
  | .insertKey userId => do
      referring "user_data_keys_user_id_fkey" userId view
      let _ ← provisionDataKey keys userId draw.dek draw.wrapNonce view
      let row : UserDataKey :=
        ⟨userId, 1, keys.wrapDek draw.dek keys.masterKeyBytes draw.wrapNonce, draw.wrapNonce⟩
      .ok { writes with dataKey := some row }
  | .insertToken userId purpose ttl => do
      referring "setup_tokens_user_id_fkey" userId view
      let _ ← storeToken credentials userId purpose draw.rawToken (draw.now + ttl) view
      .ok { writes with token := some ⟨draw.rawToken, userId, purpose, draw.now + ttl⟩ }
  | .insertAuditEntry readerId subjectId => do
      let _ ← openAuditedRead readerId subjectId view
      .ok { writes with auditEntry := some ⟨readerId, subjectId⟩ }
  | .insertSession userId => do
      referring "sessions_user_id_fkey" userId view
      let _ ← addSession credentials userId draw.rawToken (draw.now + sessionCookieTtl) view
      .ok { writes with session := some ⟨draw.rawToken, userId, draw.now⟩ }
  | .setPassword unmatched userId password knownSince => do
      let passwordHash := credentials.hashPassword password draw.salt
      let _ ← setPassword unmatched userId passwordHash view
      .ok { writes with password := some ⟨userId, passwordHash, knownSince⟩ }
  | .deleteSession rawToken =>
      .ok { writes with
        dropped := some ⟨rawToken, view.sessions.get? (credentials.hashToken rawToken)⟩ }
  | .upsertConnection userId exchangedToken accountHash => do
      referring "schwab_connections_user_id_fkey" userId view
      let stored ← storeGrant keys draw.upsert userId exchangedToken accountHash view
      .ok { writes with connection := stored.2.ledger.schwabConnections.get? userId }

/-- What `login` writes once the password is verified. -/
def loginWrites (userId : Uuid) (storedHash password : String) (position : Nat) : List Write :=
  (if credentials.needsRehash storedHash then
      [.setPassword loginUnmatched userId password position] else []) ++ [.insertSession userId]

/-- What an authenticated route goes on to do. -/
def handle (user : AuthenticatedUser) (newId : Uuid) : Route → Except Failure Stage
  | .createUser _ username =>
      if user.isAdmin then
        .ok (.writing [.insertUser ⟨newId, username, none, false⟩, .insertKey newId,
          .insertToken newId .setup setupTokenTtl])
      else .error (.httpException 404)
  | .resetPassword _ subjectId =>
      if user.isAdmin then
        .ok (.writing [.insertAuditEntry user.userId subjectId,
          .insertToken subjectId .passwordReset resetTokenTtl])
      else .error (.httpException 404)
  | .logout cookie =>
      match cookie with
      | none => .error (.httpException 401)
      | some rawToken => .ok (.writing [.deleteSession rawToken])
  | .connect _ => .ok (.writing [.insertToken user.userId .oauthState oauthStateTtl])
  | .deleteMe _ => .ok (.deleting (.begin user.userId))
  | _ => .ok (.writing [])

/-- What a route does once the commit of `consume_token` is through. -/
def afterConsumed (position : Nat) (purpose : TokenPurpose) (found : Option SetupToken) :
    Route → Except Failure Stage
  | .setup rawToken password =>
      match found with
      | some row =>
          .ok (.writing [.setPassword setupUnmatched row.userId password position])
      | none =>
          if purpose = .setup then .ok (.consuming rawToken .passwordReset)
          else .error (.httpException 400)
  | .callback _ exchange =>
      match found with
      | none => .error (.httpException 400)
      | some row =>
          match exchange with
          | .error failure => .error failure
          | .ok (exchangedToken, [accountHash]) =>
              .ok (.writing [.upsertConnection row.userId exchangedToken accountHash])
          | .ok _ => .error (.httpException 409)
  | _ => .error (.httpException 400)

/-- The next statement of a transaction that sees `view` when `position`
transactions are committed; `none` when only a commit is left. -/
def next (txn : Txn) (draw : Draw) (position : Nat) (view : System) : Option Next :=
  match txn.stage with
  | .arrived =>
      match txn.route with
      | .createAdmin _ => some (.goesOn .lockHeld txn.writes)
      | .login username password =>
          match verifiedUser credentials username password view with
          | .error failure => some (.ends (.failed failure))
          | .ok (userId, storedHash) => some (.goesOn
              (.writing (loginWrites credentials userId storedHash password position)) txn.writes)
      | route =>
          match readSession credentials (route.session?.getD none) draw.now view with
          | .error failure => some (.ends (.failed failure))
          | .ok userId => some (.goesOn (.sessionRead ⟨userId, position, draw.now⟩) txn.writes)
  | .lockHeld =>
      match txn.route with
      | .createAdmin username =>
          match view.users.rows.find? User.isAdmin with
          | some _ => some (.ends .refused)
          | none => some (.goesOn (.writing [.insertUser ⟨draw.newId, username, none, true⟩,
              .insertToken draw.newId .setup setupTokenTtl]) txn.writes)
      | _ => none
  | .sessionRead reading =>
      match view.users.get? reading.userId with
      | none => some (.ends (.failed (.raised .noResultFound)))
      | some caller =>
          match handle ⟨reading.userId, caller.isAdmin⟩ draw.newId txn.route with
          | .error failure => some (.ends (.failed failure))
          | .ok stage => some (.goesOn stage txn.writes)
  | .consuming rawToken purpose =>
      match matchingToken credentials rawToken purpose draw.now view with
      | none => some (.goesOn (.consumed purpose none) txn.writes)
      | some row => some (.goesOn (.consumed purpose (some row))
          { txn.writes with consumed := some ⟨rawToken, row, draw.now⟩ })
  | .consumed _ _ => none
  | .writing [] => none
  | .writing (write :: rest) =>
      match perform keys credentials draw view txn.writes write with
      | .error failure => some (.ends (.failed failure))
      | .ok writes => some (.goesOn (.writing rest) writes)
  | .deleting deletion =>
      match deletion.remaining with
      | table :: rest =>
          match deletion.statement view table rest with
          | .error failure => some (.ends (.failed failure))
          | .ok later => some (.goesOn (.deleting later) txn.writes)
      | [] =>
          match deletion.finish view with
          | .error failure => some (.ends (.failed failure))
          | .ok _ => some (.goesOn (.writing []) { txn.writes with deletion := some deletion })

end Statements

/-! ## The system -/

/-- One commit: of a request, or of a worker's transaction. -/
inductive Entry where
  | request (id : Nat) (route : Route) (writes : Writes)
  | elsewhere (ledger : Database) (positions : KeyedTable Position.id)

def Entry.writes : Entry → Writes
  | .request _ _ writes => writes
  | .elsewhere _ _ => .nothing

def Entry.apply (credentials : Credentials) (system : System) : Entry → System
  | .request _ _ writes => writes.apply credentials system
  | .elsewhere ledger positions => { system with ledger := ledger, positions := positions }

/-- A `get_current_user` that is over: what was committed before its first
query and between its two, and whom it returned. -/
structure Check where
  cookie : Option String
  now : Instant
  before : List Entry
  between : List Entry
  outcome : Option Uuid

/-- `history`, `checks` and `answers` record what has happened so far. -/
structure State where
  system : System
  opened : Opened Txn
  history : List Entry
  checks : List Check
  answers : List (Nat × Answer)

def start (system : System) : State := ⟨system, .empty, [], [], []⟩

inductive Action where
  | arrive (route : Route)
  | execute (id : Nat) (draw : Draw)
  | commit (id : Nat)
  | rollback (id : Nat)
  | elsewhere (ledger : Database) (positions : KeyedTable Position.id)

/-- The cookies, tokens and drawn values of an action. -/
def Action.rawTokens : Action → List String
  | .arrive route => route.session?.join.toList
  | .execute _ draw => [draw.rawToken]
  | _ => []

section Run

variable (keys : KeyService) (credentials : Credentials)

/-- The check a statement ends, if it does. -/
def checkOf (txn : Txn) (draw : Draw) (history : List Entry) (view : System) : List Check :=
  match txn.route.session?, txn.stage with
  | some cookie, .arrived =>
      match readSession credentials cookie draw.now view with
      | .error _ => [⟨cookie, draw.now, history, [], none⟩]
      | .ok _ => []
  | some cookie, .sessionRead reading =>
      [⟨cookie, reading.now, history.take reading.readAt, history.drop reading.readAt,
        (view.users.get? reading.userId).map fun _ => reading.userId⟩]
  | _, _ => []

/-- Transaction `id` moves on, unless it has to wait for a lock. -/
def advance (state : State) (id : Nat) (txn : Txn) : Option State :=
  if present : (state.opened.txns id).isSome then
    if state.opened.Free (Txn.holds credentials) id (txn.holds credentials) then
      some { state with opened := state.opened.replace id txn present }
    else none
  else none

def finish (state : State) (id : Nat) (answer : Answer) : State :=
  { state with opened := state.opened.close id, answers := state.answers ++ [(id, answer)] }

def committed (state : State) (id : Nat) (txn : Txn) : State :=
  { state with
    system := txn.writes.apply credentials state.system
    history := state.history ++ [.request id txn.route txn.writes] }

def executed (state : State) (id : Nat) (txn : Txn) (draw : Draw) : Option State :=
  let view := txn.writes.apply credentials state.system
  let checked : State :=
    { state with checks := state.checks ++ checkOf credentials txn draw state.history view }
  match next keys credentials txn draw state.history.length view with
  | none => none
  | some (.goesOn stage writes) => advance credentials checked id ⟨txn.route, stage, writes⟩
  | some (.ends answer) => some (finish checked id answer)

def step (state : State) : Action → Option State
  | .arrive route =>
      some { state with opened := state.opened.enter ⟨route, route.firstStage, .nothing⟩ }
  | .execute id draw =>
      match state.opened.txns id with
      | none => none
      | some txn => executed keys credentials state id txn draw
  | .commit id =>
      match state.opened.txns id with
      | none => none
      | some txn =>
          match txn.stage with
          | .writing [] => some (finish (committed credentials state id txn) id .returned)
          | .consumed purpose found =>
              let later := committed credentials state id txn
              match afterConsumed later.history.length purpose found txn.route with
              | .error failure => some (finish later id (.failed failure))
              | .ok stage => advance credentials later id ⟨txn.route, stage, .nothing⟩
          | _ => none
  | .rollback id =>
      if (state.opened.txns id).isSome then some { state with opened := state.opened.close id }
      else none
  | .elsewhere ledger positions =>
      some { state with
        system := { state.system with ledger := ledger, positions := positions }
        history := state.history ++ [.elsewhere ledger positions] }

end Run

end Morai.Identity.ConcurrentRequests
