import Morai.Api.ManualSync
import Morai.Identity.ConcurrentRequests
import Morai.Identity.TenantSessions
import Morai.Ledger.SyncEvents

/-!
# Requests and sync jobs under row level security

The routes as the `morai_app` role serves them, one after the other: which
settings each statement runs under, and what it sees under them. A request or
job is one transaction, or several where `consume_token` commits on its own. An
answer that only repeats what the request drew is `done`. What generates ids
never repeats one, so a new event clashes with none; `hidden` rows come first
when rows are put back, which no query relies on.
-/

namespace Morai.Api.TenantRequests

open Morai.Crypto Morai.Db Morai.Python Morai.Foundation.PrimaryKey Morai.Foundation.Attempts
open Morai.Foundation.TwoRuns Morai.Identity.Tables Morai.Identity.Deletion
open Morai.Identity.Requests Morai.Identity.ConcurrentRequests Morai.Identity.RowSecurity
open Morai.Identity.TenantSessions Morai.Vendor.Connections Morai.Ingest.SyncUser
open Morai.Ingest.SyncWindows Morai.Worker.SyncUserTask Morai.Ledger.Pairing
open Morai.Ledger.SyncEvents Morai.Api.SyncRuns Morai.Api.ManualSync

set_option autoImplicit false

structure PositionResponse where
  positionId : Uuid
  openedAt : Option Instant
  deriving DecidableEq, Repr

inductive ConnectionHealth where
  | healthy
  | expiringSoon
  | expired
  deriving DecidableEq, Repr

def ConnectionHealth.value : ConnectionHealth → String
  | .healthy => "healthy"
  | .expiringSoon => "expiring_soon"
  | .expired => "expired"

structure ConnectionResponse where
  health : String
  expiresAt : Instant
  lastSyncedAt : Option Instant
  reauthNotifiedAt : Option Instant
  deriving DecidableEq, Repr

structure SyncRunResponse where
  startedAt : Instant
  finishedAt : Instant
  trigger : String
  status : String
  fillsLanded : Option Nat
  brokerTransactionsLanded : Option Nat
  errorCode : Option String
  deriving DecidableEq, Repr

structure MeResponse where
  userId : Uuid
  username : String
  isAdmin : Bool
  deriving DecidableEq, Repr

inductive Response where
  | done
  | positions (positions : List PositionResponse)
  | position (position : PositionResponse)
  | connection (connection : ConnectionResponse)
  | syncRuns (runs : List SyncRunResponse)
  | me (me : MeResponse)
  | derivation (derivation : Derivation)
  deriving DecidableEq, Repr

/-- Seven days. -/
def refreshTokenLifetime : Int := 604800 * microsPerSecond

/-- Twelve hours. -/
def expiringSoonThreshold : Int := 43200 * microsPerSecond

def deriveConnectionHealth (tokenCreatedAt now : Instant) : ConnectionHealth × Instant :=
  let expiresAt := tokenCreatedAt + refreshTokenLifetime
  let remaining := expiresAt - now
  if remaining ≤ 0 then (.expired, expiresAt)
  else if remaining ≤ expiringSoonThreshold then (.expiringSoon, expiresAt)
  else (.healthy, expiresAt)

def syncRunsLimit : Nat := 50

def SyncRunRecord.response (record : SyncRunRecord) : SyncRunResponse where
  startedAt := record.startedAt
  finishedAt := record.finishedAt
  trigger := record.trigger.value
  status := record.status.value
  fillsLanded := record.fillsLanded
  brokerTransactionsLanded := record.brokerTransactionsLanded
  errorCode := record.errorCode.map SyncError.value

def Position.response (row : Position) : PositionResponse := ⟨row.id, row.openedAt⟩

/-! ## Requests -/

/-- A request with what it draws and reads from the clock, and the orders its
reads happen to come back in. -/
inductive Request where
  | createUser (cookie : Option String) (username : String) (newId : Uuid) (rawToken : String)
      (dek wrapNonce : Bytes) (now : Instant)
  | resetPassword (cookie : Option String) (subjectId : Uuid) (rawToken : String) (now : Instant)
  | setup (rawToken password : String) (salt : Bytes) (now : Instant)
  | login (username password : String) (salt : Bytes) (rawToken : String) (now : Instant)
  | logout (cookie : Option String) (now : Instant)
  | me (cookie : Option String) (now : Instant)
  | deleteMe (cookie : Option String) (now : Instant)
  | listPositions (cookie : Option String) (order : ScanOrder Position) (now : Instant)
  | getPosition (cookie : Option String) (positionId : Uuid) (now : Instant)
  | connect (cookie : Option String) (rawState : String) (now : Instant)
  | callback (rawState : String) (exchange : Except Failure (ExchangedToken × List String))
      (draw : UpsertDraw) (now : Instant)
  | connection (cookie : Option String) (now readAt : Instant)
  | sync (cookie : Option String) (order : ScanOrder SyncRun) (now readAt : Instant)
  | syncRuns (cookie : Option String) (order : ScanOrder SyncRun) (now : Instant)

/-- A request, or a job as the worker or a caller of `sync_events` runs it. The
vendor answers by the token it is shown. -/
inductive Step where
  | request (request : Request)
  | syncUser (userId : Uuid) (call : TaskCall) (vendor : Option JsonValue → VendorRun)
      (draws : SyncDraws)
  | syncEvents (userId : Uuid) (call : SyncCall)

structure Environment where
  keys : KeyService
  pydantic : Pydantic
  settings : Settings
  credentials : Credentials
  sha256 : String → String
  syncCooldownSeconds : Int

section Statements

variable (environment : Environment)

/-- The second query of `get_current_user`. -/
def selectCaller (userId : Uuid) (view : System) : Except Failure User :=
  match view.users.get? userId with
  | none => .error (.raised .noResultFound)
  | some caller => .ok caller

def getCurrentUser (cookie : Option String) (now : Instant) : Work AuthenticatedUser := do
  let userId ← selects (readSession environment.credentials cookie now)
  setCurrentUserId userId
  let caller ← selects (selectCaller userId)
  if caller.isAdmin then setIsAdmin else pure ()
  pure ⟨userId, caller.isAdmin⟩

def getCurrentAdmin (cookie : Option String) (now : Instant) : Work AuthenticatedUser := do
  let user ← getCurrentUser environment cookie now
  if user.isAdmin then pure user else raises (.httpException 404)

def insertToken (userId : Uuid) (purpose : TokenPurpose) (rawToken : String)
    (expiresAt : Instant) (system : System) : Except Failure (Unit × System) := do
  referring "setup_tokens_user_id_fkey" userId system
  storeToken environment.credentials userId purpose rawToken expiresAt system

def insertSession (userId : Uuid) (rawToken : String) (expiresAt : Instant) (system : System) :
    Except Failure (Unit × System) := do
  referring "sessions_user_id_fkey" userId system
  addSession environment.credentials userId rawToken expiresAt system

def deleteSession (rawToken : String) (system : System) : Except Failure (Unit × System) :=
  .ok ((), { system with sessions := system.sessions.filter fun row =>
    row.tokenHash ≠ environment.credentials.hashToken rawToken })

/-- `set_config('app.current_user_id', ...)` and `require_rls_context`. -/
def enterContext (userId : Uuid) : Work Unit := do
  setCurrentUserId userId
  requireRlsContext

def consumeToken (rawToken : String) (purpose : TokenPurpose) (now : Instant) :
    Job (Option Uuid) :=
  committing (unpoliced (deleteToken environment.credentials rawToken purpose now))

def consumeEither (rawToken : String) (now : Instant) : Job (Option Uuid) := do
  match ← consumeToken environment rawToken .setup now with
  | some userId => pure (some userId)
  | none => consumeToken environment rawToken .passwordReset now

/-- `UPDATE users SET password_hash`, of the rows the policy lets it see. -/
def updatePassword (unmatched : Failure) (userId : Uuid) (passwordHash : String) : Work Unit :=
  ofUser userId unmatched (setPassword unmatched userId passwordHash)

/-! ## The routes -/

def createUser (username : String) (newId : Uuid) (rawToken : String) (dek wrapNonce : Bytes)
    (now : Instant) (user : AuthenticatedUser) : Work Response :=
  if user.isAdmin then do
    ofUser newId (.raised .other) fun system =>
      answering 409 (insertUser ⟨newId, username, none, false⟩ system)
    enterContext newId
    policed (provisionDataKey environment.keys newId dek wrapNonce)
    unpoliced (insertToken environment newId .setup rawToken (now + setupTokenTtl))
    pure .done
  else raises (.httpException 404)

def resetPassword (subjectId : Uuid) (rawToken : String) (now : Instant)
    (admin : AuthenticatedUser) : Work Response :=
  if admin.isAdmin then do
    unpoliced fun system => answering 404 (openAuditedRead admin.userId subjectId system)
    let target ← selects fun view => .ok (view.users.get? subjectId)
    match target with
    | none => raises (.httpException 404)
    | some target => do
        unpoliced (insertToken environment target.id .passwordReset rawToken (now + resetTokenTtl))
        pure .done
  else raises (.httpException 404)

def setup (rawToken password : String) (salt : Bytes) (now : Instant) : Job Response := do
  match ← consumeEither environment rawToken now with
  | none => raises (.httpException 400)
  | some userId => committing do
      enterContext userId
      updatePassword setupUnmatched userId (environment.credentials.hashPassword password salt)
      pure .done

def login (username password : String) (salt : Bytes) (rawToken : String) (now : Instant) :
    Job Response :=
  committing do
    let found ← definer (verifiedUser environment.credentials username password)
    setCurrentUserId found.1
    if environment.credentials.needsRehash found.2 then
      updatePassword loginUnmatched found.1 (environment.credentials.hashPassword password salt)
    else pure ()
    unpoliced (insertSession environment found.1 rawToken (now + sessionCookieTtl))
    pure .done

def logout (cookie : Option String) : Work Response :=
  match cookie with
  | none => raises (.httpException 401)
  | some rawToken => do
      unpoliced (deleteSession environment rawToken)
      pure .done

def selectMe (user : AuthenticatedUser) (view : System) : Except Failure Response :=
  (selectCaller user.userId view).map fun row => .me ⟨row.id, row.username, row.isAdmin⟩

def deleteMe (user : AuthenticatedUser) : Work Response := do
  policed fun view => (deleteAccount (fun _ => none) user.userId view).map (Prod.mk ())
  pure .done

/-- No `WHERE user_id`. -/
def selectPositions (order : ScanOrder Position) (view : System) : Except Failure Response :=
  .ok (.positions ((order.arrange view.positions.rows).map Position.response))

/-- Again no `WHERE user_id`. -/
def selectPosition (positionId : Uuid) (view : System) : Except Failure Response :=
  match view.positions.get? positionId with
  | none => .error (.httpException 404)
  | some row => .ok (.position (Position.response row))

def connect (rawState : String) (now : Instant) (user : AuthenticatedUser) : Work Response := do
  unpoliced (insertToken environment user.userId .oauthState rawState (now + oauthStateTtl))
  pure .done

/-- `callback` once `consume_token` has committed. -/
def grantStored (exchange : Except Failure (ExchangedToken × List String)) (draw : UpsertDraw)
    (userId : Uuid) : Work Response := do
  enterContext userId
  let (exchangedToken, accounts) ← reads fun _ => exchange
  match accounts with
  | [accountHash] => do
      policed (storeGrant environment.keys draw userId exchangedToken accountHash)
      pure .done
  | _ => raises (.httpException 409)

def callback (rawState : String) (exchange : Except Failure (ExchangedToken × List String))
    (draw : UpsertDraw) (now : Instant) : Job Response := do
  match ← consumeToken environment rawState .oauthState now with
  | none => raises (.httpException 400)
  | some userId => committing (grantStored environment exchange draw userId)

def foundConnection (userId : Uuid) (view : System) : Except Failure ConnectionRecord :=
  match readConnection environment.keys environment.pydantic userId view.ledger with
  | .error raised => .error (.raised raised)
  | .ok none => .error (.httpException 404)
  | .ok (some record) => .ok record

def selectConnection (readAt : Instant) (user : AuthenticatedUser) (view : System) :
    Except Failure Response := do
  let record ← foundConnection environment user.userId view
  let (health, expiresAt) := deriveConnectionHealth record.tokenCreatedAt readAt
  .ok (.connection ⟨health.value, expiresAt, record.lastSyncedAt, record.reauthNotifiedAt⟩)

def foundSyncRuns (order : ScanOrder SyncRun) (userId : Uuid) (limit : Nat) (view : System) :
    Except Failure (List SyncRunRecord) :=
  match readSyncRuns order userId limit view.ledger with
  | .error raised => .error (.raised raised)
  | .ok records => .ok records

/-- `POST /schwab/sync`; the queue the job is put in is not modelled. -/
def selectSync (order : ScanOrder SyncRun) (readAt : Instant) (user : AuthenticatedUser)
    (view : System) : Except Failure Response := do
  let _ ← foundConnection environment user.userId view
  match timedeltaSeconds environment.syncCooldownSeconds with
  | none => .error (.raised .overflowError)
  | some cooldown => do
      let recent ← foundSyncRuns order user.userId 1 view
      if coolingDown cooldown readAt (recent.head?.map SyncRunRecord.startedAt) then
        .error (.httpException 429)
      else .ok .done

def selectSyncRuns (order : ScanOrder SyncRun) (user : AuthenticatedUser) (view : System) :
    Except Failure Response := do
  let records ← foundSyncRuns order user.userId syncRunsLimit view
  .ok (.syncRuns (records.map SyncRunRecord.response))

/-- A route behind `get_current_user`. -/
def authenticated (cookie : Option String) (now : Instant)
    (route : AuthenticatedUser → Work Response) : Job Response :=
  committing do
    let user ← getCurrentUser environment cookie now
    route user

def serve : Request → Job Response
  | .createUser cookie username newId rawToken dek wrapNonce now =>
      authenticated environment cookie now
        (createUser environment username newId rawToken dek wrapNonce now)
  | .resetPassword cookie subjectId rawToken now =>
      authenticated environment cookie now (resetPassword environment subjectId rawToken now)
  | .setup rawToken password salt now => setup environment rawToken password salt now
  | .login username password salt rawToken now =>
      login environment username password salt rawToken now
  | .logout cookie now => authenticated environment cookie now fun _ => logout environment cookie
  | .me cookie now => authenticated environment cookie now fun user => selects (selectMe user)
  | .deleteMe cookie now => authenticated environment cookie now deleteMe
  | .listPositions cookie order now =>
      authenticated environment cookie now fun _ => selects (selectPositions order)
  | .getPosition cookie positionId now =>
      authenticated environment cookie now fun _ => selects (selectPosition positionId)
  | .connect cookie rawState now =>
      authenticated environment cookie now (connect environment rawState now)
  | .callback rawState exchange draw now => callback environment rawState exchange draw now
  | .connection cookie now readAt => authenticated environment cookie now fun user =>
      selects (selectConnection environment readAt user)
  | .sync cookie order now readAt => authenticated environment cookie now fun user =>
      selects (selectSync environment order readAt user)
  | .syncRuns cookie order now => authenticated environment cookie now fun user =>
      selects (selectSyncRuns order user)

/-! ## The jobs -/

/-- The token a job of the user builds its client with. -/
def presentedToken (userId : Uuid) (ledger : Database) : Option JsonValue :=
  ((openHolder environment.keys environment.pydantic userId ledger).toOption).map TokenHolder.token

/-- `sync_user_task`, whose two sessions are both set to the job's user. The
value is the exception that goes on, if any. -/
def taskEnded (userId : Uuid) (call : TaskCall) (vendor : Option JsonValue → VendorRun)
    (draws : SyncDraws) (view : System) :
    Option (Except Failure (Except Raised Unit × System)) :=
  match syncUserTask environment.keys environment.pydantic environment.settings
    (vendor (presentedToken environment userId view.ledger)) draws userId call view.ledger with
  | none => none
  | some (ended, ledger) => some (.ok (ended, { view with ledger := ledger }))

def syncUserJob (userId : Uuid) (call : TaskCall) (vendor : Option JsonValue → VendorRun)
    (draws : SyncDraws) : Job Response := do
  let ended ← committing do
    setCurrentUserId userId
    policedJob (taskEnded environment userId call vendor draws)
  match ended with
  | .error raised => raises (.raised raised)
  | .ok () => pure .done

def eventsSynced (userId : Uuid) (call : SyncCall) (view : System) :
    Except Failure (Derivation × System) :=
  match Morai.Ledger.SyncEvents.syncEvents environment.keys environment.sha256 call userId
    view.ledger with
  | (.error raised, _) => .error (.raised raised)
  | (.ok derivation, session) => .ok (derivation,
      { view with ledger := { view.ledger with events := session.stored ++ session.pending } })

/-- A caller of `sync_events` sets the context and commits. -/
def syncEventsJob (userId : Uuid) (call : SyncCall) : Job Response :=
  committing do
    setCurrentUserId userId
    let derivation ← policed (eventsSynced environment userId call)
    pure (.derivation derivation)

def program : Step → Job Response
  | .request request => serve environment request
  | .syncUser userId call vendor draws => syncUserJob environment userId call vendor draws
  | .syncEvents userId call => syncEventsJob environment userId call

/-- What a step answers and what is committed after it. One that never ends
never commits. -/
def perform (step : Step) (system : System) : Option (Except Failure Response) × System :=
  match program environment step system with
  | none => (none, system)
  | some (outcome, after) => (some outcome, after)

/-- What is committed after the steps. -/
def after (steps : List Step) (system : System) : System :=
  steps.foldl (fun system step => (perform environment step system).2) system

/-! ## Whose step it is -/

/-- The user a request is made by: of the session or the token it presents, or
whose password it knows. -/
def requester (system : System) : Request → Option Uuid
  | .createUser cookie _ _ _ _ _ now | .resetPassword cookie _ _ now | .logout cookie now
  | .me cookie now | .deleteMe cookie now | .listPositions cookie _ now
  | .getPosition cookie _ now | .connect cookie _ now | .connection cookie now _
  | .sync cookie _ now _ | .syncRuns cookie _ now =>
      (readSession environment.credentials cookie now system).toOption
  | .setup rawToken _ _ now =>
      ((matchingToken environment.credentials rawToken .setup now system).or
        (matchingToken environment.credentials rawToken .passwordReset now system)).map
          SetupToken.userId
  | .login username password _ _ _ =>
      (verifiedUser environment.credentials username password system).toOption.map Prod.fst
  | .callback rawState _ _ now =>
      (matchingToken environment.credentials rawState .oauthState now system).map SetupToken.userId

def actor (system : System) : Step → Option Uuid
  | .request request => requester environment system request
  | .syncUser userId _ _ _ => some userId
  | .syncEvents userId _ => some userId

end Statements

end Morai.Api.TenantRequests
