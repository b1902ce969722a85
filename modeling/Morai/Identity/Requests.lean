import Morai.Foundation.Attempts
import Morai.Identity.Deletion
import Morai.Vendor.Connections

/-!
# The identity requests

`create_admin.main`, the routes that create, authenticate and delete accounts,
and the two connection routes. Each is one transaction, or several where
`consume_token` commits on its own; before each statement stands a point at
which anything outside the code may raise. Every write to `users` or
`user_data_keys` is one of the `Effect`s at the end.
-/

namespace Morai.Identity.Requests

open Morai.Crypto Morai.Db Morai.Python Morai.Foundation.PrimaryKey Morai.Foundation.Attempts
open Morai.Identity.Tables Morai.Identity.Deletion Morai.Vendor.Connections

set_option autoImplicit false

/-- `hashlib.sha256` and the `argon2` package. -/
structure Credentials where
  hashToken : (rawToken : String) → String
  hashPassword : (password : String) → (salt : Bytes) → String
  verifyPassword : (storedHash password : String) → Bool
  needsRehash : (storedHash : String) → Bool

/-- Where a request can be interrupted. -/
inductive Point where
  | advisoryLock
  | selectAdmin
  | selectSession
  | setConfig
  | selectCaller
  | readContext
  | insertUser
  | insertKey
  | insertToken
  | insertAuditEntry
  | selectSubject
  | deleteToken (purpose : TokenPurpose)
  | commitDelete (purpose : TokenPurpose)
  | updatePassword
  | loginLookup
  | insertSession
  | deleteSession
  | upsertConnection
  | deleteRows (table : Table)
  | commit
  deriving DecidableEq, Repr

def microsPerSecond : Int := 1000000

/-- Seven days. -/
def setupTokenTtl : Int := 604800 * microsPerSecond

/-- One hour. -/
def resetTokenTtl : Int := 3600 * microsPerSecond

/-- Thirty days. -/
def sessionCookieTtl : Int := 2592000 * microsPerSecond

/-- Fifteen minutes. -/
def oauthStateTtl : Int := 900 * microsPerSecond

structure AuthenticatedUser where
  userId : Uuid
  isAdmin : Bool

abbrev Job (Value : Type) := Attempt System Failure Value

section Routes

variable (keys : KeyService) (credentials : Credentials) (faults : Point → Option Failure)

/-- `get_current_user`. -/
def currentUser (cookie : Option String) (now : Instant) (system : System) :
    Except Failure AuthenticatedUser :=
  match cookie with
  | none => .error (.httpException 401)
  | some rawToken =>
      match system.sessions.get? (credentials.hashToken rawToken) with
      | none => .error (.httpException 401)
      | some row =>
          if now < row.expiresAt then
            match system.users.get? row.userId with
            | none => .error (.raised .noResultFound)
            | some caller => .ok ⟨row.userId, caller.isAdmin⟩
          else .error (.httpException 401)

def getCurrentUser (cookie : Option String) (now : Instant) : Job AuthenticatedUser := do
  reach (faults .selectSession)
  reach (faults .setConfig)
  reach (faults .selectCaller)
  reads (currentUser credentials cookie now)

def getCurrentAdmin (cookie : Option String) (now : Instant) : Job AuthenticatedUser := do
  let user ← getCurrentUser credentials faults cookie now
  if user.isAdmin then pure user else raises (.httpException 404)

/-- `set_config('app.current_user_id', ...)` and `require_rls_context`. -/
def enterContext : Job Unit := do
  reach (faults .setConfig)
  reach (faults .readContext)

def storeToken (userId : Uuid) (purpose : TokenPurpose) (rawToken : String) (expiresAt : Instant)
    (system : System) : Except Failure (Unit × System) :=
  match insertRow "setup_tokens_token_hash_key"
    ⟨credentials.hashToken rawToken, userId, purpose, expiresAt⟩ system.setupTokens with
  | .error failure => .error failure
  | .ok setupTokens => .ok ((), { system with setupTokens := setupTokens })

/-- `issue_token` only adds the row; it is sent with the flush at the commit. -/
def issueToken (userId : Uuid) (purpose : TokenPurpose) (rawToken : String)
    (expiresAt : Instant) : Job Unit := do
  reach (faults .insertToken)
  writes (storeToken credentials userId purpose rawToken expiresAt)

def matchingToken (rawToken : String) (purpose : TokenPurpose) (now : Instant)
    (system : System) : Option SetupToken :=
  (system.setupTokens.get? (credentials.hashToken rawToken)).filter fun row =>
    row.purpose = purpose ∧ now < row.expiresAt

def deleteToken (rawToken : String) (purpose : TokenPurpose) (now : Instant) (system : System) :
    Except Failure (Option Uuid × System) :=
  match matchingToken credentials rawToken purpose now system with
  | none => .ok (none, system)
  | some row =>
      .ok (some row.userId, { system with
        setupTokens := system.setupTokens.filter fun stored => stored.tokenHash ≠ row.tokenHash })

/-- `consume_token`, a transaction of its own. -/
def consumeToken (rawToken : String) (purpose : TokenPurpose) (now : Instant) :
    Job (Option Uuid) :=
  transaction (faults (.commitDelete purpose)) do
    reach (faults (.deleteToken purpose))
    writes (deleteToken credentials rawToken purpose now)

def insertUser (user : User) (system : System) : Except Failure (Unit × System) :=
  if user.username ∈ system.users.rows.map User.username then
    .error (.raised (.integrityError "users_username_key"))
  else
    match insertRow "users_pkey" user system.users with
    | .error failure => .error failure
    | .ok users => .ok ((), { system with users := users })

/-- `except IntegrityError`: rolled back, and answered with a bare status. -/
def answering (statusCode : Nat) {Value : Type} : Except Failure Value → Except Failure Value
  | .error (.raised (.integrityError _)) => .error (.httpException statusCode)
  | outcome => outcome

def provisionDataKey (userId : Uuid) (dek wrapNonce : Bytes) (system : System) :
    Except Failure (Unit × System) :=
  match insertRow "user_data_keys_pkey"
    ⟨userId, 1, keys.wrapDek dek keys.masterKeyBytes wrapNonce, wrapNonce⟩
    system.ledger.userDataKeys with
  | .error failure => .error failure
  | .ok userDataKeys =>
      .ok ((), { system with ledger := { system.ledger with userDataKeys := userDataKeys } })

def setPassword (unmatched : Failure) (userId : Uuid) (passwordHash : String) (system : System) :
    Except Failure (Unit × System) :=
  match system.users.get? userId with
  | none => .error unmatched
  | some user =>
      .ok ((), { system with users := system.users.put { user with passwordHash := passwordHash } })

/-- `create_admin.main`; the value is the exit code. -/
def createAdmin (username : String) (newId : Uuid) (rawToken : String) (now : Instant) : Job Nat :=
  transaction (faults .commit) do
    reach (faults .advisoryLock)
    reach (faults .selectAdmin)
    let existing ← reads fun system => .ok (system.users.rows.find? User.isAdmin)
    match existing with
    | some _ => pure 1
    | none => do
        reach (faults .insertUser)
        writes (insertUser ⟨newId, username, none, true⟩)
        issueToken credentials faults newId .setup rawToken (now + setupTokenTtl)
        pure 0

/-- `POST /admin/users`. -/
def createUser (cookie : Option String) (username : String) (newId : Uuid) (rawToken : String)
    (dek wrapNonce : Bytes) (now : Instant) : Job Unit :=
  transaction (faults .commit) do
    let _ ← getCurrentAdmin credentials faults cookie now
    reach (faults .insertUser)
    writes fun system => answering 409 (insertUser ⟨newId, username, none, false⟩ system)
    enterContext faults
    reach (faults .insertKey)
    writes (provisionDataKey keys newId dek wrapNonce)
    issueToken credentials faults newId .setup rawToken (now + setupTokenTtl)

/-- `open_audited_read`: both columns refer to `users.id`. -/
def openAuditedRead (readerId subjectId : Uuid) (system : System) :
    Except Failure (Unit × System) :=
  if ¬system.users.Has readerId then
    .error (.raised (.integrityError "audit_log_reader_id_fkey"))
  else if ¬system.users.Has subjectId then
    .error (.raised (.integrityError "audit_log_subject_id_fkey"))
  else .ok ((), { system with auditLog := system.auditLog ++ [⟨readerId, subjectId⟩] })

/-- `POST /admin/users/{user_id}/reset-password`. -/
def resetPassword (cookie : Option String) (subjectId : Uuid) (rawToken : String)
    (now : Instant) : Job Unit :=
  transaction (faults .commit) do
    let admin ← getCurrentAdmin credentials faults cookie now
    reach (faults .insertAuditEntry)
    writes fun system => answering 404 (openAuditedRead admin.userId subjectId system)
    reach (faults .selectSubject)
    let target ← reads fun system => .ok (system.users.get? subjectId)
    match target with
    | none => raises (.httpException 404)
    | some target =>
        issueToken credentials faults target.id .passwordReset rawToken (now + resetTokenTtl)

def setupUnmatched : Failure :=
  .runtimeError ("setup route: password UPDATE did not match exactly one row -- the RLS context " ++
    "was not established correctly for this consumed token's user id.")

/-- `SETUP` is tried first, then `PASSWORD_RESET`. -/
def consumeEither (rawToken : String) (now : Instant) : Job (Option Uuid) := do
  match ← consumeToken credentials faults rawToken .setup now with
  | some userId => pure (some userId)
  | none => consumeToken credentials faults rawToken .passwordReset now

/-- `POST /setup`. -/
def setup (rawToken password : String) (salt : Bytes) (now : Instant) : Job Unit := do
  match ← consumeEither credentials faults rawToken now with
  | none => raises (.httpException 400)
  | some userId =>
      transaction (faults .commit) do
        enterContext faults
        reach (faults .updatePassword)
        writes (setPassword setupUnmatched userId (credentials.hashPassword password salt))

/-- The row `login_lookup` finds and the password opens. -/
def verifiedUser (username password : String) (system : System) : Except Failure (Uuid × String) :=
  match system.users.rows.find? fun user => user.username = username with
  | none => .error (.httpException 401)
  | some user =>
      match user.passwordHash with
      | none => .error (.httpException 401)
      | some storedHash =>
          if credentials.verifyPassword storedHash password then .ok (user.id, storedHash)
          else .error (.httpException 401)

def loginUnmatched : Failure :=
  .runtimeError ("login route: rehash UPDATE did not match exactly one row -- the RLS context " ++
    "was not established correctly for this user id.")

def addSession (userId : Uuid) (rawToken : String) (expiresAt : Instant) (system : System) :
    Except Failure (Unit × System) :=
  match insertRow "sessions_token_hash_key" ⟨credentials.hashToken rawToken, userId, expiresAt⟩
    system.sessions with
  | .error failure => .error failure
  | .ok sessions => .ok ((), { system with sessions := sessions })

/-- `if needs_rehash(stored_hash)`. -/
def rehash (userId : Uuid) (storedHash password : String) (salt : Bytes) : Job Unit :=
  if credentials.needsRehash storedHash then do
    reach (faults .updatePassword)
    writes (setPassword loginUnmatched userId (credentials.hashPassword password salt))
  else pure ()

/-- `POST /login`. -/
def login (username password : String) (salt : Bytes) (rawToken : String) (now : Instant) :
    Job Unit :=
  transaction (faults .commit) do
    reach (faults .loginLookup)
    let found ← reads (verifiedUser credentials username password)
    reach (faults .setConfig)
    rehash credentials faults found.1 found.2 password salt
    reach (faults .insertSession)
    writes (addSession credentials found.1 rawToken (now + sessionCookieTtl))

/-- `POST /logout`. -/
def logout (cookie : Option String) (now : Instant) : Job Unit :=
  transaction (faults .commit) do
    let _ ← getCurrentUser credentials faults cookie now
    match cookie with
    | none => raises (.httpException 401)
    | some rawToken => do
        reach (faults .deleteSession)
        writes fun system => .ok ((), { system with
          sessions := system.sessions.filter fun row =>
            row.tokenHash ≠ credentials.hashToken rawToken })

/-- `POST /schwab/connect`. -/
def connect (cookie : Option String) (rawState : String) (now : Instant) : Job Unit :=
  transaction (faults .commit) do
    let user ← getCurrentUser credentials faults cookie now
    issueToken credentials faults user.userId .oauthState rawState (now + oauthStateTtl)

def storeGrant (draw : UpsertDraw) (userId : Uuid) (exchangedToken : ExchangedToken)
    (accountHash : String) (system : System) : Except Failure (Unit × System) :=
  match upsertConnection keys draw userId exchangedToken accountHash system.ledger with
  | .error raised => .error (.raised raised)
  | .ok ledger => .ok ((), { system with ledger := ledger })

/-- `GET /schwab/callback`; `exchange` is what the vendor made of the code and
the accounts it then listed. -/
def callback (rawState : String) (exchange : Except Failure (ExchangedToken × List String))
    (draw : UpsertDraw) (now : Instant) : Job Unit := do
  match ← consumeToken credentials faults rawState .oauthState now with
  | none => raises (.httpException 400)
  | some userId =>
      transaction (faults .commit) do
        enterContext faults
        let (exchangedToken, accounts) ← reads fun _ => exchange
        match accounts with
        | [accountHash] => do
            reach (faults .upsertConnection)
            writes (storeGrant keys draw userId exchangedToken accountHash)
        | _ => raises (.httpException 409)

/-- `DELETE /me`, while nobody else commits. -/
def deleteMe (cookie : Option String) (now : Instant) : Job Unit :=
  transaction (faults .commit) do
    let user ← getCurrentUser credentials faults cookie now
    writes fun system =>
      (deleteAccount (fun table => faults (.deleteRows table)) user.userId system).map (Prod.mk ())

end Routes

/-- A request with what it draws and reads from the clock. -/
inductive Request where
  | createAdmin (username : String) (newId : Uuid) (rawToken : String) (now : Instant)
  | createUser (cookie : Option String) (username : String) (newId : Uuid) (rawToken : String)
      (dek wrapNonce : Bytes) (now : Instant)
  | resetPassword (cookie : Option String) (subjectId : Uuid) (rawToken : String) (now : Instant)
  | setup (rawToken password : String) (salt : Bytes) (now : Instant)
  | login (username password : String) (salt : Bytes) (rawToken : String) (now : Instant)
  | logout (cookie : Option String) (now : Instant)
  | connect (cookie : Option String) (rawState : String) (now : Instant)
  | callback (rawState : String) (exchange : Except Failure (ExchangedToken × List String))
      (draw : UpsertDraw) (now : Instant)
  | deleteMe (cookie : Option String) (now : Instant)

section Serving

variable (keys : KeyService) (credentials : Credentials)

def serve (faults : Point → Option Failure) : Request → Job Unit
  | .createAdmin username newId rawToken now => do
      let _ ← createAdmin credentials faults username newId rawToken now
  | .createUser cookie username newId rawToken dek wrapNonce now =>
      createUser keys credentials faults cookie username newId rawToken dek wrapNonce now
  | .resetPassword cookie subjectId rawToken now =>
      resetPassword credentials faults cookie subjectId rawToken now
  | .setup rawToken password salt now => setup credentials faults rawToken password salt now
  | .login username password salt rawToken now =>
      login credentials faults username password salt rawToken now
  | .logout cookie now => logout credentials faults cookie now
  | .connect cookie rawState now => connect credentials faults cookie rawState now
  | .callback rawState exchange draw now =>
      callback keys credentials faults rawState exchange draw now
  | .deleteMe cookie now => deleteMe credentials faults cookie now

/-- A request and what interferes with it. -/
structure Call where
  request : Request
  faults : Point → Option Failure

/-- What is committed once the request was answered, however it was. -/
def answer (system : System) (call : Call) : Option System :=
  (serve keys credentials call.faults call.request system).map Prod.snd

end Serving

/-! ## What a transaction writes to the accounts -/

/-- What one committed transaction did to `users` and `user_data_keys`. -/
inductive Effect (keys : KeyService) (before after : System) : Prop where
  | nothing (users : after.users = before.users)
      (userDataKeys : after.ledger.userDataKeys = before.ledger.userDataKeys)
  | password (user : User) (stored : user ∈ before.users.rows) (passwordHash : Option String)
      (users : after.users = before.users.put { user with passwordHash := passwordHash })
      (userDataKeys : after.ledger.userDataKeys = before.ledger.userDataKeys)
  | newAdmin (user : User) (admin : user.isAdmin = true) (fresh : ¬before.users.Has user.id)
      (users : after.users.rows = before.users.rows ++ [user])
      (userDataKeys : after.ledger.userDataKeys = before.ledger.userDataKeys)
  | newUser (user : User) (admin : user.isAdmin = false) (fresh : ¬before.users.Has user.id)
      (users : after.users.rows = before.users.rows ++ [user]) (dek wrapNonce : Bytes)
      (userDataKeys : after.ledger.userDataKeys.rows = before.ledger.userDataKeys.rows ++
        [⟨user.id, 1, keys.wrapDek dek keys.masterKeyBytes wrapNonce, wrapNonce⟩])
  | deletion (userId : Uuid)
      (users : after.users = before.users.filter fun user => user.id ≠ userId)
      (userDataKeys : after.ledger.userDataKeys.rows =
        before.ledger.userDataKeys.rows.filter fun row => row.userId ≠ userId)

section Effects

variable (keys : KeyService) (credentials : Credentials) (faults : Point → Option Failure)

theorem store_token_frame (userId : Uuid) (purpose : TokenPurpose) (rawToken : String)
    (expiresAt : Instant) (before after : System)
    (stored : storeToken credentials userId purpose rawToken expiresAt before = .ok ((), after)) :
    after = { before with setupTokens := after.setupTokens } := by
  unfold storeToken at stored
  split at stored <;> cases stored
  rfl

theorem issue_token_frame (userId : Uuid) (purpose : TokenPurpose) (rawToken : String)
    (expiresAt : Instant) (before after : System)
    (ran : issueToken credentials faults userId purpose rawToken expiresAt before =
      some (.ok (), after)) :
    after = { before with setupTokens := after.setupTokens } := by
  replace ran := reach_bind_ok _ _ _ _ _ ran
  exact store_token_frame credentials userId purpose rawToken expiresAt before after
    (writes_ok _ _ _ _ ran)

theorem get_current_user_frame (cookie : Option String) (now : Instant) (before after : System)
    (user : AuthenticatedUser)
    (ran : getCurrentUser credentials faults cookie now before = some (.ok user, after)) :
    currentUser credentials cookie now before = .ok user ∧ after = before := by
  replace ran := reach_bind_ok _ _ _ _ _ ran
  replace ran := reach_bind_ok _ _ _ _ _ ran
  replace ran := reach_bind_ok _ _ _ _ _ ran
  exact reads_ok _ _ _ _ ran

theorem get_current_admin_frame (cookie : Option String) (now : Instant) (before after : System)
    (user : AuthenticatedUser)
    (ran : getCurrentAdmin credentials faults cookie now before = some (.ok user, after)) :
    currentUser credentials cookie now before = .ok user ∧ user.isAdmin = true ∧
      after = before := by
  rcases bind_eq_some _ _ _ _ _ ran with ⟨caller, middle, found, ran⟩
  rcases get_current_user_frame credentials faults cookie now before middle caller found with
    ⟨authenticated, same⟩
  split at ran
  · rename_i admin
    cases ran
    exact ⟨authenticated, admin, same⟩
  · cases ran

theorem enter_context_frame (before after : System)
    (ran : enterContext faults before = some (.ok (), after)) : after = before := by
  replace ran := reach_bind_ok _ _ _ _ _ ran
  exact reach_ok _ _ _ ran

theorem insert_user_ok (user : User) (before after : System)
    (inserted : insertUser user before = .ok ((), after)) :
    ¬before.users.Has user.id ∧ after.users.rows = before.users.rows ++ [user] ∧
      after = { before with users := after.users } := by
  unfold insertUser at inserted
  split at inserted
  · cases inserted
  · split at inserted
    · cases inserted
    · rename_i users added
      cases inserted
      have rows := insert_row_ok _ _ _ _ added
      exact ⟨rows.1, rows.2, rfl⟩

theorem set_password_effect (unmatched : Failure) (userId : Uuid) (passwordHash : String)
    (before after : System)
    (set : setPassword unmatched userId passwordHash before = .ok ((), after)) :
    Effect keys before after := by
  unfold setPassword at set
  split at set
  · cases set
  · rename_i user stored
    cases set
    exact .password user ((get_eq_some_iff _ _ _).mp stored).1 (some passwordHash) rfl rfl

theorem answering_ok {Value : Type} (statusCode : Nat) (outcome : Except Failure Value)
    (value : Value) (answered : answering statusCode outcome = .ok value) : outcome = .ok value := by
  unfold answering at answered
  split at answered
  · cases answered
  · exact answered

theorem delete_token_frame (rawToken : String) (purpose : TokenPurpose) (now : Instant)
    (before after : System) (found : Option Uuid)
    (ran : deleteToken credentials rawToken purpose now before = .ok (found, after)) :
    after = { before with setupTokens := after.setupTokens } := by
  unfold deleteToken at ran
  split at ran <;> cases ran <;> rfl

/-- An invariant that every effect keeps is kept by every transaction whose
body has one. -/
theorem keeps_effects {Value : Type} (invariant : System → Prop) (fault : Option Failure)
    (body : Job Value)
    (respects : ∀ before after, invariant before → Effect keys before after → invariant after)
    (effect : ∀ before value after, body before = some (.ok value, after) →
      Effect keys before after) : Keeps invariant (transaction fault body) := by
  apply keeps_transaction
  intro state value after holds ran
  exact respects state after holds (effect state value after ran)

theorem create_admin_effect (username : String) (newId : Uuid) (rawToken : String)
    (now : Instant) (invariant : System → Prop)
    (respects : ∀ before after, invariant before → Effect keys before after → invariant after) :
    Keeps invariant (createAdmin credentials faults username newId rawToken now) := by
  apply keeps_effects keys invariant _ _ respects
  intro before value after ran
  replace ran := reach_bind_ok _ _ _ _ _ ran
  replace ran := reach_bind_ok _ _ _ _ _ ran
  rcases reads_bind_ok _ _ _ _ _ ran with ⟨existing, found, ran⟩
  cases existing with
  | some admin =>
      cases ran
      exact .nothing rfl rfl
  | none =>
      replace ran := reach_bind_ok _ _ _ _ _ ran
      rcases writes_bind_ok _ _ _ _ _ ran with ⟨_, inserted, stored, ran⟩
      rcases bind_eq_some _ _ _ _ _ ran with ⟨_, issued, token, ran⟩
      cases ran
      have user := insert_user_ok _ _ _ stored
      have frame := issue_token_frame credentials faults _ _ _ _ _ _ token
      apply Effect.newAdmin ⟨newId, username, none, true⟩ rfl user.1
      · rw [frame]
        exact user.2.1
      · rw [frame, user.2.2]

theorem create_user_effect (cookie : Option String) (username : String) (newId : Uuid)
    (rawToken : String) (dek wrapNonce : Bytes) (now : Instant) (invariant : System → Prop)
    (respects : ∀ before after, invariant before → Effect keys before after → invariant after) :
    Keeps invariant
      (createUser keys credentials faults cookie username newId rawToken dek wrapNonce now) := by
  apply keeps_effects keys invariant _ _ respects
  intro before value after ran
  rcases bind_eq_some _ _ _ _ _ ran with ⟨admin, first, authenticated, ran⟩
  rw [(get_current_admin_frame credentials faults _ _ _ _ _ authenticated).2.2] at ran
  replace ran := reach_bind_ok _ _ _ _ _ ran
  rcases writes_bind_ok _ _ _ _ _ ran with ⟨_, inserted, stored, ran⟩
  rcases bind_eq_some _ _ _ _ _ ran with ⟨_, third, entered, ran⟩
  rw [enter_context_frame faults _ _ entered] at ran
  replace ran := reach_bind_ok _ _ _ _ _ ran
  rcases writes_bind_ok _ _ _ _ _ ran with ⟨_, provisioned, keyed, ran⟩
  have user := insert_user_ok _ _ _ (answering_ok 409 _ _ stored)
  have frame := issue_token_frame credentials faults _ _ _ _ _ _ ran
  unfold provisionDataKey at keyed
  split at keyed
  · cases keyed
  · rename_i userDataKeys added
    cases keyed
    have rows := insert_row_ok _ _ _ _ added
    apply Effect.newUser ⟨newId, username, none, false⟩ rfl user.1 _ dek wrapNonce
    · rw [frame]
      dsimp only
      rw [rows.2, user.2.2]
    · rw [frame]
      exact user.2.1

theorem reset_password_effect (cookie : Option String) (subjectId : Uuid) (rawToken : String)
    (now : Instant) (invariant : System → Prop)
    (respects : ∀ before after, invariant before → Effect keys before after → invariant after) :
    Keeps invariant (resetPassword credentials faults cookie subjectId rawToken now) := by
  apply keeps_effects keys invariant _ _ respects
  intro before value after ran
  rcases bind_eq_some _ _ _ _ _ ran with ⟨admin, first, authenticated, ran⟩
  rw [(get_current_admin_frame credentials faults _ _ _ _ _ authenticated).2.2] at ran
  replace ran := reach_bind_ok _ _ _ _ _ ran
  rcases writes_bind_ok _ _ _ _ _ ran with ⟨_, audited, logged, ran⟩
  replace ran := reach_bind_ok _ _ _ _ _ ran
  rcases reads_bind_ok _ _ _ _ _ ran with ⟨target, found, ran⟩
  have entry := answering_ok 404 _ _ logged
  unfold openAuditedRead at entry
  cases target with
  | none => cases ran
  | some target =>
      have frame := issue_token_frame credentials faults _ _ _ _ _ _ ran
      split_ifs at entry
      cases entry
      apply Effect.nothing <;> rw [frame]

theorem consume_token_keeps (rawToken : String) (purpose : TokenPurpose) (now : Instant)
    (invariant : System → Prop)
    (respects : ∀ before after, invariant before → Effect keys before after → invariant after) :
    Keeps invariant (consumeToken credentials faults rawToken purpose now) := by
  apply keeps_effects keys invariant _ _ respects
  intro before value after ran
  replace ran := reach_bind_ok _ _ _ _ _ ran
  have frame := delete_token_frame credentials _ _ _ _ _ _ (writes_ok _ _ _ _ ran)
  apply Effect.nothing <;> rw [frame]

theorem setup_effect (rawToken password : String) (salt : Bytes) (now : Instant)
    (invariant : System → Prop)
    (respects : ∀ before after, invariant before → Effect keys before after → invariant after) :
    Keeps invariant (setup credentials faults rawToken password salt now) := by
  have consumed := fun purpose =>
    consume_token_keeps keys credentials faults rawToken purpose now invariant respects
  apply keeps_bind
  · apply keeps_bind _ _ _ (consumed .setup)
    intro setupId
    cases setupId with
    | some userId => exact keeps_pure invariant _
    | none => exact consumed .passwordReset
  · intro userId
    cases userId with
    | none => exact keeps_raises invariant _
    | some userId =>
        apply keeps_effects keys invariant _ _ respects
        intro before value after ran
        rcases bind_eq_some _ _ _ _ _ ran with ⟨_, first, entered, ran⟩
        rw [enter_context_frame faults _ _ entered] at ran
        replace ran := reach_bind_ok _ _ _ _ _ ran
        exact set_password_effect keys _ _ _ _ _ (writes_ok _ _ _ _ ran)

theorem login_effect (username password : String) (salt : Bytes) (rawToken : String)
    (now : Instant) (invariant : System → Prop)
    (respects : ∀ before after, invariant before → Effect keys before after → invariant after) :
    Keeps invariant (login credentials faults username password salt rawToken now) := by
  apply keeps_effects keys invariant _ _ respects
  intro before value after ran
  replace ran := reach_bind_ok _ _ _ _ _ ran
  rcases reads_bind_ok _ _ _ _ _ ran with ⟨found, verified, ran⟩
  replace ran := reach_bind_ok _ _ _ _ _ ran
  rcases bind_eq_some _ _ _ _ _ ran with ⟨_, rehashed, upgraded, ran⟩
  replace ran := reach_bind_ok _ _ _ _ _ ran
  have session := writes_ok _ _ _ _ ran
  have frame : after = { rehashed with sessions := after.sessions } := by
    unfold addSession at session
    split at session <;> cases session
    rfl
  unfold rehash at upgraded
  split at upgraded
  · replace upgraded := reach_bind_ok _ _ _ _ _ upgraded
    have effect := set_password_effect keys _ _ _ _ _ (writes_ok _ _ _ _ upgraded)
    rw [frame]
    cases effect with
    | nothing users userDataKeys => exact .nothing users userDataKeys
    | password user stored passwordHash users userDataKeys =>
        exact .password user stored passwordHash users userDataKeys
    | newAdmin user admin fresh users userDataKeys =>
        exact .newAdmin user admin fresh users userDataKeys
    | newUser user admin fresh users dek wrapNonce userDataKeys =>
        exact .newUser user admin fresh users dek wrapNonce userDataKeys
    | deletion userId users userDataKeys => exact .deletion userId users userDataKeys
  · cases upgraded
    rw [frame]
    exact .nothing rfl rfl

theorem logout_effect (cookie : Option String) (now : Instant) (invariant : System → Prop)
    (respects : ∀ before after, invariant before → Effect keys before after → invariant after) :
    Keeps invariant (logout credentials faults cookie now) := by
  apply keeps_effects keys invariant _ _ respects
  intro before value after ran
  rcases bind_eq_some _ _ _ _ _ ran with ⟨user, first, authenticated, ran⟩
  rw [(get_current_user_frame credentials faults _ _ _ _ _ authenticated).2] at ran
  cases cookie with
  | none => cases ran
  | some rawToken =>
      replace ran := reach_bind_ok _ _ _ _ _ ran
      have deleted := writes_ok _ _ _ _ ran
      cases deleted
      exact .nothing rfl rfl

theorem connect_effect (cookie : Option String) (rawState : String) (now : Instant)
    (invariant : System → Prop)
    (respects : ∀ before after, invariant before → Effect keys before after → invariant after) :
    Keeps invariant (connect credentials faults cookie rawState now) := by
  apply keeps_effects keys invariant _ _ respects
  intro before value after ran
  rcases bind_eq_some _ _ _ _ _ ran with ⟨user, first, authenticated, ran⟩
  rw [(get_current_user_frame credentials faults _ _ _ _ _ authenticated).2] at ran
  have frame := issue_token_frame credentials faults _ _ _ _ _ _ ran
  apply Effect.nothing <;> rw [frame]

theorem store_grant_effect (draw : UpsertDraw) (userId : Uuid) (exchangedToken : ExchangedToken)
    (accountHash : String) (before after : System)
    (stored : storeGrant keys draw userId exchangedToken accountHash before = .ok ((), after)) :
    Effect keys before after := by
  unfold storeGrant at stored
  split at stored
  · cases stored
  · rename_i ledger upserted
    cases stored
    rcases bind_ok _ _ _ upserted with ⟨found, _, written⟩
    cases written
    exact .nothing rfl rfl

theorem callback_effect (rawState : String)
    (exchange : Except Failure (ExchangedToken × List String)) (draw : UpsertDraw)
    (now : Instant) (invariant : System → Prop)
    (respects : ∀ before after, invariant before → Effect keys before after → invariant after) :
    Keeps invariant (callback keys credentials faults rawState exchange draw now) := by
  apply keeps_bind _ _ _
    (consume_token_keeps keys credentials faults rawState .oauthState now invariant respects)
  intro userId
  cases userId with
  | none => exact keeps_raises invariant _
  | some userId =>
      apply keeps_effects keys invariant _ _ respects
      intro before value after ran
      rcases bind_eq_some _ _ _ _ _ ran with ⟨_, first, entered, ran⟩
      rw [enter_context_frame faults _ _ entered] at ran
      rcases reads_bind_ok _ _ _ _ _ ran with ⟨granted, exchanged, ran⟩
      rcases granted with ⟨exchangedToken, accounts⟩
      cases accounts with
      | nil => cases ran
      | cons accountHash others =>
          cases others with
          | cons _ _ => cases ran
          | nil =>
              replace ran := reach_bind_ok _ _ _ _ _ ran
              exact store_grant_effect keys _ _ _ _ _ _ (writes_ok _ _ _ _ ran)

theorem delete_me_effect (cookie : Option String) (now : Instant) (invariant : System → Prop)
    (respects : ∀ before after, invariant before → Effect keys before after → invariant after) :
    Keeps invariant (deleteMe credentials faults cookie now) := by
  apply keeps_effects keys invariant _ _ respects
  intro before value after ran
  rcases bind_eq_some _ _ _ _ _ ran with ⟨user, first, authenticated, ran⟩
  rw [(get_current_user_frame credentials faults _ _ _ _ _ authenticated).2] at ran
  have deleted := writes_ok _ _ _ _ ran
  cases outcome : deleteAccount (fun table => faults (.deleteRows table)) user.userId before with
  | error failure =>
      rw [outcome] at deleted
      cases deleted
  | ok final =>
      rw [outcome] at deleted
      cases deleted
      have spec := delete_account_ok _ _ _ _ outcome
      exact .deletion user.userId spec.1 spec.2.1

/-- Whatever every effect keeps, every request keeps, answered or cut short
at any point. -/
theorem serve_keeps (request : Request) (invariant : System → Prop)
    (respects : ∀ before after, invariant before → Effect keys before after → invariant after) :
    Keeps invariant (serve keys credentials faults request) := by
  cases request with
  | createAdmin username newId rawToken now =>
      apply keeps_bind
      · exact create_admin_effect keys credentials faults username newId rawToken now invariant
          respects
      · exact fun _ => keeps_pure invariant _
  | createUser cookie username newId rawToken dek wrapNonce now =>
      exact create_user_effect keys credentials faults cookie username newId rawToken dek wrapNonce
        now invariant respects
  | resetPassword cookie subjectId rawToken now =>
      exact reset_password_effect keys credentials faults cookie subjectId rawToken now invariant
        respects
  | setup rawToken password salt now =>
      exact setup_effect keys credentials faults rawToken password salt now invariant respects
  | login username password salt rawToken now =>
      exact login_effect keys credentials faults username password salt rawToken now invariant
        respects
  | logout cookie now => exact logout_effect keys credentials faults cookie now invariant respects
  | connect cookie rawState now =>
      exact connect_effect keys credentials faults cookie rawState now invariant respects
  | callback rawState exchange draw now =>
      exact callback_effect keys credentials faults rawState exchange draw now invariant respects
  | deleteMe cookie now =>
      exact delete_me_effect keys credentials faults cookie now invariant respects

end Effects

end Morai.Identity.Requests
