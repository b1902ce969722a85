import Morai.Api.TenantRuns
import Morai.Identity.RequestSteps
import Morai.Ingest.ElementsLand

/-!
# Deleted accounts

Every row of a tenant, every session and every token names an account, and only
`create_user` adds one. Once an account is deleted, neither its cookies and
tokens nor the jobs still queued for it bring anything of it back.
-/

namespace Morai.Api.DeletedTenants

open Morai.Crypto Morai.Db Morai.Python Morai.Foundation.PrimaryKey Morai.Foundation.Attempts
open Morai.Foundation.TwoRuns Morai.Identity.Tables Morai.Identity.Deletion
open Morai.Identity.Requests Morai.Identity.ConcurrentRequests Morai.Identity.RequestSteps
open Morai.Identity.RowSecurity Morai.Identity.TenantSessions Morai.Identity.TenantDeletion
open Morai.Vendor.Connections Morai.Ingest.SyncUser Morai.Ingest.ElementsLand Morai.Worker.SyncUserTask
open Morai.Ledger.Pairing Morai.Ledger.SyncEvents
open Morai.Api.TenantRequests Morai.Api.TenantIsolation Morai.Api.TenantFrames Morai.Api.TenantRuns

set_option autoImplicit false

/-! ## Statements -/

section Statements

variable (userId : Uuid)

/-- Nothing is stored under this id. -/
structure Departed (system : System) : Prop where
  user : ¬system.users.Has userId
  sessions : ∀ row ∈ system.sessions.rows, row.userId ≠ userId
  setupTokens : ∀ row ∈ system.setupTokens.rows, row.userId ≠ userId
  owners : userId ∉ (tenantData system).owners

/-- A new session or token is of an account that is there, and no account is
added under this id. -/
structure Confined (before after : System) : Prop where
  users : after.users.Has userId → before.users.Has userId
  sessions : ∀ row ∈ after.sessions.rows,
    row ∈ before.sessions.rows ∨ before.users.Has row.userId
  setupTokens : ∀ row ∈ after.setupTokens.rows,
    row ∈ before.setupTokens.rows ∨ before.users.Has row.userId

theorem departed_confined (before after : System) (departed : Departed userId before)
    (confined : Confined userId before after) (owners : userId ∉ (tenantData after).owners) :
    Departed userId after where
  user has := departed.user (confined.users has)
  sessions row member same := by
    cases confined.sessions row member with
    | inl old => exact departed.sessions row old same
    | inr has => exact departed.user (same ▸ has)
  setupTokens row member same := by
    cases confined.setupTokens row member with
    | inl old => exact departed.setupTokens row old same
    | inr has => exact departed.user (same ▸ has)
  owners := owners

theorem confined_of_tables (before after : System) (users : after.users = before.users)
    (sessions : after.sessions = before.sessions)
    (setupTokens : after.setupTokens = before.setupTokens) : Confined userId before after where
  users has := users ▸ has
  sessions _ member := Or.inl (sessions ▸ member)
  setupTokens _ member := Or.inl (setupTokens ▸ member)

theorem confined_of_tenant_only (before after : System) (only : TenantOnly before after) :
    Confined userId before after := by
  unfold TenantOnly at only
  apply confined_of_tables <;> rw [only] <;> rfl

abbrev DepartedOpen (session : Open) : Prop := Departed userId session.system

variable {Value : Type}

theorem keeps_unpoliced (change : System → Except Failure (Value × System)) (aloof : Aloof change)
    (confined : ∀ before value after, change before = .ok (value, after) →
      Confined userId before after) : Keeps (DepartedOpen userId) (unpoliced change) := by
  intro session outcome after departed ran
  cases outcome with
  | error failure =>
      unfold unpoliced writes at ran
      split at ran <;> cases ran
      exact departed
  | ok value =>
      obtain ⟨changed, _⟩ := unpoliced_ok change session after value ran
      have data := aloof_data change aloof _ _ value changed
      exact departed_confined userId _ _ departed (confined _ _ _ changed)
        (data ▸ departed.owners)

theorem keeps_of_user (owner : Uuid) (refused : Failure)
    (change : System → Except Failure (Value × System)) (aloof : Aloof change)
    (confined : ∀ before value after, change before = .ok (value, after) →
      Confined userId before after) :
    Keeps (DepartedOpen userId) (ofUser owner refused change) := by
  intro session outcome after departed ran
  unfold ofUser at ran
  split_ifs at ran
  · exact keeps_unpoliced userId change aloof confined session outcome after departed ran
  · cases ran
    exact departed

/-- The foreign keys of what the policies let through. -/
theorem owners_enforced (context : Context) (before after merged : System)
    (put : Enforced context before after merged)
    (whole : ∀ row ∈ after.rows ++ (context.hidden before).rows, brokenKey merged row = none)
    (owner : Uuid) (member : owner ∈ (tenantData merged).owners) : merged.users.Has owner := by
  obtain ⟨row, stored, column⟩ : ∃ row ∈ after.rows ++ (context.hidden before).rows,
      ("user_id", owner) ∈ row.userColumns := by
    cases (beside_owners _ _ _ put.data owner).mp member with
    | inl hidden =>
        obtain ⟨row, stored, column⟩ := owner_row (context.hidden before) owner hidden
        exact ⟨row, List.mem_append_right _ stored, column⟩
    | inr seen =>
        obtain ⟨row, stored, column⟩ := owner_row after owner seen
        exact ⟨row, List.mem_append_left _ stored, column⟩
  exact ((broken_key_none merged row).mp (whole row stored)).1 _ column

theorem enforced_users (context : Context) (before after merged : System)
    (put : Enforced context before after merged) (has : merged.users.Has userId) :
    before.users.Has userId := by
  rw [put.users] at has
  obtain ⟨user, member, same⟩ := List.mem_map.mp has
  exact List.mem_map.mpr ⟨user, (List.mem_filter.mp member).1, same⟩

/-- Nothing gets past the policies and the foreign keys under this id either. -/
theorem policed_departed (change : System → Except Failure (Value × System))
    (session after : Open) (outcome : Except Failure Value) (departed : DepartedOpen userId session)
    (confined : ∀ value changed,
      change (session.context.visible session.system) = .ok (value, changed) →
        Confined userId (session.context.visible session.system) changed)
    (ran : policed change session = some (outcome, after)) : DepartedOpen userId after := by
  cases policed_cases change session after outcome ran with
  | inl same => exact same ▸ departed
  | inr wrote =>
      obtain ⟨value, changed, ok, checked, _⟩ := wrote
      obtain ⟨put, whole⟩ := enforced_ok session.context session.system changed after.system checked
      have confined := confined value changed ok
      have users := enforced_users userId session.context session.system changed after.system put
      have known (owner : Uuid) (has : (session.context.visible session.system).users.Has owner) :
          session.system.users.Has owner := by
        obtain ⟨user, member, same⟩ := List.mem_map.mp has
        exact List.mem_map.mpr ⟨user, (List.mem_filter.mp member).1, same⟩
      apply departed_confined userId session.system after.system departed
      · constructor
        · exact users
        · intro row member
          rw [put.sessions] at member
          exact (confined.sessions row member).imp_right (known row.userId)
        · intro row member
          rw [put.setupTokens] at member
          exact (confined.setupTokens row member).imp_right (known row.userId)
      · intro owns
        exact departed.user (users (owners_enforced _ _ _ _ put whole userId owns))

theorem keeps_policed_job (change : System → Option (Except Failure (Value × System)))
    (only : ∀ view value after, change view = some (.ok (value, after)) → TenantOnly view after) :
    Keeps (DepartedOpen userId) (policedJob change) := by
  intro session outcome after departed ran
  unfold policedJob at ran
  split at ran
  · cases ran
  · rename_i ended performed
    apply policed_departed userId (fun _ => ended) session after outcome departed _ ran
    intro value changed ok
    exact confined_of_tenant_only userId _ _
      (only _ value changed (performed.trans (congrArg some ok)))

theorem keeps_policed (change : System → Except Failure (Value × System))
    (only : ∀ view value after, change view = .ok (value, after) → TenantOnly view after) :
    Keeps (DepartedOpen userId) (policed change) :=
  keeps_policed_job userId (fun view => some (change view))
    fun view value after ran => only view value after (Option.some.inj ran)

theorem keeps_within (context : Context) (body : Work Value)
    (keeps : Keeps (DepartedOpen userId) body) :
    Keeps (Departed userId) (within (Open.under context) Open.system body) := by
  intro system outcome after departed ran
  cases within_returned _ _ body system outcome after ran with
  | inl same => exact same ▸ departed
  | inr returned =>
      obtain ⟨value, inner, ended, shape⟩ := returned
      rw [shape]
      exact keeps _ _ inner departed ended

theorem keeps_committing (body : Work Value) (keeps : Keeps (DepartedOpen userId) body) :
    Keeps (Departed userId) (committing body) :=
  keeps_within userId .unset body keeps

theorem keeps_set_current_user_id (owner : Uuid) :
    Keeps (DepartedOpen userId) (setCurrentUserId owner) := by
  intro session outcome after departed ran
  cases ran
  exact departed

theorem keeps_set_is_admin : Keeps (DepartedOpen userId) setIsAdmin := by
  intro session outcome after departed ran
  cases ran
  exact departed

theorem keeps_enter_context (owner : Uuid) :
    Keeps (DepartedOpen userId) (TenantRequests.enterContext owner) := by
  apply keeps_bind _ _ _ (keeps_set_current_user_id userId owner)
  intro _
  exact keeps_reads _ _

end Statements

/-! ## What each write confines itself to -/

section Writes

variable (environment : Environment) (userId : Uuid)

theorem token_stored_confined (owner : Uuid) (purpose : TokenPurpose) (rawToken : String)
    (expiresAt : Instant) (before after : System)
    (ran : insertToken environment owner purpose rawToken expiresAt before = .ok ((), after)) :
    Confined userId before after := by
  obtain ⟨_, refers, stored⟩ := bind_ok _ _ _ ran
  have has := referring_ok _ owner before refers
  unfold storeToken at stored
  split at stored
  · cases stored
  · rename_i setupTokens inserted
    cases stored
    refine ⟨id, fun row member => Or.inl member, ?_⟩
    intro row member
    change row ∈ setupTokens.rows at member
    rw [(insert_row_ok _ _ _ _ inserted).2] at member
    cases List.mem_append.mp member with
    | inl old => exact Or.inl old
    | inr new =>
        rw [List.mem_singleton.mp new]
        exact Or.inr has

theorem session_stored_confined (owner : Uuid) (rawToken : String) (expiresAt : Instant)
    (before after : System)
    (ran : insertSession environment owner rawToken expiresAt before = .ok ((), after)) :
    Confined userId before after := by
  obtain ⟨_, refers, stored⟩ := bind_ok _ _ _ ran
  have has := referring_ok _ owner before refers
  unfold addSession at stored
  split at stored
  · cases stored
  · rename_i sessions inserted
    cases stored
    refine ⟨id, ?_, fun row member => Or.inl member⟩
    intro row member
    change row ∈ sessions.rows at member
    rw [(insert_row_ok _ _ _ _ inserted).2] at member
    cases List.mem_append.mp member with
    | inl old => exact Or.inl old
    | inr new =>
        rw [List.mem_singleton.mp new]
        exact Or.inr has

theorem session_deleted_confined (rawToken : String) (before after : System)
    (ran : deleteSession environment rawToken before = .ok ((), after)) :
    Confined userId before after := by
  cases ran
  exact ⟨id, fun row member => Or.inl (List.mem_filter.mp member).1, fun row member => Or.inl member⟩

theorem token_deleted_confined (rawToken : String) (purpose : TokenPurpose) (now : Instant)
    (before after : System) (found : Option Uuid)
    (ran : deleteToken environment.credentials rawToken purpose now before = .ok (found, after)) :
    Confined userId before after := by
  unfold deleteToken at ran
  split at ran
  · cases ran
    exact confined_of_tables userId _ _ rfl rfl rfl
  · cases ran
    exact ⟨id, fun row member => Or.inl member,
      fun row member => Or.inl (List.mem_filter.mp member).1⟩

theorem user_inserted_confined (user : User) (other : user.id ≠ userId) (before after : System)
    (ran : insertUser user before = .ok ((), after)) : Confined userId before after := by
  obtain ⟨_, rows, shape⟩ := insert_user_ok user before after ran
  constructor
  · intro has
    rw [KeyedTable.Has, rows, List.map_append] at has
    cases List.mem_append.mp has with
    | inl old => exact old
    | inr new => exact absurd (List.mem_singleton.mp new).symm other
  · intro row member
    rw [shape] at member
    exact Or.inl member
  · intro row member
    rw [shape] at member
    exact Or.inl member

theorem password_set_confined (unmatched : Failure) (owner : Uuid) (passwordHash : String)
    (before after : System)
    (ran : setPassword unmatched owner passwordHash before = .ok ((), after)) :
    Confined userId before after := by
  unfold setPassword at ran
  split at ran
  · cases ran
  · rename_i user found
    cases ran
    obtain ⟨member, same⟩ := (get_eq_some_iff _ _ _).mp found
    have stored : before.users.Has user.id := List.mem_map.mpr ⟨user, member, rfl⟩
    exact ⟨(put_has before.users { user with passwordHash := passwordHash } stored userId).mp,
      fun row member => Or.inl member, fun row member => Or.inl member⟩

theorem audited_read_confined (readerId subjectId : Uuid) (before after : System)
    (ran : openAuditedRead readerId subjectId before = .ok ((), after)) :
    Confined userId before after := by
  unfold openAuditedRead at ran
  split_ifs at ran
  cases ran
  exact confined_of_tables userId _ _ rfl rfl rfl

end Writes

/-! ## Routes and jobs -/

section Routes

variable (environment : Environment) (userId : Uuid)

theorem keeps_done : Keeps (DepartedOpen userId) (pure Response.done : Work Response) :=
  keeps_pure _ _

theorem keeps_insert_token (owner : Uuid) (purpose : TokenPurpose) (rawToken : String)
    (expiresAt : Instant) : Keeps (DepartedOpen userId)
      (unpoliced (insertToken environment owner purpose rawToken expiresAt)) :=
  keeps_unpoliced userId _ (token_stored_aloof environment owner purpose rawToken expiresAt)
    fun before _ after ran =>
      token_stored_confined environment userId owner purpose rawToken expiresAt before after ran

theorem keeps_update_password (unmatched : Failure) (owner : Uuid) (passwordHash : String) :
    Keeps (DepartedOpen userId) (TenantRequests.updatePassword unmatched owner passwordHash) :=
  keeps_of_user userId owner unmatched _ (password_set_aloof unmatched owner passwordHash)
    fun before _ after ran =>
      password_set_confined userId unmatched owner passwordHash before after ran

theorem keeps_consume_token (rawToken : String) (purpose : TokenPurpose) (now : Instant) :
    Keeps (Departed userId) (TenantRequests.consumeToken environment rawToken purpose now) :=
  keeps_committing userId _ (keeps_unpoliced userId _
    (token_deleted_aloof environment rawToken purpose now) fun before found after ran =>
      token_deleted_confined environment userId rawToken purpose now before after found ran)

theorem keeps_current_user (cookie : Option String) (now : Instant) :
    Keeps (DepartedOpen userId) (TenantRequests.getCurrentUser environment cookie now) := by
  unfold TenantRequests.getCurrentUser
  refine keeps_bind _ _ _ (keeps_reads _ _) ?_
  intro owner
  apply keeps_bind _ _ _ (keeps_set_current_user_id userId owner)
  intro _
  refine keeps_bind _ _ _ (keeps_reads _ _) ?_
  intro caller
  by_cases admin : caller.isAdmin = true
  · simp only [admin, if_true]
    apply keeps_bind _ _ _ (keeps_set_is_admin userId)
    intro _
    exact keeps_pure _ _
  · simp only [admin]
    exact keeps_pure _ _

theorem keeps_authenticated (cookie : Option String) (now : Instant)
    (route : AuthenticatedUser → Work Response)
    (keeps : ∀ user, Keeps (DepartedOpen userId) (route user)) :
    Keeps (Departed userId) (authenticated environment cookie now route) := by
  apply keeps_committing userId
  exact keeps_bind _ _ _ (keeps_current_user environment userId cookie now) keeps

theorem keeps_selecting (cookie : Option String) (now : Instant)
    (query : AuthenticatedUser → System → Except Failure Response) :
    Keeps (Departed userId)
      (authenticated environment cookie now fun user => selects (query user)) :=
  keeps_authenticated environment userId cookie now _ fun _ => keeps_reads _ _

theorem keeps_create_user (username : String) (newId : Uuid) (rawToken : String)
    (dek wrapNonce : Bytes) (now : Instant) (user : AuthenticatedUser) (other : newId ≠ userId) :
    Keeps (DepartedOpen userId)
      (TenantRequests.createUser environment username newId rawToken dek wrapNonce now user) := by
  have inserts : Keeps (DepartedOpen userId) (ofUser newId (.raised .other) fun system =>
      answering 409 (insertUser ⟨newId, username, none, false⟩ system)) :=
    keeps_of_user userId newId _ _ (answering_aloof 409 _ (user_inserted_aloof _))
      fun before _ after ran =>
        user_inserted_confined userId _ other before after (answering_ok 409 _ _ ran)
  have provisions : Keeps (DepartedOpen userId)
      (policed (provisionDataKey environment.keys newId dek wrapNonce)) := by
    apply keeps_policed userId
    intro view value after ran
    unfold provisionDataKey at ran
    split at ran <;> cases ran
    rfl
  unfold TenantRequests.createUser
  split_ifs
  · apply keeps_bind _ _ _ inserts
    intro _
    apply keeps_bind _ _ _ (keeps_enter_context userId newId)
    intro _
    apply keeps_bind _ _ _ provisions
    intro _
    apply keeps_bind _ _ _ (keeps_insert_token environment userId _ _ _ _)
    intro _
    exact keeps_done userId
  · exact keeps_raises _ _

theorem keeps_reset_password (subjectId : Uuid) (rawToken : String) (now : Instant)
    (admin : AuthenticatedUser) : Keeps (DepartedOpen userId)
      (TenantRequests.resetPassword environment subjectId rawToken now admin) := by
  have audits : Keeps (DepartedOpen userId)
      (unpoliced fun system => answering 404 (openAuditedRead admin.userId subjectId system)) :=
    keeps_unpoliced userId _ (answering_aloof 404 _ (audited_read_aloof admin.userId subjectId))
      fun before _ after ran => audited_read_confined userId admin.userId subjectId before after
        (answering_ok 404 _ _ ran)
  unfold TenantRequests.resetPassword
  split_ifs
  · apply keeps_bind _ _ _ audits
    intro _
    refine keeps_bind _ _ _ (keeps_reads _ _) ?_
    intro target
    cases target with
    | none => exact keeps_raises _ _
    | some target =>
        apply keeps_bind _ _ _ (keeps_insert_token environment userId _ _ _ _)
        intro _
        exact keeps_done userId
  · exact keeps_raises _ _

theorem keeps_setup (rawToken password : String) (salt : Bytes) (now : Instant) :
    Keeps (Departed userId) (TenantRequests.setup environment rawToken password salt now) := by
  have consumes : Keeps (Departed userId)
      (TenantRequests.consumeEither environment rawToken now) := by
    apply keeps_bind _ _ _ (keeps_consume_token environment userId rawToken .setup now)
    intro found
    cases found with
    | some owner => exact keeps_pure _ _
    | none => exact keeps_consume_token environment userId rawToken .passwordReset now
  apply keeps_bind _ _ _ consumes
  intro found
  cases found with
  | none => exact keeps_raises _ _
  | some owner =>
      apply keeps_committing userId
      apply keeps_bind _ _ _ (keeps_enter_context userId owner)
      intro _
      apply keeps_bind _ _ _ (keeps_update_password userId setupUnmatched owner _)
      intro _
      exact keeps_done userId

theorem keeps_login (username password : String) (salt : Bytes) (rawToken : String)
    (now : Instant) : Keeps (Departed userId)
      (TenantRequests.login environment username password salt rawToken now) := by
  apply keeps_committing userId
  refine keeps_bind _ _ _ (keeps_reads _ _) ?_
  rintro ⟨owner, storedHash⟩
  apply keeps_bind _ _ _ (keeps_set_current_user_id userId owner)
  intro _
  have stores : Keeps (DepartedOpen userId) (do
      unpoliced (TenantRequests.insertSession environment owner rawToken (now + sessionCookieTtl))
      pure Response.done) := by
    apply keeps_bind _ _ _ (keeps_unpoliced userId _
      (session_stored_aloof environment owner rawToken _) fun before _ after ran =>
        session_stored_confined environment userId owner rawToken _ before after ran)
    intro _
    exact keeps_done userId
  by_cases needed : environment.credentials.needsRehash storedHash = true
  · simp only [needed, if_true]
    apply keeps_bind _ _ _ (keeps_update_password userId loginUnmatched owner _)
    intro _
    exact stores
  · simp only [needed]
    exact stores

theorem keeps_logout (cookie : Option String) :
    Keeps (DepartedOpen userId) (TenantRequests.logout environment cookie) := by
  cases cookie with
  | none => exact keeps_raises _ _
  | some rawToken =>
      apply keeps_bind _ _ _ (keeps_unpoliced userId _ (session_deleted_aloof environment rawToken)
        fun before _ after ran => session_deleted_confined environment userId rawToken before after
          ran)
      intro _
      exact keeps_done userId

theorem keeps_connect (rawState : String) (now : Instant) (user : AuthenticatedUser) :
    Keeps (DepartedOpen userId) (TenantRequests.connect environment rawState now user) := by
  apply keeps_bind _ _ _ (keeps_insert_token environment userId _ _ _ _)
  intro _
  exact keeps_done userId

theorem keeps_callback (rawState : String)
    (exchange : Except Failure (ExchangedToken × List String)) (draw : UpsertDraw)
    (now : Instant) :
    Keeps (Departed userId) (TenantRequests.callback environment rawState exchange draw now) := by
  apply keeps_bind _ _ _ (keeps_consume_token environment userId rawState .oauthState now)
  intro found
  cases found with
  | none => exact keeps_raises _ _
  | some owner =>
      apply keeps_committing userId
      apply keeps_bind _ _ _ (keeps_enter_context userId owner)
      intro _
      refine keeps_bind _ _ _ (keeps_reads _ _) ?_
      rintro ⟨exchangedToken, accounts⟩
      rcases accounts with - | ⟨accountHash, - | ⟨another, rest⟩⟩
      · exact keeps_raises _ _
      · apply keeps_bind _ _ _ (keeps_policed userId _ fun view value after ran =>
          (grant_grounded environment.keys draw owner exchangedToken accountHash .unset view value
            after ran).2)
        intro _
        exact keeps_done userId
      · exact keeps_raises _ _

/-- The deletion of any account. -/
theorem keeps_delete_me (cookie : Option String) (now : Instant) :
    Keeps (Departed userId) (authenticated environment cookie now TenantRequests.deleteMe) := by
  intro system outcome after departed ran
  rw [authenticated_eq] at ran
  cases found : currentUser environment.credentials cookie now system with
  | error failure =>
      simp only [found] at ran
      cases ran
      exact departed
  | ok user =>
      simp only [found] at ran
      cases within_returned _ _ _ system outcome after ran with
      | inl same => exact same ▸ departed
      | inr returned =>
          obtain ⟨value, inner, ended, shape⟩ := returned
          obtain ⟨_, middle, deleted, done⟩ := bind_eq_some _ _ _ value inner ended
          cases done
          rw [shape]
          have owns : (⟨some user.userId, user.isAdmin⟩ : Context).Owns user.userId := rfl
          apply policed_departed userId _ _ _ _ departed _ deleted
          intro _ changed ok
          have left := delete_visible _ user.userId owns system
          simp only [Open.under, left, Except.map, Except.ok.injEq, Prod.mk.injEq] at ok
          rw [← ok.2]
          constructor
          · intro has
            obtain ⟨user, member, same⟩ := List.mem_map.mp has
            exact List.mem_map.mpr ⟨user, (List.mem_filter.mp member).1, same⟩
          · exact fun row member => Or.inl (List.mem_filter.mp member).1
          · exact fun row member => Or.inl (List.mem_filter.mp member).1

theorem keeps_sync_user (owner : Uuid) (call : TaskCall) (vendor : Option JsonValue → VendorRun)
    (draws : SyncDraws) :
    Keeps (Departed userId) (syncUserJob environment owner call vendor draws) := by
  have body : Keeps (DepartedOpen userId) (do
      setCurrentUserId owner
      policedJob (taskEnded environment owner call vendor draws)) := by
    apply keeps_bind _ _ _ (keeps_set_current_user_id userId owner)
    intro _
    exact keeps_policed_job userId _ fun view ended after ran =>
      (task_grounded environment owner call vendor draws .unset view after ended ran).2
  apply keeps_bind _ _ _ (keeps_committing userId _ body)
  intro ended
  cases ended with
  | error raised => exact keeps_raises _ _
  | ok _ => exact keeps_pure _ _

theorem keeps_sync_events (owner : Uuid) (call : SyncCall) :
    Keeps (Departed userId) (syncEventsJob environment owner call) := by
  apply keeps_committing userId
  apply keeps_bind _ _ _ (keeps_set_current_user_id userId owner)
  intro _
  apply keeps_bind _ _ _ (keeps_policed userId _ fun view derivation after ran =>
    (events_grounded environment owner call .unset view after derivation ran).2)
  intro derivation
  exact keeps_pure _ _

end Routes

/-! ## Steps after the deletion -/

/-- The account a step adds. -/
def creates : Step → Option Uuid
  | .request (.createUser _ _ newId _ _ _ _) => some newId
  | _ => none

section Runs

variable (environment : Environment) (userId : Uuid)

theorem serve_departed (request : TenantRequests.Request)
    (unused : creates (.request request) ≠ some userId) :
    Keeps (Departed userId) (TenantRequests.serve environment request) := by
  cases request with
  | createUser cookie username newId rawToken dek wrapNonce now =>
      exact keeps_authenticated environment userId cookie now _ fun user =>
        keeps_create_user environment userId username newId rawToken dek wrapNonce now user
          fun same => unused (congrArg some same)
  | resetPassword cookie subjectId rawToken now =>
      exact keeps_authenticated environment userId cookie now _
        (keeps_reset_password environment userId subjectId rawToken now)
  | setup rawToken password salt now =>
      exact keeps_setup environment userId rawToken password salt now
  | login username password salt rawToken now =>
      exact keeps_login environment userId username password salt rawToken now
  | logout cookie now =>
      exact keeps_authenticated environment userId cookie now _ fun _ =>
        keeps_logout environment userId cookie
  | me cookie now => exact keeps_selecting environment userId cookie now _
  | deleteMe cookie now => exact keeps_delete_me environment userId cookie now
  | listPositions cookie order now => exact keeps_selecting environment userId cookie now _
  | getPosition cookie positionId now => exact keeps_selecting environment userId cookie now _
  | connect cookie rawState now =>
      exact keeps_authenticated environment userId cookie now _
        (keeps_connect environment userId rawState now)
  | callback rawState exchange draw now =>
      exact keeps_callback environment userId rawState exchange draw now
  | connection cookie now readAt => exact keeps_selecting environment userId cookie now _
  | sync cookie order now readAt => exact keeps_selecting environment userId cookie now _
  | syncRuns cookie order now => exact keeps_selecting environment userId cookie now _

theorem perform_departed (step : Step) (system : System) (departed : Departed userId system)
    (unused : creates step ≠ some userId) :
    Departed userId (TenantRequests.perform environment step system).2 := by
  have keeps : Keeps (Departed userId) (program environment step) := by
    cases step with
    | request request => exact serve_departed environment userId request unused
    | syncUser owner call vendor draws =>
        exact keeps_sync_user environment userId owner call vendor draws
    | syncEvents owner call => exact keeps_sync_events environment userId owner call
  unfold TenantRequests.perform
  cases ran : program environment step system with
  | none => exact departed
  | some ended => exact keeps system ended.1 ended.2 departed ran

theorem after_departed (steps : List Step) (system : System) (departed : Departed userId system)
    (unused : ∀ step ∈ steps, creates step ≠ some userId) :
    Departed userId (TenantRequests.after environment steps system) := by
  induction steps generalizing system with
  | nil => exact departed
  | cons step rest ih =>
      apply ih
      · exact perform_departed environment userId step system departed (unused step (by simp))
      · intro later member
        exact unused later (List.mem_cons_of_mem _ member)

/-- What `delete_account` leaves of what the session sees, and the policies
then let through. -/
theorem departed_of_deletion (user : AuthenticatedUser) (system : System) (after : Open)
    (ran : policed (fun view => (deleteAccount (fun _ => none) user.userId view).map (Prod.mk ()))
      (Open.under ⟨some user.userId, user.isAdmin⟩ system) = some (.ok (), after)) :
    Departed user.userId after.system := by
  have owns : (⟨some user.userId, user.isAdmin⟩ : Context).Owns user.userId := rfl
  have left := delete_visible _ user.userId owns system
  have wrote := writes_ok _ _ after () ran
  simp only [Open.under, left, Except.map] at wrote
  split at wrote
  · cases wrote
  · rename_i merged checked
    cases wrote
    obtain ⟨put, whole⟩ := enforced_ok _ system _ merged checked
    have nobody : ¬merged.users.Has user.userId := by
      intro has
      rw [put.users] at has
      obtain ⟨row, member, same⟩ := List.mem_map.mp has
      obtain ⟨_, kept⟩ := List.mem_filter.mp member
      have sees : (⟨some user.userId, user.isAdmin⟩ : Context).SeesUser row.id := Or.inl (same ▸ owns)
      obtain ⟨other, stays, named⟩ := List.mem_map.mp (of_decide_eq_true kept sees)
      have apart := of_decide_eq_true (List.mem_filter.mp stays).2
      exact apart (named.trans same)
    constructor
    · exact nobody
    · intro row member
      rw [put.sessions] at member
      exact of_decide_eq_true (List.mem_filter.mp member).2
    · intro row member
      rw [put.setupTokens] at member
      exact of_decide_eq_true (List.mem_filter.mp member).2
    · intro member
      exact nobody (owners_enforced _ _ _ _ put whole user.userId member)

/-- A deletion that was answered leaves nobody by that id. -/
theorem deletion_departs (cookie : Option String) (now : Instant) (system : System)
    (mine : readSession environment.credentials cookie now system = .ok userId)
    (deleted : (TenantRequests.perform environment (.request (.deleteMe cookie now)) system).1 =
      some (.ok .done)) :
    Departed userId
      (TenantRequests.perform environment (.request (.deleteMe cookie now)) system).2 := by
  have shape : program environment (.request (.deleteMe cookie now)) system =
      authenticated environment cookie now TenantRequests.deleteMe system := rfl
  unfold TenantRequests.perform at deleted ⊢
  rw [shape, authenticated_eq] at deleted ⊢
  cases found : currentUser environment.credentials cookie now system with
  | error failure =>
      simp only [found] at deleted
      cases deleted
  | ok user =>
      simp only [found] at deleted ⊢
      have same : user.userId = userId := by
        have session := current_user_session environment cookie now system user found
        rw [mine] at session
        exact (Except.ok.inj session).symm
      cases ran : within (Open.under ⟨some user.userId, user.isAdmin⟩) Open.system
          (TenantRequests.deleteMe user) system with
      | none =>
          simp only [ran] at deleted
          cases deleted
      | some ended =>
          obtain ⟨outcome, after⟩ := ended
          simp only [ran, Option.some.injEq] at deleted ⊢
          subst deleted
          obtain ⟨inner, ended, left⟩ := within_ok _ _ _ system after _ ran
          obtain ⟨_, middle, gone, done⟩ := bind_eq_some _ _ _ _ inner ended
          cases done
          rw [left, ← same]
          exact departed_of_deletion user system inner gone

/-! ## What still arrives for the account -/

theorem departed_session (cookie : Option String) (now : Instant) (system : System)
    (departed : Departed userId system) :
    (readSession environment.credentials cookie now system).toOption ≠ some userId := by
  intro session
  unfold readSession at session
  split at session
  · cases session
  · split at session
    · cases session
    · rename_i row found
      split_ifs at session
      · exact departed.sessions row ((get_eq_some_iff _ _ _).mp found).1 (Option.some.inj session)
      · cases session

theorem departed_token (rawToken : String) (purpose : TokenPurpose) (now : Instant)
    (system : System) (departed : Departed userId system) :
    (matchingToken environment.credentials rawToken purpose now system).map SetupToken.userId ≠
      some userId := by
  intro matched
  obtain ⟨row, found, same⟩ := Option.map_eq_some_iff.mp matched
  have stored := (Option.filter_eq_some_iff.mp found).1
  exact departed.setupTokens row ((get_eq_some_iff _ _ _).mp stored).1 same

theorem departed_login (username password : String) (system : System)
    (departed : Departed userId system) :
    (verifiedUser environment.credentials username password system).toOption.map Prod.fst ≠
      some userId := by
  intro verified
  unfold verifiedUser at verified
  split at verified
  · cases verified
  · rename_i user found
    split at verified
    · cases verified
    · split_ifs at verified
      · have member := List.mem_of_find?_eq_some found
        exact departed.user (List.mem_map.mpr ⟨user, member, Option.some.inj verified⟩)
      · cases verified

/-- Nobody makes a request as the account. -/
theorem departed_requester (request : TenantRequests.Request) (system : System)
    (departed : Departed userId system) : requester environment system request ≠ some userId := by
  cases request with
  | createUser cookie _ _ _ _ _ now | resetPassword cookie _ _ now | logout cookie now
  | me cookie now | deleteMe cookie now | listPositions cookie _ now
  | getPosition cookie _ now | connect cookie _ now | connection cookie now _
  | sync cookie _ now _ | syncRuns cookie _ now =>
      exact departed_session environment userId cookie now system departed
  | setup rawToken password salt now =>
      have first := departed_token environment userId rawToken .setup now system departed
      have second := departed_token environment userId rawToken .passwordReset now system departed
      simp only [requester]
      cases found : matchingToken environment.credentials rawToken .setup now system with
      | none => exact second
      | some row =>
          rw [found] at first
          exact first
  | login username password _ _ _ =>
      exact departed_login environment userId username password system departed
  | callback rawState _ _ now =>
      exact departed_token environment userId rawState .oauthState now system departed

theorem departed_connection (context : Context) (system : System)
    (departed : Departed userId system) :
    (context.visible system).ledger.schwabConnections.get? userId = none := by
  rw [get_eq_none_iff]
  intro has
  obtain ⟨row, member, same⟩ := List.mem_map.mp has
  have stored : row ∈ system.ledger.schwabConnections.rows := (List.mem_filter.mp member).1
  apply departed.owners
  rw [← same]
  simp only [TenantData.owners, tenantData, List.mem_append, List.mem_map]
  exact Or.inl (Or.inl (Or.inr ⟨row, stored, rfl⟩))

theorem policed_job_returns {Value : Type}
    (change : System → Option (Except Failure (Value × System))) (session after : Open)
    (value result : Value) (changed : System)
    (made : change (session.context.visible session.system) = some (.ok (value, changed)))
    (ran : policedJob change session = some (.ok result, after)) : result = value := by
  simp only [policedJob, made] at ran
  have wrote := writes_ok _ session after result ran
  dsimp only at wrote
  split at wrote
  · cases wrote
  · cases wrote
    rfl

theorem task_without_connection (call : TaskCall) (vendor : Option JsonValue → VendorRun)
    (draws : SyncDraws) (view : System)
    (absent : view.ledger.schwabConnections.get? userId = none) :
    taskEnded environment userId call vendor draws view =
      some (.ok (.error (nothingToSync userId), { view with
        ledger := recordSyncRun userId call .failed none none
          (some (classifySyncError (nothingToSync userId))) view.ledger })) := by
  have unread : readConnection environment.keys environment.pydantic userId view.ledger =
      .ok none := by
    simp only [readConnection, absent]
  simp only [taskEnded, syncUserTask, syncUser, unread]

/-- A job that is still queued for the account fails. -/
theorem departed_job (call : TaskCall) (vendor : Option JsonValue → VendorRun)
    (draws : SyncDraws) (system : System) (departed : Departed userId system)
    (response : Response) :
    (TenantRequests.perform environment (.syncUser userId call vendor draws) system).1 ≠
      some (.ok response) := by
  intro answered
  have shape : program environment (.syncUser userId call vendor draws) system =
      syncUserJob environment userId call vendor draws system := rfl
  unfold TenantRequests.perform at answered
  rw [shape] at answered
  cases ran : syncUserJob environment userId call vendor draws system with
  | none =>
      simp only [ran] at answered
      cases answered
  | some ended =>
      obtain ⟨outcome, after⟩ := ended
      simp only [ran, Option.some.injEq] at answered
      subst answered
      obtain ⟨task, middle, worked, later⟩ := bind_eq_some _ _ _ response after ran
      obtain ⟨inner, policedRan, _⟩ := within_ok _ _ _ system middle task worked
      obtain ⟨_, set, entered, job⟩ := bind_eq_some _ _ _ task inner policedRan
      cases entered
      have absent := departed_connection userId ⟨some userId, false⟩ system departed
      have ended := task_without_connection environment userId call vendor draws _ absent
      have failed := policed_job_returns _ _ inner _ task _ ended job
      subst failed
      cases later

/-- **Once `DELETE /me` has been answered, nothing is stored under that id again,
no request is made as that user and every job still queued for them fails,
whatever anybody does in any order.** -/
theorem deleted_account_stays_gone (cookie : Option String) (now : Instant) (system : System)
    (mine : readSession environment.credentials cookie now system = .ok userId)
    (deleted : (TenantRequests.perform environment (.request (.deleteMe cookie now)) system).1 =
      some (.ok .done))
    (steps : List Step) (unused : ∀ step ∈ steps, creates step ≠ some userId) :
    let reached := TenantRequests.after environment (.request (.deleteMe cookie now) :: steps) system
    ¬reached.users.Has userId ∧ ownRows userId reached = ⟨.empty, .empty⟩ ∧
      (∀ row ∈ reached.sessions.rows, row.userId ≠ userId) ∧
      (∀ row ∈ reached.setupTokens.rows, row.userId ≠ userId) ∧
      (∀ request, requester environment reached request ≠ some userId) ∧
      ∀ call vendor draws response,
        (TenantRequests.perform environment (.syncUser userId call vendor draws) reached).1 ≠
          some (.ok response) := by
  intro reached
  have departed : Departed userId reached := after_departed environment userId steps _
    (deletion_departs environment userId cookie now system mine deleted) unused
  refine ⟨departed.user, filter_absent _ userId departed.owners, departed.sessions,
    departed.setupTokens, ?_, ?_⟩
  · intro request
    exact departed_requester environment userId request reached departed
  · intro call vendor draws response
    exact departed_job environment userId call vendor draws reached departed response

end Runs

/-- The deleted user's cookie and queued job, and the same name invited anew. -/
def afterDeletion : List Step :=
  [userLists, .syncUser ⟨1⟩ ⟨0, 1, .scheduled⟩ (fun _ => answering []) plainDraws,
    .request (.createUser (some "other-session") "user" ⟨3⟩ "invitation" [1] [2] 0)]

theorem deleted_account_stays_gone_invited_anew :
    let reached := TenantRequests.after plainEnvironment (userDeletes :: afterDeletion)
      onePositionHeld
    reached.users.Has ⟨3⟩ ∧ ¬reached.users.Has ⟨1⟩ ∧ ownRows ⟨1⟩ reached = ⟨.empty, .empty⟩ := by
  intro reached
  have gone := deleted_account_stays_gone plainEnvironment ⟨1⟩ (some "user-session") 0
    onePositionHeld (by decide +kernel) (by decide +kernel) afterDeletion (by decide +kernel)
  exact ⟨by decide +kernel, gone.1, gone.2.1⟩

end Morai.Api.DeletedTenants
