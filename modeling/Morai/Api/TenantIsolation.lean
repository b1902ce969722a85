import Morai.Api.TenantRequests
import Morai.Identity.TenantDeletion

/-!
# Tenant isolation

Two databases that differ in what other users own: every request and job of
the user answers the same and leaves the same of the user's rows, and nobody
else's changes them.
-/

namespace Morai.Api.TenantIsolation

open Morai.Crypto Morai.Db Morai.Python Morai.Foundation.PrimaryKey Morai.Foundation.Attempts
open Morai.Foundation.TwoRuns Morai.Identity.Tables Morai.Identity.Deletion
open Morai.Identity.Requests Morai.Identity.ConcurrentRequests Morai.Identity.RowSecurity
open Morai.Identity.TenantSessions Morai.Identity.TenantDeletion Morai.Vendor.Connections
open Morai.Ingest.SyncUser Morai.Worker.SyncUserTask Morai.Ledger.SyncEvents
open Morai.Api.TenantRequests

set_option autoImplicit false

/-! ## Statements that stay off the tables of the tenants -/

section Aloof

variable (environment : Environment)

theorem verified_user_blind (username password : String) :
    Blind (verifiedUser environment.credentials username password) := by
  intro system data
  rfl

theorem referring_aloof {Value : Type} (constraintName : String) (userId : Uuid)
    (change : System → Except Failure (Value × System)) (aloof : Aloof change) :
    Aloof fun system => referring constraintName userId system >>= fun _ => change system := by
  constructor
  · intro system data
    have same : referring constraintName userId (withTenantData system data) =
        referring constraintName userId system := rfl
    simp only [same]
    cases referring constraintName userId system with
    | error failure => rfl
    | ok _ => exact aloof.commutes system data
  · intro system value after changed
    obtain ⟨_, _, changed⟩ := bind_ok _ _ _ changed
    exact aloof.keepsUsers system value after changed

theorem token_stored_aloof (userId : Uuid) (purpose : TokenPurpose) (rawToken : String)
    (expiresAt : Instant) :
    Aloof (TenantRequests.insertToken environment userId purpose rawToken expiresAt) := by
  apply referring_aloof
  constructor
  · intro system data
    simp only [storeToken, withTenantData]
    split <;> rfl
  · intro system value after stored owner has
    unfold storeToken at stored
    split at stored <;> cases stored
    exact has

theorem session_stored_aloof (userId : Uuid) (rawToken : String) (expiresAt : Instant) :
    Aloof (TenantRequests.insertSession environment userId rawToken expiresAt) := by
  apply referring_aloof
  constructor
  · intro system data
    simp only [addSession, withTenantData]
    split <;> rfl
  · intro system value after stored owner has
    unfold addSession at stored
    split at stored <;> cases stored
    exact has

theorem session_deleted_aloof (rawToken : String) :
    Aloof (TenantRequests.deleteSession environment rawToken) := by
  constructor
  · intro system data
    rfl
  · intro system value after deleted owner has
    cases deleted
    exact has

theorem token_deleted_aloof (rawToken : String) (purpose : TokenPurpose) (now : Instant) :
    Aloof (deleteToken environment.credentials rawToken purpose now) := by
  constructor
  · intro system data
    have same : matchingToken environment.credentials rawToken purpose now
        (withTenantData system data) =
        matchingToken environment.credentials rawToken purpose now system := rfl
    unfold deleteToken
    rw [same]
    split <;> rfl
  · intro system value after deleted owner has
    unfold deleteToken at deleted
    split at deleted <;> cases deleted <;> exact has

theorem answering_aloof {Value : Type} (statusCode : Nat)
    (change : System → Except Failure (Value × System)) (aloof : Aloof change) :
    Aloof fun system => answering statusCode (change system) := by
  constructor
  · intro system data
    simp only [aloof.commutes system data]
    cases change system with
    | ok done => rfl
    | error failure =>
        rcases failure with raised | status | message
        · cases raised <;> rfl
        · rfl
        · rfl
  · intro system value after answered
    exact aloof.keepsUsers system value after (answering_ok statusCode _ _ answered)

theorem user_inserted_aloof (user : User) : Aloof (insertUser user) := by
  constructor
  · intro system data
    have users : (withTenantData system data).users = system.users := rfl
    unfold insertUser
    rw [users]
    split
    · rfl
    · split <;> rfl
  · intro system value after inserted owner has
    rw [KeyedTable.Has, (insert_user_ok user system after inserted).2.1, List.map_append]
    exact List.mem_append_left _ has

theorem password_set_aloof (unmatched : Failure) (userId : Uuid) (passwordHash : String) :
    Aloof (setPassword unmatched userId passwordHash) := by
  constructor
  · intro system data
    simp only [setPassword, withTenantData]
    split <;> rfl
  · intro system value after set owner has
    unfold setPassword at set
    split at set
    · cases set
    · rename_i user stored
      cases set
      by_contra absent
      have none := (get_eq_none_iff _ owner).mpr absent
      rw [put_get] at none
      split_ifs at none
      exact (get_eq_none_iff _ owner).mp none has

theorem audited_read_aloof (readerId subjectId : Uuid) :
    Aloof (openAuditedRead readerId subjectId) := by
  constructor
  · intro system data
    have users : (withTenantData system data).users = system.users := rfl
    unfold openAuditedRead
    rw [users]
    split
    · rfl
    · split <;> rfl
  · intro system value after opened owner has
    unfold openAuditedRead at opened
    split_ifs at opened
    cases opened
    exact has

end Aloof

/-! ## `get_current_user` -/

section Authenticated

variable (environment : Environment) (cookie : Option String) (now : Instant)

theorem visible_get_user (context : Context) (userId : Uuid) (owns : context.Owns userId)
    (system : System) : (context.visible system).users.get? userId = system.users.get? userId := by
  apply Option.ext
  intro user
  rw [get_eq_some_iff, get_eq_some_iff]
  constructor
  · intro found
    exact ⟨(List.mem_filter.mp found.1).1, found.2⟩
  · intro found
    refine ⟨List.mem_filter.mpr ⟨found.1, decide_eq_true (Or.inl ?_)⟩, found.2⟩
    exact found.2.symm ▸ owns

/-- A route runs under the settings of the user its cookie stands for. -/
theorem authenticated_eq (route : AuthenticatedUser → Work Response) (system : System) :
    authenticated environment cookie now route system =
      match currentUser environment.credentials cookie now system with
      | .error failure => some (.error failure, system)
      | .ok user =>
          within (Open.under ⟨some user.userId, user.isAdmin⟩) Open.system (route user) system := by
  rw [current_user_eq]
  have session : readSession environment.credentials cookie now (Context.unset.visible system) =
      readSession environment.credentials cookie now system := rfl
  simp only [authenticated, committing, within, bind, TenantRequests.getCurrentUser, selects, reads,
    setCurrentUserId, Open.under, session, pure]
  cases readSession environment.credentials cookie now system with
  | error failure => rfl
  | ok userId =>
      have caller : selectCaller userId ((⟨some userId, false⟩ : Context).visible system) =
          selectCaller userId system := by
        unfold selectCaller
        rw [visible_get_user ⟨some userId, false⟩ userId rfl]
      simp only [Context.unset, caller]
      unfold selectCaller
      cases system.users.get? userId with
      | none => rfl
      | some user =>
          obtain ⟨id, username, passwordHash, isAdmin⟩ := user
          cases isAdmin <;> rfl

theorem current_user_session (system : System) (user : AuthenticatedUser)
    (found : currentUser environment.credentials cookie now system = .ok user) :
    readSession environment.credentials cookie now system = .ok user.userId := by
  rw [current_user_eq] at found
  cases session : readSession environment.credentials cookie now system with
  | error failure => simp [session] at found
  | ok userId =>
      simp only [session] at found
      cases caller : system.users.get? userId with
      | none => simp [caller] at found
      | some row =>
          simp only [caller, Except.ok.injEq] at found
          rw [← found]

/-- A route that only reads answers by what its user sees and leaves
everything as it is. -/
theorem select_route_eq (query : AuthenticatedUser → System → Except Failure Response)
    (system : System) :
    authenticated environment cookie now (fun user => selects (query user)) system =
      some (currentUser environment.credentials cookie now system >>= fun user =>
        query user (Context.visible ⟨some user.userId, user.isAdmin⟩ system), system) := by
  rw [authenticated_eq]
  cases currentUser environment.credentials cookie now system with
  | error failure => rfl
  | ok user =>
      simp only [within, selects, reads, Open.under, bind, Except.bind]
      cases query user (Context.visible ⟨some user.userId, user.isAdmin⟩ system) <;> rfl

end Authenticated

/-! ## Routes on two databases -/

theorem grounded_of_frame (context : Context) (before after : System)
    (users : after.users = before.users) (positions : after.positions = before.positions)
    (legs : after.ledger.legs = before.ledger.legs)
    (events : after.ledger.events = before.ledger.events) : Grounded context before after := by
  constructor
  · intro position member
    exact positions ▸ member
  · intro reference member
    refine ⟨reference, ?_, rfl⟩
    simpa only [TenantData.references, tenantData, legs, events] using member
  · intro user member
    exact Or.inr (users ▸ List.mem_map.mpr ⟨user, member, rfl⟩)

theorem data_key_grounded (keys : KeyService) (newId : Uuid) (dek wrapNonce : Bytes)
    (context : Context) (view : System) (value : Unit) (after : System)
    (provisioned : provisionDataKey keys newId dek wrapNonce view = .ok (value, after)) :
    Grounded context view after := by
  unfold provisionDataKey at provisioned
  split at provisioned <;> cases provisioned
  exact grounded_of_frame context view _ rfl rfl rfl rfl

theorem grant_grounded (keys : KeyService) (draw : UpsertDraw) (userId : Uuid)
    (exchangedToken : ExchangedToken) (accountHash : String) (context : Context) (view : System)
    (value : Unit) (after : System)
    (stored : storeGrant keys draw userId exchangedToken accountHash view = .ok (value, after)) :
    Grounded context view after ∧ TenantOnly view after := by
  unfold storeGrant at stored
  split at stored
  · cases stored
  · rename_i ledger upserted
    cases stored
    obtain ⟨found, _, written⟩ := bind_ok _ _ _ upserted
    cases written
    exact ⟨grounded_of_frame context view _ rfl rfl rfl rfl, rfl⟩

section Routes

variable (environment : Environment) (userId : Uuid)

theorem current_user_agree (cookie : Option String) (now : Instant) (left right : System)
    (agree : Agree userId left right) :
    currentUser environment.credentials cookie now left =
      currentUser environment.credentials cookie now right := by
  rw [agree_eq userId left right agree]
  rfl

/-- What a route does once its user is known decides what it does. -/
theorem tracks_authenticated (cookie : Option String) (now : Instant)
    (route : AuthenticatedUser → Work Response)
    (tracks : ∀ user, Tracks (fun left right => AgreeOpen userId left right ∧
      left.context.Owns user.userId) Whatever (fun _ => AgreeOpen userId) (route user)) :
    Tracks (Agree userId) (Agree userId) (fun _ => Agree userId)
      (authenticated environment cookie now route) := by
  intro left right agree
  rw [authenticated_eq, authenticated_eq,
    ← current_user_agree environment userId cookie now left right agree]
  cases currentUser environment.credentials cookie now left with
  | error failure => exact .raises failure left right agree
  | ok user =>
      apply tracks_within _ _ _ _ (tracks user)
      · intro value left right agreed
        exact agreed.system
      · exact agree
      · intro left right agree
        exact ⟨⟨rfl, agree⟩, rfl⟩

theorem tracks_done (before : Open → Open → Prop)
    (agrees : ∀ left right, before left right → AgreeOpen userId left right) :
    Tracks before Whatever (fun _ => AgreeOpen userId) (pure Response.done : Work Response) :=
  tracks_pure Response.done agrees

theorem tracks_enter_context (owner : Uuid) :
    Tracks (AgreeOpen userId) Whatever
      (fun _ left right => AgreeOpen userId left right ∧ left.context.Owns owner)
      (TenantRequests.enterContext owner) := by
  apply tracks_bind _ _ (tracks_set_current_user_id userId owner)
  intro _
  apply tracks_reads
  · intro left right agreed
    rw [agreed.1.context]
  · intro _ _ _
    trivial
  · intro left right value agreed _
    exact agreed

theorem logout_tracks (cookie : Option String) :
    Tracks (AgreeOpen userId) Whatever (fun _ => AgreeOpen userId)
      (TenantRequests.logout environment cookie) := by
  cases cookie with
  | none => exact tracks_raises _ fun _ _ _ => trivial
  | some rawToken =>
      apply tracks_bind _ _ (tracks_unpoliced userId _
        (session_deleted_aloof environment rawToken))
      intro _
      exact tracks_done userId _ fun _ _ agree => agree

theorem connect_tracks (rawState : String) (now : Instant) (user : AuthenticatedUser) :
    Tracks (AgreeOpen userId) Whatever (fun _ => AgreeOpen userId)
      (TenantRequests.connect environment rawState now user) := by
  apply tracks_bind _ _ (tracks_unpoliced userId _ (token_stored_aloof environment _ _ _ _))
  intro _
  exact tracks_done userId _ fun _ _ agree => agree

theorem reset_password_tracks (subjectId : Uuid) (rawToken : String) (now : Instant)
    (admin : AuthenticatedUser) :
    Tracks (AgreeOpen userId) Whatever (fun _ => AgreeOpen userId)
      (TenantRequests.resetPassword environment subjectId rawToken now admin) := by
  unfold TenantRequests.resetPassword
  split_ifs
  · apply tracks_bind _ _ (tracks_unpoliced userId _
      (answering_aloof 404 _ (audited_read_aloof admin.userId subjectId)))
    intro _
    apply tracks_bind _ _ (tracks_selects userId _ fun _ _ => rfl)
    intro target
    cases target with
    | none => exact tracks_raises _ fun _ _ _ => trivial
    | some target =>
        apply tracks_bind _ _ (tracks_unpoliced userId _
          (token_stored_aloof environment _ _ _ _))
        intro _
        exact tracks_done userId _ fun _ _ agree => agree
  · exact tracks_raises _ fun _ _ _ => trivial

/-- `DELETE /me` by whomever. -/
theorem delete_me_tracks (user : AuthenticatedUser) :
    Tracks (fun left right => AgreeOpen userId left right ∧ left.context.Owns user.userId) Whatever
      (fun _ => AgreeOpen userId) (TenantRequests.deleteMe user) := by
  have deletes : Tracks
      (fun left right => AgreeOpen userId left right ∧ left.context.Owns user.userId) Whatever
      (fun _ => AgreeOpen userId) (policed fun view =>
        (deleteAccount (fun _ => none) user.userId view).map (Prod.mk ())) := by
    rintro left right ⟨agree, owns⟩
    have sameGone := gone_visible left.context user.userId owns left.system right.system
      ⟨agree.system.users, agree.system.sessions, agree.system.setupTokens⟩
    apply policed_alike userId _ left right agree
    · simp only [delete_visible left.context user.userId owns, sameGone]
    · intro value after deleted
      simp only [delete_visible left.context user.userId owns, Except.map, Except.ok.injEq,
        Prod.mk.injEq] at deleted
      rw [← deleted.2]
      refine ⟨gone_grounded left.context user.userId owns left.system, ?_⟩
      rw [sameGone]
      exact gone_grounded left.context user.userId owns right.system
  apply tracks_bind _ _ deletes
  intro _
  exact tracks_done userId _ fun _ _ agree => agree

/-- Whose account was just created owns nothing in either database. -/
theorem tracks_inserted (user : User) (refused : Failure) :
    Tracks (AgreeOpen userId) Whatever
      (fun _ left right => AgreeOpen userId left right ∧ AgreeOpen user.id left right)
      (ofUser user.id refused fun system => answering 409 (insertUser user system)) := by
  have aloof := answering_aloof 409 _ (user_inserted_aloof user)
  intro left right agree
  by_cases present : left.system.users.Has user.id
  · have ends := tracks_of_user userId user.id refused _ aloof left right agree
    generalize ran : ofUser user.id refused _ left = leftEnd at ends ⊢
    generalize ofUser user.id refused _ right = rightEnd at ends ⊢
    cases ends with
    | hung => exact .hung
    | raises error left right related => exact .raises error left right related
    | returns value after _ related =>
        have answered := (of_user_ok _ left after user.id refused value ran).1
        have inserted := insert_user_ok user _ _ (answering_ok 409 _ _ answered)
        exact absurd present inserted.1
  · have absent : ¬right.system.users.Has user.id := agree.system.users ▸ present
    have agreeNew : AgreeOpen user.id left right :=
      ⟨agree.context, { agree.system with
        own := (own_rows_absent _ agree.system.soundLeft user.id present).trans
          (own_rows_absent _ agree.system.soundRight user.id absent).symm }⟩
    exact tracks_both userId user.id _ (fun each => tracks_of_user each user.id refused _ aloof) left
      right ⟨agree, agreeNew⟩

theorem create_user_tracks (username : String) (newId : Uuid) (rawToken : String)
    (dek wrapNonce : Bytes) (now : Instant) (user : AuthenticatedUser) :
    Tracks (AgreeOpen userId) Whatever (fun _ => AgreeOpen userId)
      (TenantRequests.createUser environment username newId rawToken dek wrapNonce now user) := by
  unfold TenantRequests.createUser
  split_ifs
  · apply tracks_bind _ _ (tracks_inserted userId ⟨newId, username, none, false⟩ _)
    intro _
    apply tracks_bind _ _ (tracks_both userId newId _ fun each => tracks_enter_context each newId)
    intro _
    have provisions := tracks_policed userId newId _
      (fun context view value after => data_key_grounded environment.keys newId dek wrapNonce context
        view value after)
    apply tracks_bind _ _ (tracks_imp _ provisions
      (fun _ _ both => ⟨both.1.1, both.2.1, both.1.2⟩) fun _ _ _ agree => agree)
    intro _
    apply tracks_bind _ _ (tracks_unpoliced userId _ (token_stored_aloof environment _ _ _ _))
    intro _
    exact tracks_done userId _ fun _ _ agree => agree
  · exact tracks_raises _ fun _ _ _ => trivial

theorem tracks_committing {Value : Type} (body : Work Value)
    (tracks : Tracks (AgreeOpen userId) Whatever (fun _ => AgreeOpen userId) body) :
    Tracks (Agree userId) (Agree userId) (fun _ => Agree userId) (committing body) := by
  apply tracks_within _ _ _ _ tracks
  · intro value left right agreed
    exact agreed.system
  · intro left right agree
    exact ⟨rfl, agree⟩

theorem consume_token_tracks (rawToken : String) (purpose : TokenPurpose) (now : Instant) :
    Tracks (Agree userId) (Agree userId) (fun _ => Agree userId)
      (TenantRequests.consumeToken environment rawToken purpose now) :=
  tracks_committing userId _
    (tracks_unpoliced userId _ (token_deleted_aloof environment rawToken purpose now))

theorem update_password_tracks (unmatched : Failure) (owner : Uuid) (passwordHash : String) :
    Tracks (AgreeOpen userId) Whatever (fun _ => AgreeOpen userId)
      (TenantRequests.updatePassword unmatched owner passwordHash) :=
  tracks_of_user userId owner unmatched _ (password_set_aloof unmatched owner passwordHash)

theorem setup_tracks (rawToken password : String) (salt : Bytes) (now : Instant) :
    Tracks (Agree userId) (Agree userId) (fun _ => Agree userId)
      (TenantRequests.setup environment rawToken password salt now) := by
  have consumes : Tracks (Agree userId) (Agree userId) (fun _ => Agree userId)
      (TenantRequests.consumeEither environment rawToken now) := by
    apply tracks_bind _ _ (consume_token_tracks environment userId rawToken .setup now)
    intro found
    cases found with
    | some owner => exact tracks_pure _ fun _ _ agree => agree
    | none => exact consume_token_tracks environment userId rawToken .passwordReset now
  apply tracks_bind _ _ consumes
  intro found
  cases found with
  | none => exact tracks_raises _ fun _ _ agree => agree
  | some owner =>
      apply tracks_committing
      apply tracks_bind _ _ (tracks_enter_context userId owner)
      intro _
      apply tracks_bind _ _ (tracks_imp _ (update_password_tracks userId setupUnmatched owner _)
        (fun _ _ agreed => agreed.1) fun _ _ _ agree => agree)
      intro _
      exact tracks_done userId _ fun _ _ agree => agree

theorem login_tracks (username password : String) (salt : Bytes) (rawToken : String)
    (now : Instant) :
    Tracks (Agree userId) (Agree userId) (fun _ => Agree userId)
      (TenantRequests.login environment username password salt rawToken now) := by
  apply tracks_committing
  apply tracks_bind _ _ (tracks_definer userId _
    (verified_user_blind environment username password))
  intro found
  apply tracks_bind _ _ (tracks_imp _ (tracks_set_current_user_id userId found.1)
    (fun _ _ agree => agree) fun _ _ _ agreed => agreed.1)
  intro _
  have stores : Tracks (AgreeOpen userId) Whatever (fun _ => AgreeOpen userId)
      (do
        unpoliced (TenantRequests.insertSession environment found.1 rawToken
          (now + sessionCookieTtl))
        pure Response.done) := by
    apply tracks_bind _ _ (tracks_unpoliced userId _ (session_stored_aloof environment _ _ _))
    intro _
    exact tracks_done userId _ fun _ _ agree => agree
  by_cases needed : environment.credentials.needsRehash found.2 = true
  · simp only [needed, if_true]
    apply tracks_bind _ _ (update_password_tracks userId loginUnmatched found.1 _)
    intro _
    exact stores
  · simp only [needed]
    exact stores

/-- What the callback of the user stores. -/
theorem grant_stored_tracks (exchange : Except Failure (ExchangedToken × List String))
    (draw : UpsertDraw) :
    Tracks (AgreeOpen userId) Whatever (fun _ => AgreeOpen userId)
      (TenantRequests.grantStored environment exchange draw userId) := by
  apply tracks_bind _ _ (tracks_enter_context userId userId)
  intro _
  have exchanges : Tracks (fun left right => AgreeOpen userId left right ∧ left.context.Owns userId)
      Whatever (fun _ left right => AgreeOpen userId left right ∧ left.context.Owns userId)
      (reads fun _ => exchange) := by
    apply tracks_reads
    · intro _ _ _
      rfl
    · intro _ _ _
      trivial
    · intro left right value agreed _
      exact agreed
  apply tracks_bind _ _ exchanges
  rintro ⟨exchangedToken, accounts⟩
  rcases accounts with - | ⟨accountHash, - | ⟨another, rest⟩⟩
  · exact tracks_raises _ fun _ _ _ => trivial
  · have stores := tracks_policed userId userId _ (fun context view value after ran =>
      (grant_grounded environment.keys draw userId exchangedToken accountHash context view value
        after ran).1)
    apply tracks_bind _ _ (tracks_imp _ stores
      (fun _ _ agreed => ⟨agreed.1, agreed.1, agreed.2⟩) fun _ _ _ agree => agree)
    intro _
    exact tracks_done userId _ fun _ _ agree => agree
  · exact tracks_raises _ fun _ _ _ => trivial

end Routes

end Morai.Api.TenantIsolation
