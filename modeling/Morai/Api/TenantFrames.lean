import Morai.Api.TenantIsolation

/-!
# Steps of other tenants

A step is of the user it acts for. Whatever the sessions of others do, the rows
of a user stay as they are.
-/

namespace Morai.Api.TenantFrames

open Morai.Crypto Morai.Db Morai.Python Morai.Foundation.PrimaryKey Morai.Foundation.Attempts
open Morai.Foundation.TwoRuns Morai.Identity.Tables Morai.Identity.Deletion
open Morai.Identity.Requests Morai.Identity.ConcurrentRequests Morai.Identity.RowSecurity
open Morai.Identity.TenantSessions Morai.Identity.TenantDeletion Morai.Vendor.Connections
open Morai.Ingest.SyncUser Morai.Worker.SyncUserTask Morai.Ledger.Pairing Morai.Ledger.SyncEvents
open Morai.Api.TenantRequests Morai.Api.TenantIsolation

set_option autoImplicit false

/-! ## What the jobs write -/

section Jobs

variable (environment : Environment) (userId : Uuid)

theorem task_ended_ledger (call : TaskCall) (vendor : Option JsonValue → VendorRun)
    (draws : SyncDraws) (view after : System) (ended : Except Raised Unit)
    (ran : taskEnded environment userId call vendor draws view = some (.ok (ended, after))) :
    ∃ ledger, after = { view with ledger := ledger } ∧ ledger.legs = view.ledger.legs ∧
      ledger.events = view.ledger.events := by
  unfold taskEnded syncUserTask at ran
  split at ran
  · cases ran
  · rename_i ended ledger task
    cases ran
    refine ⟨ledger, rfl, ?_⟩
    split at task
    · cases task
    · cases task
      exact ⟨rfl, rfl⟩
    · rename_i outcome written synced
      cases task
      rw [stamp_synced_frame, sync_user_frame _ _ _ _ _ _ _ _ written outcome synced]
      exact ⟨rfl, rfl⟩

theorem task_grounded (call : TaskCall) (vendor : Option JsonValue → VendorRun)
    (draws : SyncDraws) (context : Context) (view after : System) (ended : Except Raised Unit)
    (ran : taskEnded environment userId call vendor draws view = some (.ok (ended, after))) :
    Grounded context view after ∧ TenantOnly view after := by
  obtain ⟨ledger, shape, legs, events⟩ := task_ended_ledger environment userId call vendor draws
    view after ended ran
  rw [shape]
  exact ⟨grounded_of_frame context view _ rfl rfl legs events, rfl⟩

theorem events_grounded (call : SyncCall) (context : Context) (view after : System)
    (derivation : Derivation)
    (ran : eventsSynced environment userId call view = .ok (derivation, after)) :
    Grounded context view after ∧ TenantOnly view after := by
  unfold eventsSynced at ran
  split at ran
  · cases ran
  · rename_i derived session synced
    cases ran
    have known := sync_events_positions environment.keys environment.sha256 call userId view.ledger
      _ session synced
    refine ⟨⟨fun position member => member, ?_, ?_⟩, rfl⟩
    · intro reference member
      simp only [TenantData.references, tenantData, List.mem_append, List.mem_map] at member ⊢
      rcases member with ⟨leg, member, same⟩ | ⟨row, member, same⟩
      · exact ⟨reference, Or.inl ⟨leg, member, same⟩, rfl⟩
      · cases known row (List.mem_append.mpr member) with
        | inl old => exact ⟨reference, Or.inr ⟨row, old, same⟩, rfl⟩
        | inr hung =>
            obtain ⟨leg, member, _, position⟩ := hung
            refine ⟨(leg.userId, leg.positionId), Or.inl ⟨leg, member, rfl⟩, ?_⟩
            rw [← same, position]
    · intro user member
      exact Or.inr (List.mem_map.mpr ⟨user, member, rfl⟩)

end Jobs

/-! ## What the statements of others leave -/

section Foreign

variable (userId : Uuid) (invariant : System → Prop)

/-- The session is not the user's. -/
structure Foreign (session : Open) : Prop where
  foreign : ¬session.context.Owns userId
  system : invariant session.system

theorem keeps_set_current_user_id (owner : Uuid) (other : owner ≠ userId) :
    Keeps (Foreign userId invariant) (setCurrentUserId owner) := by
  intro session outcome after holds ran
  cases ran
  refine ⟨?_, holds.system⟩
  intro owns
  exact other (Option.some.inj owns)

theorem keeps_enter_context (owner : Uuid) (other : owner ≠ userId) :
    Keeps (Foreign userId invariant) (TenantRequests.enterContext owner) := by
  apply keeps_bind _ _ _ (keeps_set_current_user_id userId invariant owner other)
  intro _
  exact keeps_reads _ _

theorem keeps_within (context : Context) (foreign : ¬context.Owns userId) {Value : Type}
    (body : Work Value) (keeps : Keeps (Foreign userId invariant) body) :
    Keeps invariant (within (Open.under context) Open.system body) := by
  intro system outcome after holds ran
  cases within_returned _ _ body system outcome after ran with
  | inl same => exact same ▸ holds
  | inr returned =>
      obtain ⟨value, inner, ended, shape⟩ := returned
      rw [shape]
      exact (keeps _ _ inner ⟨foreign, holds⟩ ended).system

theorem keeps_committing {Value : Type} (body : Work Value)
    (keeps : Keeps (Foreign userId invariant) body) : Keeps invariant (committing body) :=
  keeps_within userId invariant .unset (fun owns => Option.some_ne_none userId owns.symm) body keeps

end Foreign

section Asides

variable (userId : Uuid) (before : System)

theorem aside_refl (sound : Sound before) : Aside userId before before :=
  ⟨rfl, rfl, rfl, rfl, rfl, sound⟩

theorem aside_trans (middle after : System) (first : Aside userId before middle)
    (second : Aside userId middle after) : Aside userId before after where
  users := second.users.trans first.users
  sessions := second.sessions.trans first.sessions
  setupTokens := second.setupTokens.trans first.setupTokens
  auditLog := second.auditLog.trans first.auditLog
  own := second.own.trans first.own
  sound := second.sound

theorem policed_job_aside {Value : Type}
    (change : System → Option (Except Failure (Value × System)))
    (grounded : ∀ context view value after, change view = some (.ok (value, after)) →
      Grounded context view after ∧ TenantOnly view after) :
    Keeps (Foreign userId (Aside userId before)) (policedJob change) := by
  intro session outcome after holds ran
  unfold policedJob at ran
  split at ran
  · cases ran
  · rename_i ended performed
    have whole (value changed) (ok : ended = .ok (value, changed)) :=
      grounded session.context _ value changed (performed.trans (congrArg some ok))
    have aside := policed_aside (fun _ => ended) session after outcome holds.system.sound
      (fun value changed ok => (whole value changed ok).1)
      (fun value changed ok => (whole value changed ok).2) ran userId holds.foreign
    refine ⟨?_, aside_trans userId before _ _ holds.system aside⟩
    cases policed_cases _ session after outcome ran with
    | inl same => exact same ▸ holds.foreign
    | inr wrote =>
        obtain ⟨_, _, _, _, context⟩ := wrote
        exact context ▸ holds.foreign

theorem policed_keeps_aside {Value : Type} (change : System → Except Failure (Value × System))
    (grounded : ∀ context view value after, change view = .ok (value, after) →
      Grounded context view after ∧ TenantOnly view after) :
    Keeps (Foreign userId (Aside userId before)) (policed change) :=
  policed_job_aside userId before (fun view => some (change view))
    fun context view value after ran => grounded context view value after (Option.some.inj ran)

variable (environment : Environment) (owner : Uuid) (other : owner ≠ userId)

include other in
theorem grant_stored_aside (exchange : Except Failure (ExchangedToken × List String))
    (draw : UpsertDraw) : Keeps (Aside userId before)
      (committing (TenantRequests.grantStored environment exchange draw owner)) := by
  apply keeps_committing
  apply keeps_bind _ _ _ (keeps_enter_context userId _ owner other)
  intro _
  refine keeps_bind _ _ _ (keeps_reads _ _) ?_
  rintro ⟨exchangedToken, accounts⟩
  rcases accounts with - | ⟨accountHash, - | ⟨another, rest⟩⟩
  · exact keeps_raises _ _
  · apply keeps_bind _ _ _ (policed_keeps_aside userId before _ fun context view value after ran =>
      grant_grounded environment.keys draw owner exchangedToken accountHash context view value after
        ran)
    intro _
    exact keeps_pure _ _
  · exact keeps_raises _ _

include other in
theorem sync_user_aside (call : TaskCall) (vendor : Option JsonValue → VendorRun)
    (draws : SyncDraws) :
    Keeps (Aside userId before) (syncUserJob environment owner call vendor draws) := by
  have body : Keeps (Foreign userId (Aside userId before)) (do
      setCurrentUserId owner
      policedJob (taskEnded environment owner call vendor draws)) := by
    apply keeps_bind _ _ _ (keeps_set_current_user_id userId _ owner other)
    intro _
    exact policed_job_aside userId before _ fun context view ended after ran =>
      task_grounded environment owner call vendor draws context view after ended ran
  apply keeps_bind _ _ _ (keeps_committing userId _ _ body)
  intro ended
  cases ended with
  | error raised => exact keeps_raises _ _
  | ok _ => exact keeps_pure _ _

include other in
theorem sync_events_aside (call : SyncCall) :
    Keeps (Aside userId before) (syncEventsJob environment owner call) := by
  apply keeps_committing
  apply keeps_bind _ _ _ (keeps_set_current_user_id userId _ owner other)
  intro _
  apply keeps_bind _ _ _ (policed_keeps_aside userId before _ fun context view derivation after ran =>
    events_grounded environment owner call context view after derivation ran)
  intro derivation
  exact keeps_pure _ _

end Asides

section Others

variable (environment : Environment) (userId : Uuid) (data : TenantData)

/-- The user is there and owns this. -/
structure Holds (system : System) : Prop where
  has : system.users.Has userId
  own : ownRows userId system = data
  sound : Sound system

theorem holds_aside (before after : System) (holds : Holds userId data before)
    (aside : Aside userId before after) : Holds userId data after where
  has := aside.users ▸ holds.has
  own := aside.own.trans holds.own
  sound := aside.sound

abbrev HoldsOpen := Foreign userId (Holds userId data)

theorem keeps_unpoliced {Value : Type} (change : System → Except Failure (Value × System))
    (aloof : Aloof change) : Keeps (HoldsOpen userId data) (unpoliced change) := by
  intro session outcome after holds ran
  cases outcome with
  | error failure =>
      unfold unpoliced writes at ran
      split at ran
      · cases ran
        exact holds
      · cases ran
  | ok value =>
      obtain ⟨changed, context⟩ := unpoliced_ok change session after value ran
      have data := aloof_data change aloof _ _ value changed
      have users := aloof.keepsUsers _ value _ changed
      refine ⟨context ▸ holds.foreign, users userId holds.system.has, ?_,
        sound_of_data _ _ holds.system.sound data users⟩
      unfold ownRows
      rw [data]
      exact holds.system.own

theorem keeps_of_user {Value : Type} (owner : Uuid) (refused : Failure)
    (change : System → Except Failure (Value × System)) (aloof : Aloof change) :
    Keeps (HoldsOpen userId data) (ofUser owner refused change) := by
  intro session outcome after holds ran
  unfold ofUser at ran
  split_ifs at ran
  · exact keeps_unpoliced userId data change aloof session outcome after holds ran
  · cases ran
    exact holds

theorem policed_holds {Value : Type} (change : System → Except Failure (Value × System))
    (session after : Open) (outcome : Except Failure Value) (holds : HoldsOpen userId data session)
    (grounded : ∀ value changed,
      change (session.context.visible session.system) = .ok (value, changed) →
        Grounded session.context (session.context.visible session.system) changed)
    (ran : policed change session = some (outcome, after)) : HoldsOpen userId data after := by
  have own := policed_own_rows change session after outcome ran userId holds.foreign
  have sound := policed_sound change session after outcome holds.system.sound grounded ran
  cases policed_cases change session after outcome ran with
  | inl same => exact same ▸ holds
  | inr wrote =>
      obtain ⟨value, changed, ok, checked, context⟩ := wrote
      have put := (enforced_ok session.context session.system changed after.system checked).1
      refine ⟨context ▸ holds.foreign, ?_, own.trans holds.system.own, sound⟩
      obtain ⟨user, stored, same⟩ := List.mem_map.mp holds.system.has
      rw [put.users]
      refine List.mem_map.mpr ⟨user, List.mem_filter.mpr ⟨stored, ?_⟩, same⟩
      apply decide_eq_true
      intro sees
      have seen : user ∈ (session.context.visible session.system).users.rows :=
        List.mem_filter.mpr ⟨stored, decide_eq_true sees⟩
      cases (grounded value changed ok).users user seen with
      | inl owns => exact absurd (same ▸ owns) holds.foreign
      | inr has => exact has

/-- A request that is not this user's ends with nothing done, or runs its route
as somebody else. -/
theorem authenticated_as_other (cookie : Option String) (now : Instant)
    (route : AuthenticatedUser → Work Response) (system after : System)
    (outcome : Except Failure Response)
    (other : readSession environment.credentials cookie now system ≠ .ok userId)
    (ran : authenticated environment cookie now route system = some (outcome, after)) :
    after = system ∨ ∃ user, user.userId ≠ userId ∧
      within (Open.under ⟨some user.userId, user.isAdmin⟩) Open.system (route user) system =
        some (outcome, after) := by
  rw [authenticated_eq] at ran
  cases found : currentUser environment.credentials cookie now system with
  | error failure =>
      simp only [found] at ran
      cases ran
      exact Or.inl rfl
  | ok user =>
      simp only [found] at ran
      have session := current_user_session environment cookie now system user found
      refine Or.inr ⟨user, ?_, ran⟩
      intro same
      exact other (same ▸ session)

/-- A route of another user. -/
theorem keeps_authenticated (cookie : Option String) (now : Instant)
    (route : AuthenticatedUser → Work Response) (system after : System)
    (outcome : Except Failure Response) (holds : Holds userId data system)
    (other : readSession environment.credentials cookie now system ≠ .ok userId)
    (keeps : ∀ user, user.userId ≠ userId → Keeps (HoldsOpen userId data) (route user))
    (ran : authenticated environment cookie now route system = some (outcome, after)) :
    Holds userId data after := by
  cases authenticated_as_other environment userId cookie now route system after outcome other
    ran with
  | inl same => exact same ▸ holds
  | inr routed =>
      obtain ⟨user, apart, inside⟩ := routed
      refine keeps_within userId _ _ ?_ _ (keeps user apart) system outcome after holds inside
      intro owns
      exact apart (Option.some.inj owns)

end Others

/-! ## The routes of others -/

section OtherRoutes

variable (environment : Environment) (userId : Uuid) (data : TenantData)

theorem keeps_done : Keeps (HoldsOpen userId data) (pure Response.done : Work Response) :=
  keeps_pure _ _

theorem keeps_logout (cookie : Option String) :
    Keeps (HoldsOpen userId data) (TenantRequests.logout environment cookie) := by
  cases cookie with
  | none => exact keeps_raises _ _
  | some rawToken =>
      apply keeps_bind _ _ _ (keeps_unpoliced userId data _
        (session_deleted_aloof environment rawToken))
      intro _
      exact keeps_done userId data

theorem keeps_connect (rawState : String) (now : Instant) (user : AuthenticatedUser) :
    Keeps (HoldsOpen userId data) (TenantRequests.connect environment rawState now user) := by
  apply keeps_bind _ _ _ (keeps_unpoliced userId data _ (token_stored_aloof environment _ _ _ _))
  intro _
  exact keeps_done userId data

theorem keeps_reset_password (subjectId : Uuid) (rawToken : String) (now : Instant)
    (admin : AuthenticatedUser) : Keeps (HoldsOpen userId data)
      (TenantRequests.resetPassword environment subjectId rawToken now admin) := by
  unfold TenantRequests.resetPassword
  split_ifs
  · apply keeps_bind _ _ _ (keeps_unpoliced userId data _
      (answering_aloof 404 _ (audited_read_aloof admin.userId subjectId)))
    intro _
    refine keeps_bind _ _ _ (keeps_reads _ _) ?_
    intro target
    cases target with
    | none => exact keeps_raises _ _
    | some target =>
        apply keeps_bind _ _ _ (keeps_unpoliced userId data _
          (token_stored_aloof environment _ _ _ _))
        intro _
        exact keeps_done userId data
  · exact keeps_raises _ _

theorem keeps_delete_me (user : AuthenticatedUser) (system after : System)
    (outcome : Except Failure Response) (holds : Holds userId data system)
    (other : user.userId ≠ userId)
    (ran : within (Open.under ⟨some user.userId, user.isAdmin⟩) Open.system
      (TenantRequests.deleteMe user) system = some (outcome, after)) : Holds userId data after := by
  cases within_returned _ _ _ system outcome after ran with
  | inl same => exact same ▸ holds
  | inr returned =>
      obtain ⟨value, inner, ended, shape⟩ := returned
      obtain ⟨_, middle, deleted, done⟩ := bind_eq_some _ _ _ value inner ended
      cases done
      rw [shape]
      have owns : (⟨some user.userId, user.isAdmin⟩ : Context).Owns user.userId := rfl
      have foreign : ¬(⟨some user.userId, user.isAdmin⟩ : Context).Owns userId :=
        fun owned => other (owns_same _ _ _ owns owned)
      refine (policed_holds userId data _ _ _ _ ⟨foreign, holds⟩ ?_ deleted).system
      intro _ changed ok
      have left := delete_visible _ user.userId owns system
      simp only [Open.under, left, Except.map, Except.ok.injEq, Prod.mk.injEq] at ok
      rw [← ok.2]
      exact gone_grounded _ user.userId owns system

/-- Who is there already is not the user being created. -/
theorem keeps_create_user (username : String) (newId : Uuid) (rawToken : String)
    (dek wrapNonce : Bytes) (now : Instant) (user : AuthenticatedUser) :
    Keeps (HoldsOpen userId data)
      (TenantRequests.createUser environment username newId rawToken dek wrapNonce now user) := by
  have aloof := answering_aloof 409 _ (user_inserted_aloof ⟨newId, username, none, false⟩)
  unfold TenantRequests.createUser
  split_ifs
  · apply keeps_bind_returned _ _ _ (keeps_of_user userId data newId _ _ aloof)
    intro value session middle holds ran
    have answered := (of_user_ok _ session middle newId _ value ran).1
    have inserted := insert_user_ok _ _ _ (answering_ok 409 _ _ answered)
    have other : newId ≠ userId := by
      intro same
      exact inserted.1 (same.symm ▸ holds.system.has)
    apply keeps_bind _ _ _ (keeps_enter_context userId _ newId other)
    intro _
    have provisions : Keeps (HoldsOpen userId data)
        (policed (provisionDataKey environment.keys newId dek wrapNonce)) := by
      intro session outcome after holds ran
      exact policed_holds userId data _ session after outcome holds (fun value changed =>
        data_key_grounded environment.keys newId dek wrapNonce _ _ value changed) ran
    apply keeps_bind _ _ _ provisions
    intro _
    apply keeps_bind _ _ _ (keeps_unpoliced userId data _ (token_stored_aloof environment _ _ _ _))
    intro _
    exact keeps_done userId data
  · exact keeps_raises _ _

theorem keeps_update_password (unmatched : Failure) (owner : Uuid) (passwordHash : String) :
    Keeps (HoldsOpen userId data)
      (TenantRequests.updatePassword unmatched owner passwordHash) :=
  keeps_of_user userId data owner unmatched _ (password_set_aloof unmatched owner passwordHash)

theorem keeps_consume_token (rawToken : String) (purpose : TokenPurpose) (now : Instant) :
    Keeps (Holds userId data) (TenantRequests.consumeToken environment rawToken purpose now) :=
  keeps_committing userId _ _
    (keeps_unpoliced userId data _ (token_deleted_aloof environment rawToken purpose now))

/-! The tokens and the password say whose request it is. -/

variable (now : Instant) (system after : System) (outcome : Except Failure Response)

theorem consume_token_eq (rawToken : String) (purpose : TokenPurpose) :
    TenantRequests.consumeToken environment rawToken purpose now system =
      some (.ok ((matchingToken environment.credentials rawToken purpose now system).map
          SetupToken.userId),
        match matchingToken environment.credentials rawToken purpose now system with
        | none => system
        | some row => { system with
            setupTokens := system.setupTokens.filter fun stored =>
              stored.tokenHash ≠ row.tokenHash }) := by
  simp only [TenantRequests.consumeToken, committing, within, unpoliced, writes, Open.under,
    deleteToken]
  cases matchingToken environment.credentials rawToken purpose now system <;> rfl

theorem consume_either_eq (rawToken : String) :
    ∃ consumed, TenantRequests.consumeEither environment rawToken now system =
      some (.ok (((matchingToken environment.credentials rawToken .setup now system).or
        (matchingToken environment.credentials rawToken .passwordReset now system)).map
          SetupToken.userId), consumed) := by
  have first := consume_token_eq environment now system rawToken .setup
  unfold TenantRequests.consumeEither
  rw [bind_returned _ _ _ _ _ first]
  cases matchingToken environment.credentials rawToken .setup now system with
  | none => exact ⟨_, consume_token_eq environment now system rawToken .passwordReset⟩
  | some row => exact ⟨_, rfl⟩

/-- What `consume_token` leaves. -/
def consumed (row : SetupToken) : System :=
  { system with
    setupTokens := system.setupTokens.filter fun stored => stored.tokenHash ≠ row.tokenHash }

theorem callback_refused (rawState : String)
    (exchange : Except Failure (ExchangedToken × List String)) (draw : UpsertDraw)
    (unmatched : matchingToken environment.credentials rawState .oauthState now system = none) :
    TenantRequests.callback environment rawState exchange draw now system =
      some (.error (.httpException 400), system) := by
  have consumes := consume_token_eq environment now system rawState .oauthState
  rw [TenantRequests.callback, bind_returned _ _ _ _ _ consumes, unmatched]
  rfl

theorem callback_consumed (rawState : String)
    (exchange : Except Failure (ExchangedToken × List String)) (draw : UpsertDraw)
    (row : SetupToken)
    (matched : matchingToken environment.credentials rawState .oauthState now system = some row) :
    TenantRequests.callback environment rawState exchange draw now system =
      committing (TenantRequests.grantStored environment exchange draw row.userId)
        (consumed system row) := by
  have consumes := consume_token_eq environment now system rawState .oauthState
  rw [TenantRequests.callback, bind_returned _ _ _ _ _ consumes, matched]
  rfl

theorem callback_holds (rawState : String)
    (exchange : Except Failure (ExchangedToken × List String)) (draw : UpsertDraw)
    (holds : Holds userId data system)
    (other : (matchingToken environment.credentials rawState .oauthState now system).map
      SetupToken.userId ≠ some userId)
    (ran : TenantRequests.callback environment rawState exchange draw now system =
      some (outcome, after)) : Holds userId data after := by
  cases found : matchingToken environment.credentials rawState .oauthState now system with
  | none =>
      rw [callback_refused environment now system rawState exchange draw found] at ran
      cases ran
      exact holds
  | some row =>
      rw [callback_consumed environment now system rawState exchange draw row found] at ran
      have apart : row.userId ≠ userId := by
        intro same
        exact other (by rw [found, ← same]; rfl)
      have held : Holds userId data (consumed system row) :=
        ⟨holds.has, holds.own, holds.sound.owners, holds.sound.references⟩
      exact holds_aside userId data _ after held (grant_stored_aside userId _ environment row.userId
        apart exchange draw _ outcome after (aside_refl userId _ held.sound) ran)

theorem setup_holds (rawToken password : String) (salt : Bytes) (holds : Holds userId data system)
    (other : ((matchingToken environment.credentials rawToken .setup now system).or
        (matchingToken environment.credentials rawToken .passwordReset now system)).map
          SetupToken.userId ≠ some userId)
    (ran : TenantRequests.setup environment rawToken password salt now system =
      some (outcome, after)) : Holds userId data after := by
  have keeps : Keeps (Holds userId data)
      (TenantRequests.consumeEither environment rawToken now) := by
    apply keeps_bind _ _ _ (keeps_consume_token environment userId data rawToken .setup now)
    intro found
    cases found with
    | some owner => exact keeps_pure _ _
    | none => exact keeps_consume_token environment userId data rawToken .passwordReset now
  obtain ⟨consumed, consumes⟩ := consume_either_eq environment now system rawToken
  have held := keeps system _ _ holds consumes
  rw [TenantRequests.setup, bind_returned _ _ _ _ _ consumes] at ran
  cases found : ((matchingToken environment.credentials rawToken .setup now system).or
      (matchingToken environment.credentials rawToken .passwordReset now system)).map
        SetupToken.userId with
  | none =>
      simp only [found] at ran
      cases ran
      exact held
  | some owner =>
      simp only [found] at ran
      have apart : owner ≠ userId := by
        intro same
        exact other (by rw [found, same])
      refine keeps_committing userId _ _ ?_ consumed outcome after held ran
      apply keeps_bind _ _ _ (keeps_enter_context userId _ owner apart)
      intro _
      apply keeps_bind _ _ _ (keeps_update_password userId data setupUnmatched owner _)
      intro _
      exact keeps_done userId data

theorem login_holds (username password : String) (salt : Bytes) (rawToken : String)
    (holds : Holds userId data system)
    (other : (verifiedUser environment.credentials username password system).toOption.map
      Prod.fst ≠ some userId)
    (ran : TenantRequests.login environment username password salt rawToken now system =
      some (outcome, after)) : Holds userId data after := by
  cases verified : verifiedUser environment.credentials username password system with
  | error failure =>
      simp only [TenantRequests.login, committing, within, bind, definer, reads, Open.under,
        verified] at ran
      cases ran
      exact holds
  | ok found =>
      have apart : found.1 ≠ userId := by
        intro same
        exact other (by rw [verified, ← same]; rfl)
      have stores : Keeps (HoldsOpen userId data) (do
          unpoliced (TenantRequests.insertSession environment found.1 rawToken
            (now + sessionCookieTtl))
          pure Response.done) := by
        apply keeps_bind _ _ _ (keeps_unpoliced userId data _
          (session_stored_aloof environment _ _ _))
        intro _
        exact keeps_done userId data
      have rest : Keeps (HoldsOpen userId data) (do
          setCurrentUserId found.1
          if environment.credentials.needsRehash found.2 then
            TenantRequests.updatePassword loginUnmatched found.1
              (environment.credentials.hashPassword password salt)
          else pure ()
          unpoliced (TenantRequests.insertSession environment found.1 rawToken
            (now + sessionCookieTtl))
          pure Response.done) := by
        apply keeps_bind _ _ _ (keeps_set_current_user_id userId _ found.1 apart)
        intro _
        by_cases needed : environment.credentials.needsRehash found.2 = true
        · simp only [needed, if_true]
          apply keeps_bind _ _ _ (keeps_update_password userId data loginUnmatched found.1 _)
          intro _
          exact stores
        · simp only [needed]
          exact stores
      refine keeps_committing userId _ _ rest system outcome after holds ?_
      rw [← ran]
      simp only [TenantRequests.login, committing, within]
      rw [bind_returned (definer _) _ (Open.under .unset system) (Open.under .unset system) found
        (by simp only [definer, reads, Open.under, verified])]

end OtherRoutes

/-! ## The steps of others -/

section OtherSteps

variable (environment : Environment) (userId : Uuid) (data : TenantData)

variable (system : System) (holds : Holds userId data system)

include holds in
theorem serve_holds (request : TenantRequests.Request) (after : System) (outcome : Except Failure Response)
    (other : requester environment system request ≠ some userId)
    (ran : TenantRequests.serve environment request system = some (outcome, after)) : Holds userId data after := by
  have stranger (cookie : Option String) (now : Instant)
      (apart : (readSession environment.credentials cookie now system).toOption ≠ some userId) :
      readSession environment.credentials cookie now system ≠ .ok userId := by
    intro session
    exact apart (by rw [session]; rfl)
  have selecting (query : AuthenticatedUser → System → Except Failure Response) :
      ∀ user : AuthenticatedUser, user.userId ≠ userId →
        Keeps (HoldsOpen userId data) (selects (query user)) :=
    fun user _ => keeps_reads _ _
  cases request with
  | createUser cookie username newId rawToken dek wrapNonce now =>
      exact keeps_authenticated environment userId data cookie now _ system after outcome holds
        (stranger cookie now other) (fun user _ => keeps_create_user environment userId data username
          newId rawToken dek wrapNonce now user) ran
  | resetPassword cookie subjectId rawToken now =>
      exact keeps_authenticated environment userId data cookie now _ system after outcome holds
        (stranger cookie now other) (fun user _ => keeps_reset_password environment userId data
          subjectId rawToken now user) ran
  | setup rawToken password salt now =>
      exact setup_holds environment userId data now system after outcome rawToken password salt holds
        other ran
  | login username password salt rawToken now =>
      exact login_holds environment userId data now system after outcome username password salt
        rawToken holds other ran
  | logout cookie now =>
      exact keeps_authenticated environment userId data cookie now _ system after outcome holds
        (stranger cookie now other) (fun _ _ => keeps_logout environment userId data cookie) ran
  | me cookie now =>
      exact keeps_authenticated environment userId data cookie now _ system after outcome holds
        (stranger cookie now other) (selecting _) ran
  | deleteMe cookie now =>
      cases authenticated_as_other environment userId cookie now TenantRequests.deleteMe system
        after outcome (stranger cookie now other) ran with
      | inl same => exact same ▸ holds
      | inr routed =>
          obtain ⟨user, apart, inside⟩ := routed
          exact keeps_delete_me userId data user system after outcome holds apart inside
  | listPositions cookie order now =>
      exact keeps_authenticated environment userId data cookie now _ system after outcome holds
        (stranger cookie now other) (selecting _) ran
  | getPosition cookie positionId now =>
      exact keeps_authenticated environment userId data cookie now _ system after outcome holds
        (stranger cookie now other) (selecting _) ran
  | connect cookie rawState now =>
      exact keeps_authenticated environment userId data cookie now _ system after outcome holds
        (stranger cookie now other) (fun user _ => keeps_connect environment userId data rawState now
          user) ran
  | callback rawState exchange draw now =>
      exact callback_holds environment userId data now system after outcome rawState exchange draw
        holds other ran
  | connection cookie now readAt =>
      exact keeps_authenticated environment userId data cookie now _ system after outcome holds
        (stranger cookie now other) (selecting _) ran
  | sync cookie order now readAt =>
      exact keeps_authenticated environment userId data cookie now _ system after outcome holds
        (stranger cookie now other) (selecting _) ran
  | syncRuns cookie order now =>
      exact keeps_authenticated environment userId data cookie now _ system after outcome holds
        (stranger cookie now other) (selecting _) ran

include holds in
/-- Nobody else's step changes what the user owns. -/
theorem perform_holds (step : Step) (other : actor environment system step ≠ some userId) :
    Holds userId data (TenantRequests.perform environment step system).2 := by
  unfold TenantRequests.perform
  cases ran : program environment step system with
  | none => exact holds
  | some ended =>
      obtain ⟨outcome, after⟩ := ended
      cases step with
      | request request =>
          exact serve_holds environment userId data system holds request after outcome other ran
      | syncUser owner call vendor draws =>
          exact holds_aside userId data system after holds (sync_user_aside userId system environment
            owner (fun same => other (congrArg some same)) call vendor draws system outcome after
            (aside_refl userId system holds.sound) ran)
      | syncEvents owner call =>
          exact holds_aside userId data system after holds (sync_events_aside userId system
            environment owner (fun same => other (congrArg some same)) call system outcome after
            (aside_refl userId system holds.sound) ran)

end OtherSteps

end Morai.Api.TenantFrames
