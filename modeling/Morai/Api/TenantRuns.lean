import Morai.Api.TenantFrames
import Morai.Identity.DataKeys

/-!
# Runs of many tenants

Steps of a user answer the same in two databases that differ in what others
own, and so do any steps one after the other.
-/

namespace Morai.Api.TenantRuns

open Morai.Crypto Morai.Db Morai.Python Morai.Foundation.PrimaryKey Morai.Foundation.Attempts
open Morai.Foundation.TwoRuns Morai.Identity.Tables Morai.Identity.Deletion
open Morai.Identity.Requests Morai.Identity.ConcurrentRequests Morai.Identity.DataKeys Morai.Identity.RowSecurity
open Morai.Identity.TenantSessions Morai.Identity.TenantDeletion Morai.Vendor.Connections
open Morai.Ingest.SyncUser Morai.Worker.SyncUserTask Morai.Ledger.Pairing Morai.Ledger.SyncEvents
open Morai.Api.TenantRequests Morai.Api.TenantIsolation Morai.Api.TenantFrames

set_option autoImplicit false

/-! ## One step in two databases -/

section TwoDatabases

variable (environment : Environment) (userId : Uuid) (left right : System)

/-- The step leaves two databases that still agree, and answers the same if it
is the user's. -/
structure StepAgrees (step : Step) : Prop where
  agree : Agree userId (TenantRequests.perform environment step left).2
    (TenantRequests.perform environment step right).2
  answer : actor environment left step = some userId →
    (TenantRequests.perform environment step left).1 =
      (TenantRequests.perform environment step right).1

variable (agree : Agree userId left right)

include agree in
theorem alike_step (step : Step)
    (ends : Alike (Agree userId) (fun _ => Agree userId) (program environment step left)
      (program environment step right)) : StepAgrees environment userId left right step := by
  have both : Agree userId (TenantRequests.perform environment step left).2
      (TenantRequests.perform environment step right).2 ∧
      (TenantRequests.perform environment step left).1 =
        (TenantRequests.perform environment step right).1 := by
    unfold TenantRequests.perform
    generalize program environment step left = leftEnd at ends ⊢
    generalize program environment step right = rightEnd at ends ⊢
    cases ends with
    | hung => exact ⟨agree, rfl⟩
    | raises error left right related => exact ⟨related, rfl⟩
    | returns value left right related => exact ⟨related, rfl⟩
  exact ⟨both.1, fun _ => both.2⟩

include agree in
/-- A job of another user. -/
theorem aside_step (step : Step) (other : actor environment left step ≠ some userId)
    (aside : ∀ before, Keeps (Aside userId before) (program environment step)) :
    StepAgrees environment userId left right step := by
  have stays (system : System) (sound : Sound system) :
      Aside userId system (TenantRequests.perform environment step system).2 := by
    unfold TenantRequests.perform
    cases ran : program environment step system with
    | none => exact aside_refl userId system sound
    | some ended => exact aside system system ended.1 ended.2 (aside_refl userId system sound) ran
  constructor
  · exact agree_aside userId left right _ _ agree (stays left agree.soundLeft)
      (stays right agree.soundRight)
  · exact fun own => absurd own other

include agree in
/-- What the user reads is theirs. -/
theorem select_step (request : TenantRequests.Request) (cookie : Option String) (now : Instant)
    (query : AuthenticatedUser → System → Except Failure Response)
    (served : TenantRequests.serve environment request =
      authenticated environment cookie now fun user => selects (query user))
    (whose : requester environment left request =
      (readSession environment.credentials cookie now left).toOption) :
    StepAgrees environment userId left right (.request request) := by
  have step (system : System) : TenantRequests.perform environment (.request request) system =
      (some (currentUser environment.credentials cookie now system >>= fun user =>
        query user (Context.visible ⟨some user.userId, user.isAdmin⟩ system)), system) := by
    have ran : program environment (.request request) system = some
        (currentUser environment.credentials cookie now system >>= fun user =>
          query user (Context.visible ⟨some user.userId, user.isAdmin⟩ system), system) :=
      (congrFun served system).trans (select_route_eq environment cookie now query system)
    simp only [TenantRequests.perform, ran]
  constructor
  · rw [step, step]
    exact agree
  · intro own
    rw [step, step, ← current_user_agree environment userId cookie now left right agree]
    cases found : currentUser environment.credentials cookie now left with
    | error failure => rfl
    | ok user =>
        have session := current_user_session environment cookie now left user found
        have same : user.userId = userId := by
          rw [actor, whose, session] at own
          exact Option.some.inj own
        have view := visible_same userId left right agree ⟨some user.userId, user.isAdmin⟩ userId
          agree.own (congrArg some same)
        simp only [bind, Except.bind, view]

theorem grant_stored_ends (exchange : Except Failure (ExchangedToken × List String))
    (draw : UpsertDraw) (owner : Uuid) (system : System) :
    ∃ ended, committing (TenantRequests.grantStored environment exchange draw owner) system =
      some ended := by
  have body : ∃ ended, TenantRequests.grantStored environment exchange draw owner
      (Open.under .unset system) = some ended := by
    rcases exchange with failure | ⟨exchangedToken, accounts⟩
    · exact ⟨_, rfl⟩
    · rcases accounts with - | ⟨accountHash, - | ⟨another, rest⟩⟩
      · exact ⟨_, rfl⟩
      · have stored : ∃ ended, policed (storeGrant environment.keys draw owner exchangedToken
            accountHash) ⟨⟨some owner, false⟩, system⟩ = some ended := by
          unfold policed writes
          split <;> exact ⟨_, rfl⟩
        obtain ⟨⟨outcome, after⟩, stored⟩ := stored
        have shape : TenantRequests.grantStored environment (.ok (exchangedToken, [accountHash]))
            draw owner (Open.under .unset system) =
            (policed (storeGrant environment.keys draw owner exchangedToken accountHash) >>=
              fun _ => pure Response.done) ⟨⟨some owner, false⟩, system⟩ := rfl
        rw [shape]
        simp only [bind, stored]
        cases outcome <;> exact ⟨_, rfl⟩
      · exact ⟨_, rfl⟩
  obtain ⟨⟨outcome, inner⟩, ran⟩ := body
  simp only [committing, within, ran]
  cases outcome <;> exact ⟨_, rfl⟩

include agree in
theorem callback_step (rawState : String)
    (exchange : Except Failure (ExchangedToken × List String)) (draw : UpsertDraw)
    (now : Instant) :
    StepAgrees environment userId left right
      (.request (.callback rawState exchange draw now)) := by
  have same : matchingToken environment.credentials rawState .oauthState now right =
      matchingToken environment.credentials rawState .oauthState now left := by
    rw [agree_eq userId left right agree]
    rfl
  have run (system : System) : program environment
      (.request (.callback rawState exchange draw now)) system =
        TenantRequests.callback environment rawState exchange draw now system := rfl
  cases found : matchingToken environment.credentials rawState .oauthState now left with
  | none =>
      apply alike_step environment userId left right agree
      rw [run, run, callback_refused environment now left rawState exchange draw found,
        callback_refused environment now right rawState exchange draw (same.trans found)]
      exact .raises _ left right agree
  | some row =>
      have stepLeft := callback_consumed environment now left rawState exchange draw row found
      have stepRight := callback_consumed environment now right rawState exchange draw row
        (same.trans found)
      have taken : Agree userId (consumed left row) (consumed right row) :=
        { agree with
          setupTokens := by rw [consumed, consumed, agree.setupTokens]
          soundLeft := ⟨agree.soundLeft.owners, agree.soundLeft.references⟩
          soundRight := ⟨agree.soundRight.owners, agree.soundRight.references⟩ }
      by_cases own : row.userId = userId
      · apply alike_step environment userId left right agree
        rw [run, run, stepLeft, stepRight, own]
        exact tracks_committing userId _ (grant_stored_tracks environment userId exchange draw) _ _
          taken
      · have stays (system : System) (sound : Sound system) := fun ended =>
          grant_stored_aside userId system environment row.userId own exchange draw system
            (Prod.fst ended) ended.2 (aside_refl userId system sound)
        obtain ⟨endLeft, ranLeft⟩ := grant_stored_ends environment exchange draw row.userId
          (consumed left row)
        obtain ⟨endRight, ranRight⟩ := grant_stored_ends environment exchange draw row.userId
          (consumed right row)
        constructor
        · have after := agree_aside userId _ _ _ _ taken (stays _ taken.soundLeft endLeft ranLeft)
            (stays _ taken.soundRight endRight ranRight)
          simp only [TenantRequests.perform, run, stepLeft, stepRight, ranLeft, ranRight]
          exact after
        · intro mine
          simp only [actor, requester, found, Option.map_some, Option.some.injEq] at mine
          exact absurd mine own

include agree in
theorem serve_step (request : TenantRequests.Request) :
    StepAgrees environment userId left right (.request request) := by
  have tracked (tracks : Tracks (Agree userId) (Agree userId) (fun _ => Agree userId)
      (TenantRequests.serve environment request)) :
      StepAgrees environment userId left right (.request request) :=
    alike_step environment userId left right agree _ (tracks left right agree)
  have routed (cookie : Option String) (now : Instant) (route : AuthenticatedUser → Work Response)
      (served : TenantRequests.serve environment request = authenticated environment cookie now route)
      (tracks : ∀ user, Tracks (AgreeOpen userId) Whatever (fun _ => AgreeOpen userId)
        (route user)) : StepAgrees environment userId left right (.request request) := by
    apply tracked
    rw [served]
    exact tracks_authenticated environment userId cookie now route fun user =>
      tracks_imp _ (tracks user) (fun _ _ agreed => agreed.1) fun _ _ _ agreed => agreed
  cases request with
  | createUser cookie username newId rawToken dek wrapNonce now =>
      exact routed cookie now _ rfl (create_user_tracks environment userId username newId rawToken dek
        wrapNonce now)
  | resetPassword cookie subjectId rawToken now =>
      exact routed cookie now _ rfl (reset_password_tracks environment userId subjectId rawToken now)
  | setup rawToken password salt now =>
      exact tracked (setup_tracks environment userId rawToken password salt now)
  | login username password salt rawToken now =>
      exact tracked (login_tracks environment userId username password salt rawToken now)
  | logout cookie now =>
      exact routed cookie now _ rfl fun _ => logout_tracks environment userId cookie
  | me cookie now =>
      exact select_step environment userId left right agree _ cookie now selectMe rfl rfl
  | deleteMe cookie now =>
      exact tracked (tracks_authenticated environment userId cookie now _ (delete_me_tracks userId))
  | listPositions cookie order now =>
      exact select_step environment userId left right agree _ cookie now
        (fun _ => selectPositions order) rfl rfl
  | getPosition cookie positionId now =>
      exact select_step environment userId left right agree _ cookie now
        (fun _ => selectPosition positionId) rfl rfl
  | connect cookie rawState now =>
      exact routed cookie now _ rfl (connect_tracks environment userId rawState now)
  | callback rawState exchange draw now =>
      exact callback_step environment userId left right agree rawState exchange draw now
  | connection cookie now readAt =>
      exact select_step environment userId left right agree _ cookie now
        (selectConnection environment readAt) rfl rfl
  | sync cookie order now readAt =>
      exact select_step environment userId left right agree _ cookie now
        (selectSync environment order readAt) rfl rfl
  | syncRuns cookie order now =>
      exact select_step environment userId left right agree _ cookie now
        (selectSyncRuns order) rfl rfl

theorem sync_user_tracks (call : TaskCall) (vendor : Option JsonValue → VendorRun)
    (draws : SyncDraws) : Tracks (Agree userId) (Agree userId) (fun _ => Agree userId)
      (syncUserJob environment userId call vendor draws) := by
  have job := tracks_policed_job userId userId _ fun context view ended after ran =>
    (task_grounded environment userId call vendor draws context view after ended ran).1
  have body : Tracks (Agree userId) (Agree userId) (fun _ => Agree userId) (committing do
      setCurrentUserId userId
      policedJob (taskEnded environment userId call vendor draws)) := by
    apply tracks_committing
    apply tracks_bind _ _ (tracks_set_current_user_id userId userId)
    intro _
    exact tracks_imp _ job (fun _ _ agreed => ⟨agreed.1, agreed.1, agreed.2⟩) fun _ _ _ agreed => agreed
  apply tracks_bind _ _ body
  intro ended
  cases ended with
  | error raised => exact tracks_raises _ fun _ _ agreed => agreed
  | ok _ => exact tracks_pure _ fun _ _ agreed => agreed

theorem sync_events_tracks (call : SyncCall) :
    Tracks (Agree userId) (Agree userId) (fun _ => Agree userId)
      (syncEventsJob environment userId call) := by
  have job := tracks_policed userId userId _ fun context view derivation after ran =>
    (events_grounded environment userId call context view after derivation ran).1
  apply tracks_committing
  apply tracks_bind _ _ (tracks_set_current_user_id userId userId)
  intro _
  apply tracks_bind _ _ (tracks_imp _ job (fun _ _ agreed => ⟨agreed.1, agreed.1, agreed.2⟩)
    fun _ _ _ agreed => agreed)
  intro derivation
  exact tracks_pure _ fun _ _ agreed => agreed

include agree in
theorem perform_agrees (step : Step) : StepAgrees environment userId left right step := by
  cases step with
  | request request => exact serve_step environment userId left right agree request
  | syncUser owner call vendor draws =>
      by_cases own : owner = userId
      · subst own
        exact alike_step environment owner left right agree _
          (sync_user_tracks environment owner call vendor draws left right agree)
      · exact aside_step environment userId left right agree _
          (fun same => own (Option.some.inj same)) fun before =>
            sync_user_aside userId before environment owner own call vendor draws
  | syncEvents owner call =>
      by_cases own : owner = userId
      · subst own
        exact alike_step environment owner left right agree _
          (sync_events_tracks environment owner call left right agree)
      · exact aside_step environment userId left right agree _
          (fun same => own (Option.some.inj same)) fun before =>
            sync_events_aside userId before environment owner own call

end TwoDatabases

/-! ## Any steps one after the other -/

section Runs

variable (environment : Environment) (userId : Uuid)

/-- Two databases with the same accounts and the same rows of the user, whole
as far as foreign keys go. -/
structure SameForUser (left right : System) : Prop where
  users : left.users = right.users
  sessions : left.sessions = right.sessions
  setupTokens : left.setupTokens = right.setupTokens
  auditLog : left.auditLog = right.auditLog
  own : ownRows userId left = ownRows userId right
  wholeLeft : ∀ row ∈ left.rows, brokenKey left row = none
  wholeRight : ∀ row ∈ right.rows, brokenKey right row = none

/-- Every leg and every event is on a position of its own user, which no
constraint asks for. -/
def RefersToOwn (system : System) : Prop :=
  ∀ reference ∈ (tenantData system).references,
    ∃ position ∈ system.positions.rows, position.id = reference.2 ∧ position.userId = reference.1

theorem sound_of_whole (system : System) (whole : ∀ row ∈ system.rows, brokenKey system row = none)
    (own : RefersToOwn system) : Sound system := by
  refine ⟨?_, own⟩
  intro owner member
  obtain ⟨row, stored, column⟩ := owner_row system owner member
  exact ((broken_key_none system row).mp (whole row stored)).1 _ column

theorem after_agrees (steps : List Step) (left right : System) (agree : Agree userId left right) :
    Agree userId (TenantRequests.after environment steps left)
      (TenantRequests.after environment steps right) := by
  induction steps generalizing left right with
  | nil => exact agree
  | cons step rest ih =>
      exact ih _ _ (perform_agrees environment userId left right agree step).agree

/-- **Whatever ran before, a step of the user answers the same and leaves the
same of the user's rows in both databases, and a step of anybody else leaves
the rows of a user as they are.** -/
theorem tenants_do_not_interfere (left right : System) (same : SameForUser userId left right)
    (ownLeft : RefersToOwn left) (ownRight : RefersToOwn right) (before : List Step) (next : Step) :
    let reachedLeft := TenantRequests.after environment before left
    let reachedRight := TenantRequests.after environment before right
    ownRows userId reachedLeft = ownRows userId reachedRight ∧
    actor environment reachedLeft next = actor environment reachedRight next ∧
    (actor environment reachedLeft next = some userId →
      (TenantRequests.perform environment next reachedLeft).1 =
        (TenantRequests.perform environment next reachedRight).1 ∧
      ownRows userId (TenantRequests.perform environment next reachedLeft).2 =
        ownRows userId (TenantRequests.perform environment next reachedRight).2) ∧
    (actor environment reachedLeft next ≠ some userId → reachedLeft.users.Has userId →
      ownRows userId (TenantRequests.perform environment next reachedLeft).2 =
        ownRows userId reachedLeft ∧
      ownRows userId (TenantRequests.perform environment next reachedRight).2 =
        ownRows userId reachedRight) := by
  intro reachedLeft reachedRight
  have agree : Agree userId reachedLeft reachedRight := by
    apply after_agrees
    exact ⟨same.users, same.sessions, same.setupTokens, same.auditLog, same.own,
      sound_of_whole left same.wholeLeft ownLeft, sound_of_whole right same.wholeRight ownRight⟩
  have sameActor : actor environment reachedLeft next = actor environment reachedRight next := by
    rw [agree_eq userId reachedLeft reachedRight agree]
    cases next with
    | request request => cases request <;> rfl
    | syncUser owner call vendor draws => rfl
    | syncEvents owner call => rfl
  have step := perform_agrees environment userId reachedLeft reachedRight agree next
  refine ⟨agree.own, sameActor, ?_, ?_⟩
  · intro mine
    exact ⟨step.answer mine, step.agree.own⟩
  · intro other has
    have left := perform_holds environment userId _ reachedLeft ⟨has, rfl, agree.soundLeft⟩ next other
    have right := perform_holds environment userId _ reachedRight
      ⟨agree.users ▸ has, rfl, agree.soundRight⟩ next (sameActor ▸ other)
    exact ⟨left.own, right.own⟩

end Runs

/-! Two databases of two users, in one of which the second has a position of
their own. -/

def plainEnvironment : Environment where
  keys := plainKeys
  pydantic := plainPydantic
  settings := {}
  credentials := plainCredentials
  sha256 text := text
  syncCooldownSeconds := 60

def onePositionHeld : System :=
  { System.empty with
    users := ⟨[⟨⟨1⟩, "user", none, false⟩, ⟨⟨2⟩, "other", none, true⟩], by decide⟩
    sessions := ⟨[⟨"user-session", ⟨1⟩, 100⟩, ⟨"other-session", ⟨2⟩, 100⟩], by decide⟩
    positions := ⟨[⟨⟨9⟩, ⟨1⟩, none⟩], by decide⟩ }

def otherPositionHeld : System :=
  { onePositionHeld with
    positions := ⟨[⟨⟨8⟩, ⟨2⟩, none⟩, ⟨⟨9⟩, ⟨1⟩, none⟩], by decide⟩
    ledger := { Database.empty with legs := [⟨⟨8⟩, ⟨2⟩, "SPX"⟩] } }

def userLists : Step :=
  .request (.listPositions (some "user-session") (ScanOrder.asStored Position) 0)

def otherDeletes : Step := .request (.deleteMe (some "other-session") 0)

theorem tenants_do_not_interfere_two_users :
    let reachedLeft := TenantRequests.after plainEnvironment [otherDeletes] onePositionHeld
    let reachedRight := TenantRequests.after plainEnvironment [otherDeletes] otherPositionHeld
    actor plainEnvironment reachedLeft userLists = some ⟨1⟩ ∧
      (TenantRequests.perform plainEnvironment userLists reachedLeft).1 =
        (TenantRequests.perform plainEnvironment userLists reachedRight).1 := by
  intro reachedLeft reachedRight
  have same : SameForUser ⟨1⟩ onePositionHeld otherPositionHeld :=
    ⟨rfl, rfl, rfl, rfl, rfl, by decide +kernel, by decide +kernel⟩
  have actorLists : actor plainEnvironment reachedLeft userLists = some ⟨1⟩ := by decide +kernel
  have apart := tenants_do_not_interfere plainEnvironment ⟨1⟩ onePositionHeld otherPositionHeld same
    (by unfold RefersToOwn; decide +kernel) (by unfold RefersToOwn; decide +kernel) [otherDeletes]
    userLists
  exact ⟨actorLists, (apart.2.2.1 actorLists).1⟩

def otherLegHeld : System :=
  { onePositionHeld with ledger := { Database.empty with legs := [⟨⟨9⟩, ⟨2⟩, "SPX"⟩] } }

def userDeletes : Step := .request (.deleteMe (some "user-session") 0)

/-- Where the other's leg is on the user's position, the user cannot be deleted. -/
theorem other_leg_interferes :
    ¬∀ left right before next, SameForUser ⟨1⟩ left right →
      actor plainEnvironment (TenantRequests.after plainEnvironment before right) next = some ⟨1⟩ →
        (TenantRequests.perform plainEnvironment next
            (TenantRequests.after plainEnvironment before left)).1 =
          (TenantRequests.perform plainEnvironment next
            (TenantRequests.after plainEnvironment before right)).1 := by
  intro apart
  have same : SameForUser ⟨1⟩ onePositionHeld otherLegHeld :=
    ⟨rfl, rfl, rfl, rfl, rfl, by decide +kernel, by decide +kernel⟩
  have answers := apart onePositionHeld otherLegHeld [userDeletes] userLists same (by decide +kernel)
  revert answers
  decide +kernel

end Morai.Api.TenantRuns
