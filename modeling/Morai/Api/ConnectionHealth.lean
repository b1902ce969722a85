import Morai.Api.TenantRuns
import Morai.Foundation.Runs
import Morai.Worker.ConnectionTransactions

/-!
# The health of a connection over its grants

`GET /schwab/connection` derives what it answers from `token_created_at`, which
only a callback writes. A refresh does not move it, so however often the jobs
refresh the token, the seven days are counted from the last committed callback.
-/

namespace Morai.Api.ConnectionHealth

open Morai.Crypto Morai.Db Morai.Python Morai.Foundation.PrimaryKey Morai.Foundation.HeldLocks
open Morai.Foundation.Runs Morai.Ingest.SyncWindows Morai.Vendor.Connections
open Morai.Worker.ConnectionTransactions Morai.Api.TenantRequests Morai.Api.TenantRuns
open Morai.Identity.Requests (AuthenticatedUser)
open Morai.Ingest.ExtractFills (provisionedUser)

set_option autoImplicit false

/-! ## The grants of a run -/

/-- When the tokens of the open callbacks were created, and that of the last
callback that committed. -/
structure Grants where
  given : Nat → Option Instant
  latest : Option Instant

section History

variable (pydantic : Pydantic)

def Grants.record (grants : Grants) : Action pydantic → Grants
  | .execute id (.upsert _ _ createdAt _) =>
      { grants with given := Function.update grants.given id (some createdAt) }
  | .execute _ _ => grants
  | .commit id =>
      { given := Function.update grants.given id none
        latest := (grants.given id).or grants.latest }
  | .rollback id => { grants with given := Function.update grants.given id none }

/-- Read off the actions alone. -/
def latestGrant (before : Option Instant) (actions : List (Action pydantic)) : Option Instant :=
  (actions.foldl (Grants.record pydantic) ⟨fun _ => none, before⟩).latest

end History

def callbackCreated : Txn → Option Instant
  | .callback row => some row.tokenCreatedAt
  | _ => none

def storedCreated (userId : Uuid) (db : Database) : Option Instant :=
  (db.schwabConnections.get? userId).map SchwabConnection.tokenCreatedAt

section Runs

variable (keys : KeyService) (pydantic : Pydantic) (settings : Settings)
  (grantOf : JsonValue → Instant) (userId : Uuid)

/-! ## Statements -/

theorem written_back_created (nonce : Bytes) (holder : TokenHolder) (db after : Database)
    (ran : writeBack keys pydantic nonce userId holder db = .ok after) :
    storedCreated userId after = storedCreated userId db := by
  unfold storedCreated
  cases stored : db.schwabConnections.get? userId with
  | none =>
      unfold writeBack at ran
      split at ran
      · split at ran
        · cases ran
        · obtain ⟨_, _, ran⟩ := bind_ok _ _ _ ran
          simp only [stored] at ran
          cases ran
          rw [stored]
      · cases ran
        rw [stored]
  | some row =>
      cases write_back_ok keys pydantic nonce userId holder db after row stored ran with
      | inl unwritten => rw [unwritten.2, stored]
      | inr written =>
          obtain ⟨token, dek, keyVersion, _, _, _, shape⟩ := written
          rw [shape, store_connection_get]
          have owner := connection_get_owner db userId row stored
          simp only [setToken, owner, if_true, Option.map_some]

theorem stamped_created (startedAt : Instant) (db : Database) :
    storedCreated userId (stampSynced userId startedAt db) = storedCreated userId db := by
  unfold storedCreated stampSynced
  cases stored : db.schwabConnections.get? userId with
  | none => simp only [stored]
  | some row =>
      have owner := connection_get_owner db userId row stored
      simp only [store_connection_get, owner, if_true, Option.map_some]

/-- A statement opens a callback, or leaves the creation time as it is stored. -/
theorem execute_cases (db : Database) (before : Option Txn) (statement : Statement pydantic)
    (txn : Txn)
    (held : ∀ old row, before = some old → callbackCreated old = none → old.pending = some row →
      row.userId = userId ∧ some row.tokenCreatedAt = storedCreated userId db)
    (executed : execute keys pydantic settings grantOf userId db before statement = some txn) :
    (∃ draw token createdAt accountHash row, before = none ∧
        statement = .upsert draw token createdAt accountHash ∧ txn = .callback row ∧
        row.userId = userId ∧ row.tokenCreatedAt = createdAt) ∨
      ((∀ draw token createdAt accountHash,
          statement ≠ .upsert draw token createdAt accountHash) ∧
        before.bind callbackCreated = none ∧ callbackCreated txn = none ∧
        ∀ row, txn.pending = some row →
          row.userId = userId ∧ some row.tokenCreatedAt = storedCreated userId db) := by
  unfold execute at executed
  split at executed
  · cases executed
    exact Or.inr ⟨by simp, rfl, rfl, by simp [Txn.pending]⟩
  · rename_i draw token createdAt accountHash
    split_ifs at executed with anchored
    split at executed
    · rename_i after ran
      obtain ⟨row, found, shape⟩ := Option.map_eq_some_iff.mp executed
      obtain ⟨dek, keyVersion, written, stored, upserted⟩ :=
        upsert_connection_ok keys draw userId ⟨token.value, createdAt⟩ accountHash db after ran
      rw [stored, store_connection_get, if_pos upserted.holds.owner] at found
      cases found
      exact Or.inl ⟨draw, token, createdAt, accountHash, row, rfl, rfl, shape.symm,
        upserted.holds.owner, upserted.createdAt⟩
    · cases executed
  · cases executed
    exact Or.inr ⟨by simp, rfl, rfl, by simp [Txn.pending]⟩
  · obtain ⟨plan, _, shape⟩ := Option.map_eq_some_iff.mp executed
    cases shape
    exact Or.inr ⟨by simp, rfl, rfl, by simp [Txn.pending]⟩
  · split at executed
    · cases executed
      exact Or.inr ⟨by simp, rfl, rfl, by simp [Txn.pending]⟩
    · cases executed
  · split_ifs at executed
    cases executed
    exact Or.inr ⟨by simp, rfl, rfl, by simp [Txn.pending]⟩
  · cases executed
    exact Or.inr ⟨by simp, rfl, rfl, by simp [Txn.pending]⟩
  · rename_i startedAt plan requested holder overtaken nonce
    split at executed
    · rename_i after ran
      cases executed
      refine Or.inr ⟨by simp, rfl, rfl, ?_⟩
      intro row pending
      simp only [Txn.pending] at pending
      split_ifs at pending
      have kept := written_back_created keys pydantic userId nonce holder db after ran
      refine ⟨connection_get_owner after userId row pending, ?_⟩
      rw [← kept, storedCreated, pending, Option.map_some]
    · cases executed
  · rename_i startedAt plan requested stale pending
    obtain ⟨row, found, shape⟩ := Option.map_eq_some_iff.mp executed
    cases shape
    refine Or.inr ⟨by simp, rfl, rfl, ?_⟩
    intro version same
    cases same
    refine ⟨connection_get_owner _ userId row found, ?_⟩
    have kept := stamped_created userId startedAt (view db pending)
    rw [storedCreated, found, Option.map_some] at kept
    rw [kept]
    cases pending with
    | none => rfl
    | some old =>
        obtain ⟨owner, created⟩ := held _ old rfl rfl rfl
        rw [← created, view, storedCreated, store_connection_get, if_pos owner, Option.map_some]
  · cases executed

/-! ## Runs -/

structure Recorded (state : System) (grants : Grants) : Prop where
  granted : Granted Txn.holds state.locking
  given : ∀ id, grants.given id = (state.locking.txns id).bind callbackCreated
  latest : grants.latest = storedCreated userId state.db
  owner : ∀ id txn row, state.locking.txns id = some txn → txn.pending = some row →
    row.userId = userId
  pending : ∀ id txn row, state.locking.txns id = some txn → callbackCreated txn = none →
    txn.pending = some row → some row.tokenCreatedAt = storedCreated userId state.db

theorem overtake_created (txn : Txn) : callbackCreated txn.overtake = callbackCreated txn := by
  cases txn <;> rfl

theorem overtake_pending (txn : Txn) : txn.overtake.pending = txn.pending := by
  cases txn <;> rfl

theorem stored_created_of_commit (db : Database) (row : SchwabConnection)
    (owner : row.userId = userId) :
    storedCreated userId (storeConnection db row) = some row.tokenCreatedAt := by
  rw [storedCreated, store_connection_get, if_pos owner, Option.map_some]

/-- The row lock keeps any other written version away from one that is
committed. -/
theorem pending_alone (state : System) (granted : Granted Txn.holds state.locking)
    (id other : Nat) (txn found : Txn) (row version : SchwabConnection)
    (opened : state.locking.txns id = some txn) (wrote : txn.pending = some row)
    (present : state.locking.txns other = some found) (written : found.pending = some version) :
    other = id := by
  have holds : Txn.holds txn .connectionRow = true := by simp [Txn.holds, wrote]
  have held : Txn.holds found .connectionRow = true := by simp [Txn.holds, written]
  exact granted_exclusive Txn.holds state.locking granted other id found txn .connectionRow present
    held opened holds

theorem recorded_execute (state next : System) (grants : Grants) (id : Nat)
    (statement : Statement pydantic) (recorded : Recorded userId state grants)
    (stepped : step keys pydantic settings grantOf userId state (.execute id statement) =
      some next) : Recorded userId next (grants.record pydantic (.execute id statement)) := by
  have granted := step_granted keys pydantic settings grantOf userId state _ next recorded.granted
    stepped
  obtain ⟨txn, executed, advanced, sameDb, _⟩ :=
    execute_step keys pydantic settings grantOf userId state next id statement stepped
  have txns := (advance_eq Txn.holds state.locking next.locking id txn advanced).2.1
  have cases' := execute_cases keys pydantic settings grantOf userId state.db _ statement txn
    (fun old row found created wrote => ⟨recorded.owner id old row found wrote,
      recorded.pending id old row found created wrote⟩) executed
  have others : ∀ other found, next.locking.txns other = some found →
      (other = id ∧ found = txn) ∨ (other ≠ id ∧ state.locking.txns other = some found) :=
    fun other found present =>
      advance_txns Txn.holds state.locking next.locking id other txn found advanced present
  rcases cases' with ⟨draw, token, createdAt, accountHash, row, fresh, shape, opened, owner, created⟩ |
    ⟨plain, closed, unopened, written⟩
  · subst shape
    subst opened
    refine ⟨granted, ?_, sameDb ▸ recorded.latest, ?_, ?_⟩
    · intro other
      simp only [Grants.record, txns]
      by_cases same : other = id
      · subst same
        simp [callbackCreated, created]
      · simp only [Function.update_of_ne same, recorded.given other]
    · intro other found version present wrote
      cases others other found present with
      | inl moved =>
          rw [moved.2] at wrote
          cases wrote
          exact owner
      | inr unmoved => exact recorded.owner other found version unmoved.2 wrote
    · intro other found version present plain wrote
      rw [sameDb]
      cases others other found present with
      | inl moved =>
          rw [moved.2] at plain
          cases plain
      | inr unmoved => exact recorded.pending other found version unmoved.2 plain wrote
  · have unrecorded : grants.record pydantic (.execute id statement) = grants := by
      cases statement with
      | upsert draw token createdAt accountHash =>
          exact absurd rfl (plain draw token createdAt accountHash)
      | _ => rfl
    rw [unrecorded]
    refine ⟨granted, ?_, sameDb ▸ recorded.latest, ?_, ?_⟩
    · intro other
      rw [txns, recorded.given]
      by_cases same : other = id
      · subst same
        rw [Function.update_self, closed, Option.bind_some, unopened]
      · rw [Function.update_of_ne same]
    · intro other found version present wrote
      cases others other found present with
      | inl moved => exact (written version (moved.2 ▸ wrote)).1
      | inr unmoved => exact recorded.owner other found version unmoved.2 wrote
    · intro other found version present none wrote
      rw [sameDb]
      cases others other found present with
      | inl moved => exact (written version (moved.2 ▸ wrote)).2
      | inr unmoved => exact recorded.pending other found version unmoved.2 none wrote

theorem recorded_commit (state next : System) (grants : Grants) (id : Nat)
    (recorded : Recorded userId state grants)
    (stepped : step keys pydantic settings grantOf userId state (.commit id) = some next) :
    Recorded userId next (grants.record pydantic (.commit id)) := by
  have granted := step_granted keys pydantic settings grantOf userId state _ next recorded.granted
    stepped
  have closing : ∀ other, Function.update grants.given id none other =
      (Function.update state.locking.txns id none other).bind callbackCreated := by
    intro other
    by_cases same : other = id
    · subst same
      simp
    · simp only [Function.update_of_ne same, recorded.given other]
  cases commit_step keys pydantic settings grantOf userId state next id stepped with
  | inl job =>
      obtain ⟨startedAt, plan, requested, stale, row, found, shape⟩ := job
      subst shape
      have owner := recorded.owner id _ row found rfl
      have created := recorded.pending id _ row found rfl rfl
      have given : grants.given id = none := by rw [recorded.given, found]; rfl
      have stored : storedCreated userId (storeConnection state.db row) =
          storedCreated userId state.db :=
        (stored_created_of_commit userId state.db row owner).trans created
      refine ⟨granted, closing, ?_, ?_, ?_⟩
      · simp only [Grants.record, given, Option.none_or, stored]
        exact recorded.latest
      · intro other txn version present wrote
        obtain ⟨_, before⟩ := finish_txns state.locking id other txn present
        exact recorded.owner other txn version before wrote
      · intro other txn version present _ wrote
        obtain ⟨apart, before⟩ := finish_txns state.locking id other txn present
        exact absurd (pending_alone state recorded.granted id other _ txn row version found rfl
          before wrote) apart
  | inr callback =>
      obtain ⟨row, found, shape⟩ := callback
      subst shape
      have owner := recorded.owner id _ row found rfl
      have given : grants.given id = some row.tokenCreatedAt := by rw [recorded.given, found]; rfl
      have opened : ∀ other txn, (mapTxns Txn.overtake (finish state.locking id)).txns other =
          some txn → ∃ old, other ≠ id ∧ state.locking.txns other = some old ∧
            txn = old.overtake := by
        intro other txn present
        obtain ⟨old, before, overtaken⟩ := Option.map_eq_some_iff.mp present
        obtain ⟨apart, open'⟩ := finish_txns state.locking id other old before
        exact ⟨old, apart, open', overtaken.symm⟩
      refine ⟨granted, ?_, ?_, ?_, ?_⟩
      · intro other
        refine (closing other).trans ?_
        change _ = ((Function.update state.locking.txns id none other).map Txn.overtake).bind
          callbackCreated
        cases Function.update state.locking.txns id none other with
        | none => rfl
        | some txn => exact (overtake_created txn).symm
      · simp only [Grants.record, given, Option.some_or]
        exact (stored_created_of_commit userId state.db row owner).symm
      · intro other txn version present wrote
        obtain ⟨old, _, before, overtaken⟩ := opened other txn present
        rw [overtaken, overtake_pending] at wrote
        exact recorded.owner other old version before wrote
      · intro other txn version present _ wrote
        obtain ⟨old, apart, before, overtaken⟩ := opened other txn present
        rw [overtaken, overtake_pending] at wrote
        exact absurd (pending_alone state recorded.granted id other _ old row version found rfl
          before wrote) apart

theorem recorded_rollback (state next : System) (grants : Grants) (id : Nat)
    (recorded : Recorded userId state grants)
    (stepped : step keys pydantic settings grantOf userId state (.rollback id) = some next) :
    Recorded userId next (grants.record pydantic (.rollback id)) := by
  have granted := step_granted keys pydantic settings grantOf userId state _ next recorded.granted
    stepped
  have shape := rollback_step keys pydantic settings grantOf userId state next id stepped
  subst shape
  refine ⟨granted, ?_, recorded.latest, ?_, ?_⟩
  · intro other
    simp only [Grants.record, finish]
    by_cases same : other = id
    · subst same
      simp
    · simp only [Function.update_of_ne same, recorded.given other]
  · intro other txn version present wrote
    obtain ⟨_, before⟩ := finish_txns state.locking id other txn present
    exact recorded.owner other txn version before wrote
  · intro other txn version present none wrote
    obtain ⟨_, before⟩ := finish_txns state.locking id other txn present
    exact recorded.pending other txn version before none wrote

theorem recorded_run (actions : List (Action pydantic)) (initial final : System) (grants : Grants)
    (recorded : Recorded userId initial grants)
    (ran : runFrom (step keys pydantic settings grantOf userId) actions initial = some final) :
    Recorded userId final (actions.foldl (Grants.record pydantic) grants) := by
  induction actions generalizing initial grants with
  | nil =>
      cases ran
      exact recorded
  | cons action rest ih =>
      obtain ⟨next, stepped, later⟩ := run_from_cons _ action rest initial final ran
      apply ih next _ _ later
      cases action with
      | execute id statement =>
          exact recorded_execute keys pydantic settings grantOf userId initial next grants id statement
            recorded stepped
      | commit id =>
          exact recorded_commit keys pydantic settings grantOf userId initial next grants id recorded
            stepped
      | rollback id =>
          exact recorded_rollback keys pydantic settings grantOf userId initial next grants id recorded
            stepped

end Runs

/-! ## The route -/

section Route

variable (environment : Environment) (readAt : Instant)

theorem derived_health (createdAt : Instant) :
    let (health, expiresAt) := deriveConnectionHealth createdAt readAt
    expiresAt = createdAt + refreshTokenLifetime ∧
      (health = .healthy ↔ readAt + expiringSoonThreshold < expiresAt) ∧
      (health = .expired ↔ expiresAt ≤ readAt) := by
  have wait : 0 < expiringSoonThreshold := by decide
  unfold deriveConnectionHealth
  dsimp only
  split_ifs with late soon
  · refine ⟨rfl, ?_, ?_⟩
    · rw [false_iff, not_lt]
      linarith
    · rw [eq_self, true_iff]
      linarith
  · refine ⟨rfl, ?_, ?_⟩
    · rw [false_iff, not_lt]
      linarith
    · rw [false_iff, not_le]
      linarith
  · refine ⟨rfl, ?_, ?_⟩
    · rw [eq_self, true_iff]
      linarith
    · rw [false_iff, not_le]
      linarith

theorem health_value_injective (left right : ConnectionHealth) :
    left.value = right.value ↔ left = right := by
  cases left <;> cases right <;> decide

/-- What the route answers from the row the session sees. -/
theorem select_connection_created (user : AuthenticatedUser) (system : Identity.Tables.System)
    (response : ConnectionResponse)
    (answered : selectConnection environment readAt user
      (Identity.RowSecurity.Context.visible ⟨some user.userId, user.isAdmin⟩ system) =
        .ok (.connection response)) :
    ∃ createdAt, storedCreated user.userId system.ledger = some createdAt ∧
      response.health = (deriveConnectionHealth createdAt readAt).1.value ∧
      response.expiresAt = (deriveConnectionHealth createdAt readAt).2 := by
  obtain ⟨record, found, answered⟩ := bind_ok _ _ _ answered
  unfold foundConnection at found
  split at found
  · cases found
  · cases found
  · rename_i read
    cases found
    obtain ⟨row, stored, readRow⟩ := read_connection_ok _ _ _ _ record read
    obtain ⟨seen, own⟩ := (get_eq_some_iff _ _ _).mp stored
    have kept : system.ledger.schwabConnections.get? user.userId = some row :=
      (get_eq_some_iff _ _ _).mpr ⟨(List.mem_filter.mp seen).1, own⟩
    have columns := read_row_columns _ _ _ _ _ record readRow
    refine ⟨row.tokenCreatedAt, by rw [storedCreated, kept, Option.map_some], ?_⟩
    cases answered
    rw [columns]
    exact ⟨rfl, rfl⟩

variable (grantOf : JsonValue → Instant)

/-- **However the jobs and callbacks of a user interleave, `GET /schwab/connection`
counts the seven days from when the token of the last committed callback was
created: no refresh, no failed job and no callback that was rolled back moves
them.** -/
theorem health_counts_from_last_callback (user : AuthenticatedUser)
    (actions : List (Action environment.pydantic)) (initial final : System) (quiet : Quiet initial)
    (ran : runFrom (step environment.keys environment.pydantic environment.settings grantOf
      user.userId) actions initial = some final)
    (system : Identity.Tables.System) (committed : system.ledger = final.db)
    (response : ConnectionResponse)
    (answered : selectConnection environment readAt user
      (Identity.RowSecurity.Context.visible ⟨some user.userId, user.isAdmin⟩ system) =
        .ok (.connection response)) :
    ∃ createdAt, latestGrant environment.pydantic (storedCreated user.userId initial.db) actions =
        some createdAt ∧
      response.expiresAt = createdAt + refreshTokenLifetime ∧
      (response.health = ConnectionHealth.healthy.value ↔
        readAt + expiringSoonThreshold < response.expiresAt) ∧
      (response.health = ConnectionHealth.expired.value ↔ response.expiresAt ≤ readAt) := by
  have start : Recorded user.userId initial
      ⟨fun _ => none, storedCreated user.userId initial.db⟩ := by
    constructor
    · rw [quiet.1]
      exact granted_idle Txn.holds
    · intro id
      rw [quiet.1]
      rfl
    · rfl
    · intro id txn row present
      rw [quiet.1] at present
      cases present
    · intro id txn row present
      rw [quiet.1] at present
      cases present
  have recorded := recorded_run environment.keys environment.pydantic environment.settings grantOf
    user.userId actions initial final _ start ran
  obtain ⟨createdAt, stored, health, expiresAt⟩ := select_connection_created environment readAt user
    system response answered
  rw [committed] at stored
  have derived := derived_health readAt createdAt
  refine ⟨createdAt, recorded.latest.trans stored, ?_, ?_, ?_⟩
  · rw [expiresAt]
    exact derived.1
  · rw [health, health_value_injective, expiresAt]
    exact derived.2.1
  · rw [health, health_value_injective, expiresAt]
    exact derived.2.2

end Route

/-- A callback of day 20000, and a job that refreshes its token on day 20006. -/
def lateRefresh : List (Action plainEnvironment.pydantic) :=
  callbackOf 0 firstToken ++ openJob 1 20006 ++ [.execute 1 (.refresh 0 refreshedToken)] ++
    List.replicate 7 (.execute 1 .request) ++ closeJob 1

def held (db : Database) : Identity.Tables.System :=
  { Identity.Tables.System.empty with ledger := db }

/-- Expired seven days after the callback, whatever was refreshed since. -/
def expiredResponse : ConnectionResponse :=
  ⟨"expired", 20007 * dayMicros, some (20006 * dayMicros), none⟩

theorem health_counts_from_last_callback_refreshed :
    ∃ final createdAt, runFrom (step plainEnvironment.keys plainEnvironment.pydantic
        plainEnvironment.settings plainGrant ⟨1⟩) lateRefresh (quietSystem provisionedUser) =
          some final ∧
      selectConnection plainEnvironment (20008 * dayMicros) ⟨⟨1⟩, false⟩
        (Identity.RowSecurity.Context.visible ⟨some ⟨1⟩, false⟩ (held final.db)) =
          .ok (.connection expiredResponse) ∧
      latestGrant plainPydantic (storedCreated ⟨1⟩ provisionedUser) lateRefresh = some createdAt ∧
      expiredResponse.expiresAt = createdAt + refreshTokenLifetime := by
  have reads : ((runFrom (step plainEnvironment.keys plainEnvironment.pydantic
      plainEnvironment.settings plainGrant ⟨1⟩) lateRefresh (quietSystem provisionedUser)).any
        fun final => decide (selectConnection plainEnvironment (20008 * dayMicros) ⟨⟨1⟩, false⟩
          (Identity.RowSecurity.Context.visible ⟨some ⟨1⟩, false⟩ (held final.db)) =
            .ok (.connection expiredResponse))) = true := by decide +kernel
  obtain ⟨present, answers⟩ := (Option.any_eq_true_iff_get _ _).mp reads
  have ran := (Option.some_get present).symm
  have answered := of_decide_eq_true answers
  obtain ⟨createdAt, latest, expires, _, _⟩ := health_counts_from_last_callback plainEnvironment
    (20008 * dayMicros) plainGrant ⟨⟨1⟩, false⟩ lateRefresh (quietSystem provisionedUser) _ ⟨rfl, rfl⟩
    ran (held _) rfl expiredResponse answered
  exact ⟨_, createdAt, ran, answered, latest, expires⟩

end Morai.Api.ConnectionHealth
