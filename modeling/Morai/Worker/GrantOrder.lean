import Morai.Ingest.ExtractFills
import Morai.Worker.ConnectionTransactions

/-!
# Which grant the stored token belongs to

A job's refreshed token belongs to the grant it read. The callback takes no
advisory lock, so it can commit a newer grant between the job's read and its
write-back, which then puts the old grant's token under the new creation time.
As long as no job commits such a write-back, the stored token and the stored
creation time are of one grant.
-/

namespace Morai.Worker.GrantOrder

open Morai.Crypto Morai.Db Morai.Python Morai.Foundation.Runs Morai.Foundation.HeldLocks
open Morai.Ingest.ExtractFills Morai.Ingest.SyncWindows Morai.Vendor.Connections
open Morai.Worker.ConnectionTransactions

set_option autoImplicit false

variable (keys : KeyService) (pydantic : Pydantic) (settings : Settings)
  (grantOf : JsonValue → Instant) (userId : Uuid)

/-- The row's token belongs to the grant created at the row's
`token_created_at`. -/
def TokenOfGrant (db : Database) (row : SchwabConnection) : Prop :=
  ∃ token, storedToken keys pydantic db userId row = .ok token ∧
    grantOf token = row.tokenCreatedAt

def StoredGrant (db : Database) : Prop :=
  ∀ row, db.schwabConnections.get? userId = some row →
    TokenOfGrant keys pydantic grantOf userId db row

/-- The holder's token is of the grant stored now. -/
def HolderCurrent (db : Database) (holder : TokenHolder) : Prop :=
  ∀ row, db.schwabConnections.get? userId = some row →
    ∃ token, wrappedToken holder.token = some token ∧ grantOf token = row.tokenCreatedAt

/-- What an open transaction knows about its token. -/
def TxnGrant (db : Database) : Txn → Prop
  | .fetching _ _ _ _ holder overtaken =>
      (holder.wrote = true → ∃ token : StorableToken pydantic,
        wrappedToken holder.token = some token.value) ∧
        (overtaken = false → HolderCurrent grantOf userId db holder)
  | .persisted _ _ _ stale pending => ∀ row, pending = some row →
      row.userId = userId ∧ (stale = false → TokenOfGrant keys pydantic grantOf userId db row)
  | .stamped _ _ _ stale row =>
      row.userId = userId ∧ (stale = false → TokenOfGrant keys pydantic grantOf userId db row)
  | .callback row => row.userId = userId ∧ TokenOfGrant keys pydantic grantOf userId db row
  | _ => True

theorem upserted_grant (draw : UpsertDraw) (token : StorableToken pydantic) (createdAt : Instant)
    (accountHash : String) (db after : Database) (row : SchwabConnection)
    (anchored : grantOf token.value = createdAt)
    (ran : upsertConnection keys draw userId ⟨token.value, createdAt⟩ accountHash db = .ok after)
    (found : after.schwabConnections.get? userId = some row) :
    row.userId = userId ∧ TokenOfGrant keys pydantic grantOf userId db row := by
  obtain ⟨dek, keyVersion, written, shape, upserted⟩ :=
    upsert_connection_ok keys draw userId ⟨token.value, createdAt⟩ accountHash db after ran
  rw [shape, store_connection_get, if_pos upserted.holds.owner] at found
  cases found
  refine ⟨upserted.holds.owner, token.value, ?_, anchored.trans upserted.createdAt.symm⟩
  exact stored_token_of_encrypted keys pydantic db userId row dek keyVersion token.value
    upserted.current token.reads_back upserted.holds.version upserted.holds.token

theorem opened_grant (db : Database) (holder : TokenHolder)
    (grants : StoredGrant keys pydantic grantOf userId db)
    (ran : openHolder keys pydantic userId db = .ok holder) :
    holder.wrote = false ∧ HolderCurrent grantOf userId db holder := by
  obtain ⟨record, read, wrapped, idle⟩ := open_holder_ok keys pydantic userId db holder ran
  obtain ⟨stored, storedFound, readRow⟩ := read_connection_ok keys pydantic userId db record read
  refine ⟨idle, ?_⟩
  intro row found
  rw [storedFound] at found
  cases found
  obtain ⟨token, decrypted, anchored⟩ := grants stored storedFound
  rw [read_row_token keys pydantic db userId stored record readRow] at decrypted
  cases decrypted
  exact ⟨record.token, wrapped, anchored⟩

/-- A write-back of the current grant's token keeps row and grant together. -/
theorem written_back_grant (nonce : Bytes) (holder : TokenHolder) (db after : Database)
    (row : SchwabConnection) (wrote : holder.wrote = true)
    (storable : ∃ token : StorableToken pydantic, wrappedToken holder.token = some token.value)
    (current : HolderCurrent grantOf userId db holder)
    (ran : writeBack keys pydantic nonce userId holder db = .ok after)
    (found : after.schwabConnections.get? userId = some row) :
    TokenOfGrant keys pydantic grantOf userId db row := by
  cases stored : db.schwabConnections.get? userId with
  | none =>
      unfold writeBack at ran
      rw [if_pos wrote] at ran
      split at ran
      · cases ran
      · obtain ⟨_, _, ran⟩ := bind_ok _ _ _ ran
        simp only [stored] at ran
        cases ran
        rw [stored] at found
        cases found
  | some old =>
      cases write_back_ok keys pydantic nonce userId holder db after old stored ran with
      | inl unwritten =>
          rw [wrote] at unwritten
          cases unwritten.1
      | inr written =>
          obtain ⟨token, dek, keyVersion, _, validated, currentKey, shape⟩ := written
          have owner := connection_get_owner db userId old stored
          rw [shape, store_connection_get] at found
          simp only [setToken, owner, if_true] at found
          cases found
          have wrapped := validate_wrapped_token_eq pydantic holder.token token validated
          obtain ⟨kept, keptWrapped⟩ := storable
          rw [wrapped] at keptWrapped
          cases keptWrapped
          obtain ⟨same, sameWrapped, anchored⟩ := current old stored
          rw [wrapped] at sameWrapped
          cases sameWrapped
          refine ⟨kept.value, ?_, anchored⟩
          exact stored_token_of_encrypted keys pydantic db userId _ dek keyVersion kept.value
            currentKey kept.reads_back rfl rfl

/-- The stamp does not touch the token. -/
theorem stamped_grant (startedAt : Instant) (db : Database) (pending : Option SchwabConnection)
    (stale : Bool) (row : SchwabConnection)
    (grants : StoredGrant keys pydantic grantOf userId db)
    (held : ∀ row, pending = some row →
      row.userId = userId ∧ (stale = false → TokenOfGrant keys pydantic grantOf userId db row))
    (found : (stampSynced userId startedAt (view db pending)).schwabConnections.get? userId =
      some row) :
    row.userId = userId ∧ (stale = false → TokenOfGrant keys pydantic grantOf userId db row) := by
  have stamps : ∀ seen old, seen.schwabConnections.get? userId = some old →
      (stampSynced userId startedAt seen).schwabConnections.get? userId = some row →
      row = { old with lastSyncedAt := some startedAt } := by
    intro seen old stored written
    rw [stamp_synced_get userId startedAt seen old stored] at written
    exact (Option.some.inj written).symm
  cases pending with
  | none =>
      cases stored : db.schwabConnections.get? userId with
      | none =>
          simp only [view, stampSynced, stored] at found
          cases found
      | some old =>
          rw [stamps db old stored found]
          exact ⟨connection_get_owner db userId old stored, fun _ => grants old stored⟩
  | some version =>
      obtain ⟨owner, anchored⟩ := held version rfl
      have seen : (view db (some version)).schwabConnections.get? userId = some version := by
        rw [view, store_connection_get, if_pos owner]
      rw [stamps _ version seen found]
      exact ⟨owner, anchored⟩

theorem execute_grant (db : Database) (before : Option Txn) (statement : Statement pydantic)
    (txn : Txn) (grants : StoredGrant keys pydantic grantOf userId db)
    (held : ∀ old, before = some old → TxnGrant keys pydantic grantOf userId db old)
    (executed : execute keys pydantic settings grantOf userId db before statement = some txn) :
    TxnGrant keys pydantic grantOf userId db txn := by
  unfold execute at executed
  split at executed
  · cases executed
    trivial
  · split_ifs at executed with anchored
    split at executed
    · rename_i after ran
      obtain ⟨row, found, shape⟩ := Option.map_eq_some_iff.mp executed
      rw [← shape]
      exact upserted_grant keys pydantic grantOf userId _ _ _ _ db after row anchored ran found
    · cases executed
  · cases executed
    trivial
  · obtain ⟨plan, _, shape⟩ := Option.map_eq_some_iff.mp executed
    rw [← shape]
    trivial
  · split at executed
    · rename_i holder ran
      cases executed
      obtain ⟨idle, current⟩ := opened_grant keys pydantic grantOf userId db holder grants ran
      refine ⟨?_, fun _ => current⟩
      intro wrote
      rw [idle] at wrote
      cases wrote
    · cases executed
  · rename_i startedAt plan requested remaining holder overtaken creationTimestamp token
    split_ifs at executed with refreshed
    cases executed
    have old := held _ rfl
    refine ⟨fun _ => ⟨token, wrapped_token_wrap _ _⟩, ?_⟩
    intro fresh row found
    obtain ⟨before, wrapped, anchored⟩ := old.2 fresh row found
    simp only [sameGrant, wrapped, decide_eq_true_eq] at refreshed
    exact ⟨token.value, wrapped_token_wrap _ _, refreshed.trans anchored⟩
  · cases executed
    have old := held _ rfl
    exact old
  · rename_i startedAt plan requested holder overtaken nonce
    split at executed
    · rename_i after ran
      cases executed
      have old := held _ rfl
      intro row pending
      split_ifs at pending with wrote
      refine ⟨connection_get_owner after userId row pending, ?_⟩
      intro fresh
      rw [wrote, Bool.true_and] at fresh
      exact written_back_grant keys pydantic grantOf userId nonce holder db after row wrote
        (old.1 wrote) (old.2 fresh) ran pending
    · cases executed
  · obtain ⟨row, found, shape⟩ := Option.map_eq_some_iff.mp executed
    rw [← shape]
    exact stamped_grant keys pydantic grantOf userId _ db _ _ row grants (held _ rfl) found
  · cases executed

/-! ## Runs -/

/-- The job that commits has not written back a token it read before a
callback committed. -/
def FreshCommit (state : System) : Action pydantic → Prop
  | .commit id => (state.locking.txns id).any Txn.stale = false
  | _ => True

instance (state : System) : ∀ action, Decidable (FreshCommit pydantic state action)
  | .commit id => inferInstanceAs (Decidable ((state.locking.txns id).any Txn.stale = false))
  | .execute _ _ => isTrue trivial
  | .rollback _ => isTrue trivial

structure GrantInvariant (state : System) : Prop where
  granted : Granted Txn.holds state.locking
  grants : StoredGrant keys pydantic grantOf userId state.db
  held : ∀ id txn, state.locking.txns id = some txn →
    TxnGrant keys pydantic grantOf userId state.db txn

/-- A committed version of the row becomes the stored one. -/
theorem stored_grant_of_committed (db : Database) (pending : SchwabConnection)
    (owner : pending.userId = userId)
    (anchored : TokenOfGrant keys pydantic grantOf userId db pending) :
    StoredGrant keys pydantic grantOf userId (storeConnection db pending) := by
  intro row found
  rw [store_connection_get, if_pos owner] at found
  cases found
  exact anchored

/-- A callback's commit overtakes every token read before it and leaves the
written versions as they are. -/
theorem overtaken_grant (db : Database) (pending : SchwabConnection) (txn : Txn)
    (held : TxnGrant keys pydantic grantOf userId db txn) :
    TxnGrant keys pydantic grantOf userId (storeConnection db pending) txn.overtake := by
  cases txn with
  | fetching startedAt plan requested remaining holder overtaken =>
      refine ⟨held.1, ?_⟩
      intro fresh
      cases fresh
  | waiting startedAt => trivial
  | locked startedAt => trivial
  | planned startedAt plan => trivial
  | persisted startedAt plan requested stale version => exact held
  | stamped startedAt plan requested stale version => exact held
  | callback version => exact held

theorem grant_step_keeps (state : System) (action : Action pydantic) (next : System)
    (invariant : GrantInvariant keys pydantic grantOf userId state)
    (fresh : FreshCommit pydantic state action)
    (stepped : step keys pydantic settings grantOf userId state action = some next) :
    GrantInvariant keys pydantic grantOf userId next := by
  have granted := step_granted keys pydantic settings grantOf userId state action next
    invariant.granted stepped
  cases action with
  | execute id statement =>
      obtain ⟨_, _, _, sameDb, _⟩ :=
        execute_step keys pydantic settings grantOf userId state next id statement stepped
      refine ⟨granted, sameDb ▸ invariant.grants, ?_⟩
      intro other found present
      rw [sameDb]
      cases (execute_txns keys pydantic settings grantOf userId state next id statement stepped
          other found present).2 with
      | inl moved =>
          exact execute_grant keys pydantic settings grantOf userId state.db _ statement found
            invariant.grants (fun old oldFound => invariant.held id old oldFound) moved.2
      | inr unmoved => exact invariant.held other found unmoved.2
  | rollback id =>
      have shape := rollback_step keys pydantic settings grantOf userId state next id stepped
      subst shape
      refine ⟨granted, invariant.grants, ?_⟩
      intro other txn present
      exact invariant.held other txn (finish_txns state.locking id other txn present).2
  | commit id =>
      cases commit_step keys pydantic settings grantOf userId state next id stepped with
      | inl job =>
          obtain ⟨startedAt, plan, requested, stale, pending, found, shape⟩ := job
          obtain ⟨owner, anchored⟩ := invariant.held id _ found
          have unstale : stale = false := by
            simp only [FreshCommit, found, Option.any_some] at fresh
            exact fresh
          subst shape
          refine ⟨granted, ?_, ?_⟩
          · exact stored_grant_of_committed keys pydantic grantOf userId state.db pending owner
              (anchored unstale)
          · intro other txn present
            have open' := finish_txns state.locking id other txn present
            obtain ⟨begun, waiting⟩ := stamped_alone state invariant.granted id other startedAt plan
              requested stale pending txn found open'.2 open'.1
            rw [waiting]
            trivial
      | inr callback =>
          obtain ⟨pending, found, shape⟩ := callback
          obtain ⟨owner, anchored⟩ := invariant.held id _ found
          subst shape
          refine ⟨granted, ?_, ?_⟩
          · exact stored_grant_of_committed keys pydantic grantOf userId state.db pending owner
              anchored
          · intro other txn present
            obtain ⟨old, oldFound, overtaken⟩ := Option.map_eq_some_iff.mp present
            rw [← overtaken]
            apply overtaken_grant
            exact invariant.held other old (finish_txns state.locking id other old oldFound).2

/-- In every run in which no job commits the write-back of an overtaken token,
the stored token is of the stored grant in every committed state. -/
theorem token_stays_with_its_grant (actions : List (Action pydantic)) (initial final : System)
    (quiet : Quiet initial) (grants : StoredGrant keys pydantic grantOf userId initial.db)
    (fresh : Meets (step keys pydantic settings grantOf userId) (FreshCommit pydantic) actions
      initial)
    (ran : runFrom (step keys pydantic settings grantOf userId) actions initial = some final) :
    StoredGrant keys pydantic grantOf userId final.db := by
  have start : GrantInvariant keys pydantic grantOf userId initial := by
    refine ⟨?_, grants, ?_⟩
    · rw [quiet.1]
      apply granted_idle
    · intro id txn present
      rw [quiet.1] at present
      cases present
  have invariant := run_keeps (step keys pydantic settings grantOf userId) (FreshCommit pydantic)
    (GrantInvariant keys pydantic grantOf userId)
    (fun state action next held meets stepped => grant_step_keeps keys pydantic settings grantOf
      userId state action next held meets stepped)
    actions initial final start fresh ran
  exact invariant.grants

/-- A job that refreshes, and after it a callback. -/
def refreshThenCallback : List (Action plainPydantic) :=
  callbackOf 0 firstToken ++
    (openJob 1 20001 ++ [.execute 1 (.refresh 0 refreshedToken)] ++
      List.replicate 7 (.execute 1 .request) ++ closeJob 1) ++
    callbackOf 2 secondToken

/-- The same, but the callback commits while the job is fetching. -/
def callbackInsideJob : List (Action plainPydantic) :=
  callbackOf 0 firstToken ++
    (openJob 1 20001 ++ [.execute 1 (.refresh 0 refreshedToken)] ++ callbackOf 2 secondToken ++
      List.replicate 7 (.execute 1 .request) ++ closeJob 1)

theorem token_stays_with_its_grant_in_turn :
    ∃ final, runFrom (step plainKeys plainPydantic {} plainGrant ⟨1⟩) refreshThenCallback
        (quietSystem provisionedUser) = some final ∧
      StoredGrant plainKeys plainPydantic plainGrant ⟨1⟩ final.db := by
  have returns : (runFrom (step plainKeys plainPydantic {} plainGrant ⟨1⟩) refreshThenCallback
      (quietSystem provisionedUser)).isSome = true := by decide +kernel
  obtain ⟨final, ran⟩ := Option.isSome_iff_exists.mp returns
  refine ⟨final, ran, ?_⟩
  apply token_stays_with_its_grant plainKeys plainPydantic {} plainGrant ⟨1⟩ refreshThenCallback
    (quietSystem provisionedUser) final ⟨rfl, rfl⟩ _ (by decide +kernel) ran
  intro row found
  cases found

/-- The old grant's refreshed token under the new grant's creation time. -/
theorem overtaken_token_replaces_newer_grant :
    ∃ final, runFrom (step plainKeys plainPydantic {} plainGrant ⟨1⟩) callbackInsideJob
        (quietSystem provisionedUser) = some final ∧
      ¬StoredGrant plainKeys plainPydantic plainGrant ⟨1⟩ final.db := by
  have mixed : ((runFrom (step plainKeys plainPydantic {} plainGrant ⟨1⟩) callbackInsideJob
      (quietSystem provisionedUser)).any fun final =>
        (final.db.schwabConnections.get? ⟨1⟩).any fun row =>
          match storedToken plainKeys plainPydantic final.db ⟨1⟩ row with
          | .ok token => decide (plainGrant token ≠ row.tokenCreatedAt)
          | .error _ => false) = true := by decide +kernel
  obtain ⟨present, mixed⟩ := (Option.any_eq_true_iff_get _ _).mp mixed
  obtain ⟨stored, mixed⟩ := (Option.any_eq_true_iff_get _ _).mp mixed
  refine ⟨_, (Option.some_get present).symm, ?_⟩
  intro grants
  obtain ⟨token, decrypted, anchored⟩ := grants _ (Option.some_get stored).symm
  rw [decrypted] at mixed
  exact of_decide_eq_true mixed anchored

end Morai.Worker.GrantOrder
