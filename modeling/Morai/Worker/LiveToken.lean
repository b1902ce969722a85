import Morai.Foundation.RotatingSecret
import Morai.Ingest.ExtractFills
import Morai.Worker.ConnectionTransactions

/-!
# The stored token and the vendor's live one

The vendor rotates a token outside the database transaction of the job that
presents it, and the write-back is part of that transaction. Jobs alone, no
callback: as long as every job that refreshed also commits, the stored token is
the live one whenever no job is open. Once such a job is rolled back, the only
token left is a retired one, and it stays the only one.
-/

namespace Morai.Worker.LiveToken

open Morai.Crypto Morai.Db Morai.Python Morai.Foundation.Runs Morai.Foundation.HeldLocks
open Morai.Foundation.RotatingSecret Morai.Ingest.ExtractFills Morai.Ingest.SyncWindows
open Morai.Vendor.Connections Morai.Worker.ConnectionTransactions

set_option autoImplicit false

/-- The connection's transactions beside the vendor; `refreshed` are the open
jobs whose client has refreshed. -/
structure TokenSystem where
  system : System
  issuer : Issuer JsonValue
  refreshed : Nat → Bool

/-- What a job's client presents when it refreshes. -/
def presentedToken (system : System) (id : Nat) : Option JsonValue :=
  match system.locking.txns id with
  | some (.fetching _ _ _ _ holder _) => wrappedToken holder.token
  | _ => none

section System

variable (keys : KeyService) (pydantic : Pydantic) (settings : Settings)
  (grantOf : JsonValue → Instant) (userId : Uuid)

/-- A refresh needs the live token; there is no callback; every other step is
the database's alone. -/
def tokenStep (state : TokenSystem) : Action pydantic → Option TokenSystem
  | .execute id (.refresh creationTimestamp token) => do
      let presented ← presentedToken state.system id
      let issuer ← state.issuer.rotate presented token.value
      let system ← step keys pydantic settings grantOf userId state.system
        (.execute id (.refresh creationTimestamp token))
      some ⟨system, issuer, Function.update state.refreshed id true⟩
  | .execute _ (.upsert _ _ _ _) => none
  | .execute id statement =>
      (step keys pydantic settings grantOf userId state.system (.execute id statement)).map
        fun system => { state with system := system }
  | .commit id =>
      (step keys pydantic settings grantOf userId state.system (.commit id)).map
        fun system => { state with
          system := system, refreshed := Function.update state.refreshed id false }
  | .rollback id =>
      (step keys pydantic settings grantOf userId state.system (.rollback id)).map
        fun system => { state with
          system := system, refreshed := Function.update state.refreshed id false }

/-- No job that refreshed is rolled back. -/
def NothingLost (state : TokenSystem) : Action pydantic → Prop
  | .rollback id => state.refreshed id = false
  | _ => True

instance (state : TokenSystem) : ∀ action, Decidable (NothingLost pydantic state action)
  | .rollback id => inferInstanceAs (Decidable (state.refreshed id = false))
  | .execute _ _ => isTrue trivial
  | .commit _ => isTrue trivial

def StoredIs (db : Database) (token : JsonValue) : Prop :=
  ∃ row, db.schwabConnections.get? userId = some row ∧
    storedToken keys pydantic db userId row = .ok token

/-- A version of the row whose token is good. -/
def RowGood (good : JsonValue → Prop) (db : Database) (row : SchwabConnection) : Prop :=
  row.userId = userId ∧ ∃ token, storedToken keys pydantic db userId row = .ok token ∧ good token

/-- Every token an open transaction has in hand is good, and it holds one of
its own exactly when it refreshed. -/
def TxnGood (good : JsonValue → Prop) (db : Database) (refreshed : Bool) : Txn → Prop
  | .waiting _ => refreshed = false
  | .locked _ => refreshed = false
  | .planned _ _ => refreshed = false
  | .fetching _ _ _ _ holder _ => holder.wrote = refreshed ∧
      ∃ token, wrappedToken holder.token = some token ∧ good token ∧
        (refreshed = true → pydantic.validateJson (jsonDumps token) = some token)
  | .persisted _ _ _ _ none => refreshed = false
  | .persisted _ _ _ _ (some row) => RowGood keys pydantic userId good db row
  | .stamped _ _ _ _ row => RowGood keys pydantic userId good db row
  | .callback _ => False

/-- Every token in sight is good; the stored one is out of sight while a job
that refreshed is open. -/
structure InSight (good : JsonValue → Prop) (state : TokenSystem) : Prop where
  granted : Granted Txn.holds state.system.locking
  opened : ∀ id, state.system.locking.txns id = none → state.refreshed id = false
  held : ∀ id txn, state.system.locking.txns id = some txn →
    TxnGood keys pydantic userId good state.system.db (state.refreshed id) txn
  row : ∃ row, state.system.db.schwabConnections.get? userId = some row
  stored : (∀ id, state.refreshed id = false) →
    ∃ token, StoredIs keys pydantic userId state.system.db token ∧ good token

/-! ## One statement -/

theorem opened_good (good : JsonValue → Prop) (db : Database) (holder : TokenHolder)
    (stored : ∃ token, StoredIs keys pydantic userId db token ∧ good token)
    (ran : openHolder keys pydantic userId db = .ok holder) :
    holder.wrote = false ∧ ∃ token, wrappedToken holder.token = some token ∧ good token := by
  obtain ⟨record, read, wrapped, idle⟩ := open_holder_ok keys pydantic userId db holder ran
  obtain ⟨row, found, readRow⟩ := read_connection_ok keys pydantic userId db record read
  obtain ⟨token, ⟨other, otherFound, decrypted⟩, goodToken⟩ := stored
  rw [found] at otherFound
  cases otherFound
  rw [read_row_token keys pydantic db userId row record readRow] at decrypted
  cases decrypted
  exact ⟨idle, record.token, wrapped, goodToken⟩

/-- A write-back puts the holder's token into the row. -/
theorem written_back_good (good : JsonValue → Prop) (nonce : Bytes) (holder : TokenHolder)
    (db after : Database) (old : SchwabConnection) (token : JsonValue)
    (stored : db.schwabConnections.get? userId = some old) (wrote : holder.wrote = true)
    (wrapped : wrappedToken holder.token = some token) (goodToken : good token)
    (readsBack : pydantic.validateJson (jsonDumps token) = some token)
    (ran : writeBack keys pydantic nonce userId holder db = .ok after) :
    ∃ row, after.schwabConnections.get? userId = some row ∧
      RowGood keys pydantic userId good db row := by
  cases write_back_ok keys pydantic nonce userId holder db after old stored ran with
  | inl unwritten =>
      rw [wrote] at unwritten
      cases unwritten.1
  | inr written =>
      obtain ⟨new, dek, keyVersion, _, validated, current, shape⟩ := written
      have same := validate_wrapped_token_eq pydantic holder.token new validated
      rw [wrapped] at same
      cases same
      have owner := connection_get_owner db userId old stored
      let row := setToken old (encryptToken keys userId dek nonce token) nonce keyVersion
      have owned : row.userId = userId := owner
      refine ⟨row, ?_, owned, token, ?_, goodToken⟩
      · rw [shape, store_connection_get]
        exact if_pos owned
      · exact stored_token_of_encrypted keys pydantic db userId row dek keyVersion token current
          readsBack rfl rfl

theorem stamped_good (good : JsonValue → Prop) (startedAt : Instant) (db : Database)
    (pending : Option SchwabConnection) (old row : SchwabConnection)
    (seen : (view db pending).schwabConnections.get? userId = some old)
    (oldGood : RowGood keys pydantic userId good db old)
    (found : (stampSynced userId startedAt (view db pending)).schwabConnections.get? userId =
      some row) :
    RowGood keys pydantic userId good db row := by
  rw [stamp_synced_get userId startedAt (view db pending) old seen] at found
  cases found
  exact oldGood

/-- A statement other than a refresh leaves its transaction with good tokens
only. -/
theorem execute_good (good : JsonValue → Prop) (db : Database) (before : Option Txn)
    (refreshed : Bool) (statement : Statement pydantic) (txn : Txn)
    (row : ∃ row, db.schwabConnections.get? userId = some row)
    (idle : before = none → refreshed = false)
    (held : ∀ old, before = some old → TxnGood keys pydantic userId good db refreshed old)
    (stored : refreshed = false → (∀ startedAt, before ≠ some (.waiting startedAt)) →
      before ≠ none → ∃ token, StoredIs keys pydantic userId db token ∧ good token)
    (noRefresh : ∀ creationTimestamp token, statement ≠ .refresh creationTimestamp token)
    (noCallback : ∀ draw token createdAt accountHash,
      statement ≠ .upsert draw token createdAt accountHash)
    (executed : execute keys pydantic settings grantOf userId db before statement = some txn) :
    TxnGood keys pydantic userId good db refreshed txn := by
  unfold execute at executed
  split at executed
  · cases executed
    exact idle rfl
  · exact absurd rfl (noCallback _ _ _ _)
  · cases executed
    have old := held _ rfl
    exact old
  · obtain ⟨plan, _, shape⟩ := Option.map_eq_some_iff.mp executed
    rw [← shape]
    have old := held _ rfl
    exact old
  · split at executed
    · rename_i holder ran
      cases executed
      have unrefreshed : refreshed = false := held _ rfl
      obtain ⟨idleHolder, token, wrapped, goodToken⟩ := opened_good keys pydantic userId good db
        holder (stored unrefreshed (by simp) (by simp)) ran
      refine ⟨idleHolder.trans unrefreshed.symm, token, wrapped, goodToken, ?_⟩
      intro did
      rw [unrefreshed] at did
      cases did
    · cases executed
  · exact absurd rfl (noRefresh _ _)
  · cases executed
    have old := held _ rfl
    exact old
  · rename_i startedAt plan requested holder overtaken nonce
    split at executed
    · rename_i after ran
      cases executed
      obtain ⟨flag, token, wrapped, goodToken, readsBack⟩ := held _ rfl
      cases wrote : holder.wrote with
      | false =>
          simp only [Bool.false_eq_true, if_false, Bool.false_and]
          exact flag.symm.trans wrote
      | true =>
          obtain ⟨old, oldStored⟩ := row
          obtain ⟨new, found, newGood⟩ := written_back_good keys pydantic userId good nonce holder db
            after old token oldStored wrote wrapped goodToken (readsBack (flag.symm.trans wrote)) ran
          simp only [if_true, found]
          exact newGood
    · cases executed
  · rename_i startedAt plan requested stale pending
    obtain ⟨new, found, shape⟩ := Option.map_eq_some_iff.mp executed
    rw [← shape]
    have old := held _ rfl
    cases pending with
    | none =>
        obtain ⟨token, ⟨kept, keptStored, decrypted⟩, goodToken⟩ := stored old (by simp) (by simp)
        exact stamped_good keys pydantic userId good startedAt db none kept new keptStored
          ⟨connection_get_owner db userId kept keptStored, token, decrypted, goodToken⟩ found
    | some version =>
        have seen : (view db (some version)).schwabConnections.get? userId = some version := by
          rw [view, store_connection_get, if_pos old.1]
        exact stamped_good keys pydantic userId good startedAt db (some version) version new seen
          old found
  · cases executed

/-! ## One step -/

/-- The step is a refresh, another statement, a commit or a rollback. -/
theorem token_step_cases (state next : TokenSystem) (action : Action pydantic)
    (stepped : tokenStep keys pydantic settings grantOf userId state action = some next) :
    (∃ id creationTimestamp token presented issuer system,
        action = .execute id (.refresh creationTimestamp token) ∧
        presentedToken state.system id = some presented ∧
        state.issuer.rotate presented token.value = some issuer ∧
        step keys pydantic settings grantOf userId state.system action = some system ∧
        next = ⟨system, issuer, Function.update state.refreshed id true⟩) ∨
      (∃ id statement system, action = .execute id statement ∧
        (∀ creationTimestamp token, statement ≠ .refresh creationTimestamp token) ∧
        (∀ draw token createdAt accountHash,
          statement ≠ .upsert draw token createdAt accountHash) ∧
        step keys pydantic settings grantOf userId state.system action = some system ∧
        next = { state with system := system }) ∨
      (∃ id system, action = .commit id ∧
        step keys pydantic settings grantOf userId state.system action = some system ∧
        next = { state with
          system := system, refreshed := Function.update state.refreshed id false }) ∨
      ∃ id system, action = .rollback id ∧
        step keys pydantic settings grantOf userId state.system action = some system ∧
        next = { state with
          system := system, refreshed := Function.update state.refreshed id false } := by
  cases action with
  | commit id =>
      obtain ⟨system, ran, shape⟩ := Option.map_eq_some_iff.mp stepped
      exact Or.inr (Or.inr (Or.inl ⟨id, system, rfl, ran, shape.symm⟩))
  | rollback id =>
      obtain ⟨system, ran, shape⟩ := Option.map_eq_some_iff.mp stepped
      exact Or.inr (Or.inr (Or.inr ⟨id, system, rfl, ran, shape.symm⟩))
  | execute id statement =>
      cases statement with
      | refresh creationTimestamp token =>
          obtain ⟨presented, shown, stepped⟩ := Option.bind_eq_some_iff.mp stepped
          obtain ⟨issuer, rotated, stepped⟩ := Option.bind_eq_some_iff.mp stepped
          obtain ⟨system, ran, made⟩ := Option.bind_eq_some_iff.mp stepped
          exact Or.inl ⟨id, creationTimestamp, token, presented, issuer, system, rfl, shown, rotated,
            ran, (Option.some.inj made).symm⟩
      | upsert draw token createdAt accountHash => cases stepped
      | _ =>
          obtain ⟨system, ran, shape⟩ := Option.map_eq_some_iff.mp stepped
          refine Or.inr (Or.inl ⟨id, _, system, rfl, ?_, ?_, ran, shape.symm⟩) <;>
            simp

theorem refreshed_locked (good : JsonValue → Prop) (db : Database) (txn : Txn)
    (held : TxnGood keys pydantic userId good db true txn) : txn.holds .advisory = true := by
  cases txn with
  | waiting startedAt => cases held
  | callback pending => cases held
  | _ => rfl

/-- Beside a job that has the lock, no other job can have refreshed. -/
theorem nobody_refreshed (good : JsonValue → Prop) (state : TokenSystem)
    (inSight : InSight keys pydantic userId good state) (id : Nat) (txn : Txn)
    (found : state.system.locking.txns id = some txn) (locked : txn.holds .advisory = true)
    (other : Nat) (apart : other ≠ id) : state.refreshed other = false := by
  cases did : state.refreshed other with
  | false => rfl
  | true =>
      cases present : state.system.locking.txns other with
      | none => exact absurd did (by rw [inSight.opened other present]; simp)
      | some holder =>
          have held := inSight.held other holder present
          rw [did] at held
          have same := granted_exclusive Txn.holds state.system.locking inSight.granted other id
            holder txn .advisory present (refreshed_locked keys pydantic userId good _ holder held)
            found locked
          exact absurd same apart

theorem other_waiting (good : JsonValue → Prop) (state : TokenSystem)
    (inSight : InSight keys pydantic userId good state) (id other : Nat) (txn holder : Txn)
    (found : state.system.locking.txns id = some txn) (locked : txn.holds .advisory = true)
    (present : state.system.locking.txns other = some holder) (apart : other ≠ id) :
    ∃ startedAt, holder = .waiting startedAt := by
  have held := inSight.held other holder present
  have free : holder.holds .advisory = false := by
    cases taken : holder.holds .advisory with
    | false => rfl
    | true =>
        exact absurd (granted_exclusive Txn.holds state.system.locking inSight.granted other id
          holder txn .advisory present taken found locked) apart
  cases holder with
  | waiting startedAt => exact ⟨startedAt, rfl⟩
  | callback pending => exact held.elim
  | _ => cases free

/-- A statement that is no refresh keeps every token in sight good. -/
theorem execute_in_sight (good : JsonValue → Prop) (state : TokenSystem) (system : System)
    (id : Nat) (statement : Statement pydantic)
    (inSight : InSight keys pydantic userId good state)
    (noRefresh : ∀ creationTimestamp token, statement ≠ .refresh creationTimestamp token)
    (noCallback : ∀ draw token createdAt accountHash,
      statement ≠ .upsert draw token createdAt accountHash)
    (ran : step keys pydantic settings grantOf userId state.system (.execute id statement) =
      some system) :
    InSight keys pydantic userId good { state with system := system } := by
  have granted := step_granted keys pydantic settings grantOf userId state.system _ system
    inSight.granted ran
  obtain ⟨txn, executed, advanced, sameDb, _⟩ := execute_step keys pydantic settings grantOf userId
    state.system system id statement ran
  have stored : state.refreshed id = false →
      (∀ startedAt, state.system.locking.txns id ≠ some (.waiting startedAt)) →
      state.system.locking.txns id ≠ none →
      ∃ token, StoredIs keys pydantic userId state.system.db token ∧ good token := by
    intro unrefreshed notWaiting notNone
    obtain ⟨old, found⟩ := Option.ne_none_iff_exists'.mp notNone
    have held := inSight.held id old found
    have locked : old.holds .advisory = true := by
      cases old with
      | waiting startedAt => exact absurd found (notWaiting startedAt)
      | callback pending => exact held.elim
      | _ => rfl
    apply inSight.stored
    intro other
    by_cases same : other = id
    · exact same ▸ unrefreshed
    · exact nobody_refreshed keys pydantic userId good state inSight id old found locked other same
  have moved := execute_good keys pydantic settings grantOf userId good state.system.db
    (state.system.locking.txns id) (state.refreshed id) statement txn inSight.row
    (inSight.opened id) (inSight.held id) stored noRefresh noCallback executed
  have positions := (advance_eq Txn.holds state.system.locking system.locking id txn advanced).2.1
  refine ⟨granted, ?_, ?_, ?_, ?_⟩
  · intro other absent
    apply inSight.opened
    rw [positions] at absent
    by_cases same : other = id
    · rw [same, Function.update_self] at absent
      cases absent
    · rwa [Function.update_of_ne same] at absent
  · intro other found present
    show TxnGood keys pydantic userId good system.db (state.refreshed other) found
    rw [sameDb]
    cases advance_txns Txn.holds state.system.locking system.locking id other txn found advanced
        present with
    | inl moving =>
        obtain ⟨rfl, rfl⟩ := moving
        exact moved
    | inr unmoved => exact inSight.held other found unmoved.2
  · show ∃ row, system.db.schwabConnections.get? userId = some row
    rw [sameDb]
    exact inSight.row
  · show _ → ∃ token, StoredIs keys pydantic userId system.db token ∧ good token
    rw [sameDb]
    exact inSight.stored

/-- A job that commits makes its version of the row the stored one, and then
no open job has refreshed. -/
theorem commit_in_sight (good : JsonValue → Prop) (state : TokenSystem) (system : System)
    (id : Nat) (inSight : InSight keys pydantic userId good state)
    (ran : step keys pydantic settings grantOf userId state.system (.commit id) = some system) :
    (∀ other, Function.update state.refreshed id false other = false) ∧
      InSight keys pydantic userId good { state with
        system := system, refreshed := Function.update state.refreshed id false } := by
  have granted := step_granted keys pydantic settings grantOf userId state.system _ system
    inSight.granted ran
  cases commit_step keys pydantic settings grantOf userId state.system system id ran with
  | inr callback =>
      obtain ⟨pending, found, _⟩ := callback
      exact (inSight.held id _ found).elim
  | inl job =>
      obtain ⟨startedAt, plan, requested, stale, pending, found, shape⟩ := job
      obtain ⟨owner, token, decrypted, goodToken⟩ := inSight.held id _ found
      have stored : (storeConnection state.system.db pending).schwabConnections.get? userId =
          some pending := by
        rw [store_connection_get]
        exact if_pos owner
      have nobody : ∀ other, Function.update state.refreshed id false other = false := by
        intro other
        by_cases same : other = id
        · rw [same, Function.update_self]
        · rw [Function.update_of_ne same]
          exact nobody_refreshed keys pydantic userId good state inSight id _ found rfl other same
      subst shape
      refine ⟨nobody, granted, fun other _ => nobody other, ?_, ⟨pending, stored⟩, ?_⟩
      · intro other txn present
        have open' := finish_txns state.system.locking id other txn present
        obtain ⟨begun, waiting⟩ := other_waiting keys pydantic userId good state inSight id other _
          txn found rfl open'.2 open'.1
        rw [waiting]
        exact nobody other
      · intro _
        exact ⟨token, ⟨pending, stored, decrypted⟩, goodToken⟩

/-- Rolling back a job that has not refreshed loses nothing. -/
theorem rollback_in_sight (good : JsonValue → Prop) (state : TokenSystem) (system : System)
    (id : Nat) (inSight : InSight keys pydantic userId good state)
    (unrefreshed : state.refreshed id = false)
    (ran : step keys pydantic settings grantOf userId state.system (.rollback id) = some system) :
    Function.update state.refreshed id false = state.refreshed ∧
      InSight keys pydantic userId good { state with
        system := system, refreshed := Function.update state.refreshed id false } := by
  have same : Function.update state.refreshed id false = state.refreshed :=
    Function.update_eq_self_iff.mpr unrefreshed.symm
  have shape := rollback_step keys pydantic settings grantOf userId state.system system id ran
  subst shape
  rw [same]
  refine ⟨rfl, granted_finish Txn.holds state.system.locking id inSight.granted, ?_, ?_,
    inSight.row, inSight.stored⟩
  · intro other absent
    by_cases own : other = id
    · exact own ▸ unrefreshed
    · apply inSight.opened
      simpa [finish, Function.update_of_ne own] using absent
  · intro other txn present
    exact inSight.held other txn (finish_txns state.system.locking id other txn present).2

/-! ## While nothing is lost -/

/-- Every token in sight is the live one; under a job that refreshed the
stored one is retired. -/
structure Live (state : TokenSystem) : Prop where
  inSight : InSight keys pydantic userId (fun token => token = state.issuer.live) state
  overtaken : ∀ id, state.refreshed id = true →
    ∃ token, StoredIs keys pydantic userId state.system.db token ∧ token ∈ state.issuer.retired

/-- What a job presents is in sight. -/
theorem presented_good (good : JsonValue → Prop) (state : TokenSystem)
    (inSight : InSight keys pydantic userId good state) (id : Nat) (presented : JsonValue)
    (shown : presentedToken state.system id = some presented) :
    good presented ∧ ∃ txn, state.system.locking.txns id = some txn ∧
      txn.holds .advisory = true := by
  unfold presentedToken at shown
  split at shown
  · rename_i startedAt plan requested remaining holder overtaken found
    obtain ⟨_, token, wrapped, goodToken, _⟩ := inSight.held id _ found
    rw [wrapped] at shown
    cases shown
    exact ⟨goodToken, _, found, rfl⟩
  · cases shown

theorem execute_refresh_ok (db : Database) (before : Option Txn) (creationTimestamp : Int)
    (token : StorableToken pydantic) (txn : Txn)
    (executed : execute keys pydantic settings grantOf userId db before
      (.refresh creationTimestamp token) = some txn) :
    ∃ startedAt plan requested remaining holder overtaken,
      before = some (.fetching startedAt plan requested remaining holder overtaken) ∧
        txn = .fetching startedAt plan requested remaining
          (holder.write (wrapToken creationTimestamp token.value)) overtaken := by
  cases before with
  | none => cases executed
  | some old =>
      cases old with
      | fetching startedAt plan requested remaining holder overtaken =>
          simp only [execute] at executed
          split_ifs at executed
          cases executed
          exact ⟨startedAt, plan, requested, remaining, holder, overtaken, rfl, rfl⟩
      | _ => cases executed

theorem refresh_live (state : TokenSystem) (system : System) (id : Nat) (creationTimestamp : Int)
    (token : StorableToken pydantic) (presented : JsonValue) (issuer : Issuer JsonValue)
    (live : Live keys pydantic userId state)
    (shown : presentedToken state.system id = some presented)
    (rotated : state.issuer.rotate presented token.value = some issuer)
    (ran : step keys pydantic settings grantOf userId state.system
      (.execute id (.refresh creationTimestamp token)) = some system) :
    Live keys pydantic userId ⟨system, issuer, Function.update state.refreshed id true⟩ := by
  obtain ⟨_, _, newLive, _⟩ := rotate_ok state.issuer issuer presented token.value rotated
  obtain ⟨_, txn, found, locked⟩ := presented_good keys pydantic userId _ state live.inSight id
    presented shown
  have granted := step_granted keys pydantic settings grantOf userId state.system _ system
    live.inSight.granted ran
  obtain ⟨moved, executed, advanced, sameDb, _⟩ := execute_step keys pydantic settings grantOf userId
    state.system system id _ ran
  have positions := (advance_eq Txn.holds state.system.locking system.locking id moved advanced).2.1
  -- the old stored token is retired by this rotation or was before it
  have retired : ∃ old, StoredIs keys pydantic userId state.system.db old ∧ old ∈ issuer.retired := by
    cases did : state.refreshed id with
    | true =>
        obtain ⟨old, stored, before⟩ := live.overtaken id did
        exact ⟨old, stored, rotate_keeps_retired _ _ _ _ old rotated before⟩
    | false =>
        obtain ⟨old, stored, isLive⟩ := live.inSight.stored (by
          intro other
          by_cases same : other = id
          · exact same ▸ did
          · exact nobody_refreshed keys pydantic userId _ state live.inSight id txn found locked
              other same)
        exact ⟨old, stored, isLive ▸ rotate_retires_live _ _ _ _ rotated⟩
  refine ⟨⟨granted, ?_, ?_, ?_, ?_⟩, ?_⟩
  · intro other absent
    show Function.update state.refreshed id true other = false
    change system.locking.txns other = none at absent
    rw [positions] at absent
    by_cases same : other = id
    · rw [same, Function.update_self] at absent
      cases absent
    · rw [Function.update_of_ne same] at absent ⊢
      exact live.inSight.opened other absent
  · intro other current present
    show TxnGood keys pydantic userId _ system.db (Function.update state.refreshed id true other)
      current
    cases advance_txns Txn.holds state.system.locking system.locking id other moved current advanced
        present with
    | inl moving =>
        obtain ⟨rfl, rfl⟩ := moving
        rw [Function.update_self]
        obtain ⟨startedAt, plan, requested, remaining, holder, overtaken, _, shape⟩ :=
          execute_refresh_ok keys pydantic settings grantOf userId state.system.db _
            creationTimestamp token current executed
        rw [shape]
        exact ⟨rfl, token.value, wrapped_token_wrap _ _, newLive.symm, fun _ => token.reads_back⟩
    | inr unmoved =>
        obtain ⟨begun, waiting⟩ := other_waiting keys pydantic userId _ state live.inSight id other
          txn current found locked unmoved.2 unmoved.1
        rw [waiting, Function.update_of_ne unmoved.1]
        exact nobody_refreshed keys pydantic userId _ state live.inSight id txn found locked other
          unmoved.1
  · show ∃ row, system.db.schwabConnections.get? userId = some row
    rw [sameDb]
    exact live.inSight.row
  · intro nobody
    have own := nobody id
    simp only [Function.update_self] at own
    cases own
  · intro _ _
    show ∃ old, StoredIs keys pydantic userId system.db old ∧ old ∈ issuer.retired
    rw [sameDb]
    exact retired

theorem live_step (state : TokenSystem) (action : Action pydantic) (next : TokenSystem)
    (live : Live keys pydantic userId state) (kept : NothingLost pydantic state action)
    (stepped : tokenStep keys pydantic settings grantOf userId state action = some next) :
    Live keys pydantic userId next := by
  rcases token_step_cases keys pydantic settings grantOf userId state next action stepped with
    ⟨id, creationTimestamp, token, presented, issuer, system, rfl, shown, rotated, ran, rfl⟩ |
    ⟨id, statement, system, rfl, noRefresh, noCallback, ran, rfl⟩ | ⟨id, system, rfl, ran, rfl⟩ |
    ⟨id, system, rfl, ran, rfl⟩
  · exact refresh_live keys pydantic settings grantOf userId state system id creationTimestamp token
      presented issuer live shown rotated ran
  · have sameDb := (execute_step keys pydantic settings grantOf userId state.system system id
      statement ran).choose_spec.2.2.1
    refine ⟨execute_in_sight keys pydantic settings grantOf userId _ state system id statement
      live.inSight noRefresh noCallback ran, ?_⟩
    intro other did
    show ∃ token, StoredIs keys pydantic userId system.db token ∧ token ∈ state.issuer.retired
    rw [sameDb]
    exact live.overtaken other did
  · obtain ⟨nobody, inSight⟩ := commit_in_sight keys pydantic settings grantOf userId _ state system
      id live.inSight ran
    refine ⟨inSight, ?_⟩
    intro other did
    exact absurd did (by simp [nobody other])
  · obtain ⟨same, inSight⟩ := rollback_in_sight keys pydantic settings grantOf userId _ state system
      id live.inSight kept ran
    refine ⟨inSight, ?_⟩
    intro other did
    rw [rollback_step keys pydantic settings grantOf userId state.system system id ran]
    exact live.overtaken other (same ▸ did)

/-! ## Once something is lost -/

/-- Every token left is retired. -/
structure Lost (state : TokenSystem) : Prop where
  inSight : InSight keys pydantic userId (fun token => token ∈ state.issuer.retired) state
  nobody : ∀ id, state.refreshed id = false

/-- Rolling back a job that refreshed leaves its predecessor's token behind. -/
theorem live_breaks (state : TokenSystem) (action : Action pydantic) (next : TokenSystem)
    (live : Live keys pydantic userId state) (lost : ¬NothingLost pydantic state action)
    (stepped : tokenStep keys pydantic settings grantOf userId state action = some next) :
    Lost keys pydantic userId next := by
  cases action with
  | execute id statement => exact absurd trivial lost
  | commit id => exact absurd trivial lost
  | rollback id =>
      obtain ⟨system, ran, rfl⟩ := Option.map_eq_some_iff.mp stepped
      have did : state.refreshed id = true := by
        cases flag : state.refreshed id with
        | true => rfl
        | false => exact absurd flag lost
      obtain ⟨txn, found⟩ : ∃ txn, state.system.locking.txns id = some txn := by
        cases found : state.system.locking.txns id with
        | none => exact absurd did (by rw [live.inSight.opened id found]; simp)
        | some txn => exact ⟨txn, rfl⟩
      have locked := refreshed_locked keys pydantic userId _ _ txn
        (did ▸ live.inSight.held id txn found)
      have nobody : ∀ other, Function.update state.refreshed id false other = false := by
        intro other
        by_cases same : other = id
        · rw [same, Function.update_self]
        · rw [Function.update_of_ne same]
          exact nobody_refreshed keys pydantic userId _ state live.inSight id txn found locked other
            same
      have shape := rollback_step keys pydantic settings grantOf userId state.system system id ran
      subst shape
      refine ⟨⟨granted_finish Txn.holds state.system.locking id live.inSight.granted,
        fun other _ => nobody other, ?_, live.inSight.row, fun _ => live.overtaken id did⟩, nobody⟩
      intro other current present
      have open' := finish_txns state.system.locking id other current present
      obtain ⟨begun, waiting⟩ := other_waiting keys pydantic userId _ state live.inSight id other txn
        current found locked open'.2 open'.1
      rw [waiting]
      exact nobody other

/-- No refresh succeeds any more, so nothing mends it. -/
theorem lost_step (state : TokenSystem) (action : Action pydantic) (next : TokenSystem)
    (lost : Lost keys pydantic userId state)
    (stepped : tokenStep keys pydantic settings grantOf userId state action = some next) :
    Lost keys pydantic userId next := by
  rcases token_step_cases keys pydantic settings grantOf userId state next action stepped with
    ⟨id, creationTimestamp, token, presented, issuer, system, rfl, shown, rotated, ran, rfl⟩ |
    ⟨id, statement, system, rfl, noRefresh, noCallback, ran, rfl⟩ | ⟨id, system, rfl, ran, rfl⟩ |
    ⟨id, system, rfl, ran, rfl⟩
  · have retired := (presented_good keys pydantic userId _ state lost.inSight id presented shown).1
    rw [rotate_retired state.issuer presented token.value retired] at rotated
    cases rotated
  · exact ⟨execute_in_sight keys pydantic settings grantOf userId _ state system id statement
      lost.inSight noRefresh noCallback ran, lost.nobody⟩
  · obtain ⟨nobody, inSight⟩ := commit_in_sight keys pydantic settings grantOf userId _ state system
      id lost.inSight ran
    exact ⟨inSight, nobody⟩
  · obtain ⟨same, inSight⟩ := rollback_in_sight keys pydantic settings grantOf userId _ state system
      id lost.inSight (lost.nobody id) ran
    exact ⟨inSight, fun other => (congrFun same other).trans (lost.nobody other)⟩

/-- No job is open. -/
def Idle (state : TokenSystem) : Prop := ∀ id, state.system.locking.txns id = none

/-- Before any job: the live token is the stored one. -/
structure Connected (state : TokenSystem) : Prop where
  quiet : Quiet state.system
  nobody : ∀ id, state.refreshed id = false
  stored : StoredIs keys pydantic userId state.system.db state.issuer.live

theorem connected_live (state : TokenSystem) (connected : Connected keys pydantic userId state) :
    Live keys pydantic userId state := by
  have idle : ∀ id, state.system.locking.txns id = none := by
    rw [connected.quiet.1]
    exact fun _ => rfl
  obtain ⟨row, found, decrypted⟩ := connected.stored
  refine ⟨⟨?_, fun id _ => connected.nobody id, ?_, ⟨row, found⟩, ?_⟩, ?_⟩
  · rw [connected.quiet.1]
    apply granted_idle
  · intro id txn present
    rw [idle id] at present
    cases present
  · exact fun _ => ⟨_, ⟨row, found, decrypted⟩, rfl⟩
  · intro id did
    rw [connected.nobody id] at did
    cases did

/-- With no job open, the stored token is the live one exactly when no job was
rolled back after its client had refreshed; and as long as none was, no client
ever presents a token that has been rotated away. -/
theorem stored_token_is_live_iff (actions : List (Action pydantic)) (initial final : TokenSystem)
    (connected : Connected keys pydantic userId initial)
    (ran : runFrom (tokenStep keys pydantic settings grantOf userId) actions initial = some final) :
    (Idle final → (StoredIs keys pydantic userId final.system.db final.issuer.live ↔
      Meets (tokenStep keys pydantic settings grantOf userId) (NothingLost pydantic) actions
        initial)) ∧
      (Meets (tokenStep keys pydantic settings grantOf userId) (NothingLost pydantic) actions
        initial → ∀ id presented, presentedToken final.system id = some presented →
          presented = final.issuer.live) := by
  have split := run_splits (tokenStep keys pydantic settings grantOf userId) (NothingLost pydantic)
    (Live keys pydantic userId) (Lost keys pydantic userId)
    (live_step keys pydantic settings grantOf userId)
    (live_breaks keys pydantic settings grantOf userId)
    (lost_step keys pydantic settings grantOf userId) actions initial final
    (connected_live keys pydantic userId initial connected) ran
  cases split with
  | inl kept =>
      obtain ⟨meets, live⟩ := kept
      constructor
      · intro idle
        obtain ⟨token, stored, isLive⟩ := live.inSight.stored
          fun id => live.inSight.opened id (idle id)
        exact iff_of_true (isLive ▸ stored) meets
      · intro _ id presented shown
        exact (presented_good keys pydantic userId _ final live.inSight id presented shown).1
  | inr broken =>
      obtain ⟨breaks, lost⟩ := broken
      refine ⟨?_, fun meets => absurd meets breaks⟩
      intro _
      apply iff_of_false _ breaks
      intro alive
      obtain ⟨token, stored, retired⟩ := lost.inSight.stored lost.nobody
      obtain ⟨row, found, decrypted⟩ := alive
      obtain ⟨other, otherFound, otherDecrypted⟩ := stored
      rw [found] at otherFound
      cases otherFound
      rw [decrypted] at otherDecrypted
      cases otherDecrypted
      exact final.issuer.fresh retired

end System

/-! ## A job that fails after its refresh -/

theorem token_step_leaves_closed (keys : KeyService) (pydantic : Pydantic) (settings : Settings)
    (grantOf : JsonValue → Instant) (userId : Uuid) (state : TokenSystem)
    (action : Action pydantic) (next : TokenSystem) (other : Nat)
    (closed : state.system.locking.txns other = none) (apart : other ≠ action.id)
    (stepped : tokenStep keys pydantic settings grantOf userId state action = some next) :
    next.system.locking.txns other = none := by
  have inner : step keys pydantic settings grantOf userId state.system action =
      some next.system := by
    rcases token_step_cases keys pydantic settings grantOf userId state next action stepped with
      ⟨_, _, _, _, _, _, _, _, _, ran, rfl⟩ | ⟨_, _, _, _, _, _, ran, rfl⟩ | ⟨_, _, _, ran, rfl⟩ |
      ⟨_, _, _, ran, rfl⟩ <;> exact ran
  exact step_leaves_closed keys pydantic settings grantOf userId state.system action next.system
    other closed apart inner

/-- A run of one transaction's actions that ends with it closed ends idle. -/
theorem sole_run_idle (keys : KeyService) (pydantic : Pydantic) (settings : Settings)
    (grantOf : JsonValue → Instant) (userId : Uuid) (id : Nat) (actions : List (Action pydantic))
    (initial final : TokenSystem) (own : ∀ action ∈ actions, action.id = id)
    (idle : ∀ other, other ≠ id → initial.system.locking.txns other = none)
    (closed : final.system.locking.txns id = none)
    (ran : runFrom (tokenStep keys pydantic settings grantOf userId) actions initial =
      some final) : Idle final := by
  intro other
  by_cases same : other = id
  · exact same ▸ closed
  · have start := idle other same
    clear idle
    induction actions generalizing initial with
    | nil =>
        cases ran
        exact start
    | cons action rest ih =>
        obtain ⟨next, stepped, later⟩ := run_from_cons _ action rest initial final ran
        apply ih next (fun each member => own each (List.mem_cons_of_mem _ member)) later
        apply token_step_leaves_closed keys pydantic settings grantOf userId initial action next other
          start _ stepped
        rw [own action List.mem_cons_self]
        exact same

def connectedUser : Database :=
  storeConnection provisionedUser
    (excludedRow plainKeys ⟨[1], [2]⟩ ⟨1⟩ ⟨.str "first", 20000 * dayMicros⟩ "hash" [7] 1)

def connectedSystem : TokenSystem :=
  ⟨quietSystem connectedUser, .first (.str "first"), fun _ => false⟩

theorem connected_system_connected : Connected plainKeys plainPydantic ⟨1⟩ connectedSystem :=
  ⟨⟨rfl, rfl⟩, fun _ => rfl, _, rfl, by decide +kernel⟩

/-- One job, refreshed and committed. -/
def refreshedJob : List (Action plainPydantic) :=
  openJob 1 20001 ++ [.execute 1 (.refresh 0 refreshedToken)] ++
    List.replicate 7 (.execute 1 .request) ++ closeJob 1

theorem stored_token_is_live_iff_committed :
    ∃ final, runFrom (tokenStep plainKeys plainPydantic {} plainGrant ⟨1⟩) refreshedJob
        connectedSystem = some final ∧
      StoredIs plainKeys plainPydantic ⟨1⟩ final.system.db final.issuer.live := by
  have returns : ((runFrom (tokenStep plainKeys plainPydantic {} plainGrant ⟨1⟩) refreshedJob
      connectedSystem).any fun final => (final.system.locking.txns 1).isNone) = true := by
    decide +kernel
  obtain ⟨present, closed⟩ := (Option.any_eq_true_iff_get _ _).mp returns
  have ran := (Option.some_get present).symm
  have idle := sole_run_idle plainKeys plainPydantic {} plainGrant ⟨1⟩ 1 refreshedJob connectedSystem
    _ (by decide +kernel) (fun _ _ => rfl) (Option.isNone_iff_eq_none.mp closed) ran
  exact ⟨_, ran, ((stored_token_is_live_iff plainKeys plainPydantic {} plainGrant ⟨1⟩ refreshedJob
    connectedSystem _ connected_system_connected ran).1 idle).mpr (by decide +kernel)⟩

/-- The same job, rolled back while it fetches. -/
def failedJob : List (Action plainPydantic) :=
  openJob 1 20001 ++ [.execute 1 (.refresh 0 refreshedToken), .execute 1 .request, .rollback 1]

/-- The job is closed and the stored token decrypts to another value than the
live one. -/
def storesAnother (final : TokenSystem) : Bool :=
  (final.system.locking.txns 1).isNone &&
    (final.system.db.schwabConnections.get? ⟨1⟩).any fun row =>
      match storedToken plainKeys plainPydantic final.system.db ⟨1⟩ row with
      | .ok token => decide (token ≠ final.issuer.live)
      | .error _ => false

theorem stores_another_spec (final : TokenSystem) (another : storesAnother final = true) :
    final.system.locking.txns 1 = none ∧
      ¬StoredIs plainKeys plainPydantic ⟨1⟩ final.system.db final.issuer.live := by
  obtain ⟨closed, stale⟩ := Bool.and_eq_true_iff.mp another
  refine ⟨Option.isNone_iff_eq_none.mp closed, ?_⟩
  intro alive
  obtain ⟨row, found, decrypted⟩ := alive
  simp only [found, Option.any_some, decrypted, ne_eq, not_true_eq_false, decide_false,
    Bool.false_eq_true] at stale

theorem failed_job_keeps_a_retired_token :
    ∃ final, runFrom (tokenStep plainKeys plainPydantic {} plainGrant ⟨1⟩) failedJob
        connectedSystem = some final ∧ Idle final ∧
      ¬StoredIs plainKeys plainPydantic ⟨1⟩ final.system.db final.issuer.live := by
  have returns : ((runFrom (tokenStep plainKeys plainPydantic {} plainGrant ⟨1⟩) failedJob
      connectedSystem).any storesAnother) = true := by decide +kernel
  obtain ⟨present, another⟩ := (Option.any_eq_true_iff_get _ _).mp returns
  obtain ⟨closed, stale⟩ := stores_another_spec _ another
  have ran := (Option.some_get present).symm
  have idle := sole_run_idle plainKeys plainPydantic {} plainGrant ⟨1⟩ 1 failedJob
    connectedSystem _ (by decide +kernel) (fun _ _ => rfl) closed ran
  exact ⟨_, ran, idle, stale⟩

end Morai.Worker.LiveToken
