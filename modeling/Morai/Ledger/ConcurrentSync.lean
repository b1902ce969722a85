import Morai.Foundation.HeldLocks
import Morai.Foundation.Runs
import Morai.Ledger.ScopedReplay

/-!
# Concurrent derivations of one user

Transactions of one user call `sync_events` any number of times and end in a
commit or a rollback. Their statements interleave under READ COMMITTED with
each other and with transactions that commit fills and legs: a statement sees
what is committed when it starts and what its own transaction has written.
The first statement of a call takes the user's advisory lock, and only the
end of the transaction gives it back. `events` has no unique constraint.
-/

namespace Morai.Ledger.ConcurrentSync

open Morai.Crypto Morai.Db Morai.Python Morai.Foundation.PrimaryKey Morai.Foundation.HeldLocks
open Morai.Foundation.Runs Morai.Foundation.ReadCompareSkip
open Morai.Ledger.Fills Morai.Ledger.Events Morai.Ledger.Pairing Morai.Ledger.ResolveQuery
open Morai.Ledger.SyncEvents Morai.Ledger.ScopedReplay

set_option autoImplicit false

/-- What a call has read when it compares: the resolutions, the fills of its
scope and the stored events. -/
structure Reading where
  resolutions : Resolutions
  fills : List FillRecord
  existing : List EventRecord

/-- A call, by the last of its statements that returned. -/
inductive Stage where
  | outside
  | locked (call : SyncCall)
  | resolved (call : SyncCall) (resolutions : Resolutions)
  | filled (call : SyncCall) (resolutions : Resolutions) (fills : List FillRecord)
  | compared (call : SyncCall) (reading : Reading)
  | inserting (call : SyncCall) (dek : Bytes) (keyVersion : Int)
      (chunks : List (List (EventWrite × Nat)))

/-- An open transaction. Its session holds the rows it added itself;
`readings` records what its inserts were derived from. -/
structure Txn where
  session : EventSession
  locked : Bool
  readings : List Reading
  stage : Stage

/-- `pg_advisory_xact_lock(hashtext(:uid))`. -/
inductive Lock where
  | advisory
  deriving DecidableEq

instance : Fintype Lock := ⟨{.advisory}, by intro lock; cases lock; decide⟩

def Txn.holds (txn : Txn) : Lock → Bool
  | .advisory => txn.locked

/-- `begin` opens the transaction and sets its RLS context; the others are
the statements of one call, in the order the code issues them. -/
inductive Statement where
  | begin
  | lock (call : SyncCall)
  | resolve
  | readFills
  | readEvents
  | readKey
  | insertChunk

/-- The rows the transaction's next query sees of its own: a query flushes
what is pending. -/
def ownRows (session : EventSession) : List Event := session.stored ++ session.pending

def view (db : Database) (session : EventSession) : Database :=
  { db with events := db.events ++ ownRows session }

variable (keys : KeyService) (sha256 : String → String) (userId : Uuid)

def Reading.derivation (reading : Reading) : Derivation :=
  deriveEvents sha256 reading.fills reading.resolutions

def Reading.drafts (reading : Reading) : List EventWrite :=
  draftsOf reading.existing (reading.derivation sha256).events

/-- One statement on the committed database; `none` when the transaction is
not at that point. A call that raises is over, and what becomes of the
transaction is up to its caller. -/
def execute (db : Database) : Option Txn → Statement → Option Txn
  | none, .begin => some ⟨⟨[], []⟩, false, [], .outside⟩
  | some ⟨session, _, readings, .outside⟩, .lock call =>
      some ⟨session, true, readings, .locked call⟩
  | some ⟨session, locked, readings, .locked call⟩, .resolve =>
      match resolveFillPositions call.resolvedOrder userId (view db session) with
      | .ok resolutions => some ⟨session, locked, readings, .resolved call resolutions⟩
      | .error _ => some ⟨session, locked, readings, .outside⟩
  | some ⟨session, locked, readings, .resolved call resolutions⟩, .readFills =>
      match Fills.readFills keys call.fillOrder userId (view db session) with
      | .ok fills =>
          some ⟨session, locked, readings,
            .filled call resolutions (narrow call.orderIds fills)⟩
      | .error _ => some ⟨session, locked, readings, .outside⟩
  | some ⟨session, locked, readings, .filled call resolutions fills⟩, .readEvents =>
      match Events.readEvents keys call.eventOrder userId (view db session) with
      | .ok existing =>
          let reading : Reading := ⟨resolutions, fills, existing⟩
          if reading.drafts sha256 = [] then some ⟨session, locked, readings, .outside⟩
          else some ⟨session, locked, readings, .compared call reading⟩
      | .error _ => some ⟨session, locked, readings, .outside⟩
  | some ⟨session, locked, readings, .compared call reading⟩, .readKey =>
      match currentDek keys (view db session) userId with
      | .ok (dek, keyVersion) =>
          some ⟨session, locked, readings ++ [reading],
            .inserting call dek keyVersion
              (chunksOf Events.chunkSize (reading.drafts sha256).zipIdx)⟩
      | .error _ => some ⟨session, locked, readings, .outside⟩
  | some ⟨session, locked, readings, .inserting call dek keyVersion (chunk :: rest)⟩,
      .insertChunk =>
      match insertEventChunks keys userId dek keyVersion call.draws [chunk] session with
      | (.ok (), after) =>
          some ⟨after, locked, readings,
            if rest = [] then .outside else .inserting call dek keyVersion rest⟩
      | (.error _, after) => some ⟨after, locked, readings, .outside⟩
  | _, _ => none

/-! ## The system -/

structure System where
  db : Database
  locking : Locking Lock Txn

/-- `land` is the commit of another transaction that leaves these fills and
legs behind. -/
inductive Action where
  | execute (id : Nat) (statement : Statement)
  | commit (id : Nat)
  | rollback (id : Nat)
  | land (fills : KeyedTable Fill.primaryKey) (legs : List Leg)

/-- A transaction is committed between calls; it can be rolled back at any
point. -/
def step (state : System) : Action → Option System
  | .execute id statement => do
      let txn ← execute keys sha256 userId state.db (state.locking.txns id) statement
      let locking ← advance Txn.holds state.locking id txn
      some { state with locking := locking }
  | .commit id =>
      match state.locking.txns id with
      | some ⟨session, _, _, .outside⟩ =>
          some { db := view state.db session, locking := finish state.locking id }
      | _ => none
  | .rollback id =>
      if (state.locking.txns id).isSome then
        some { state with locking := finish state.locking id }
      else none
  | .land fills legs => some { state with db := { state.db with fills := fills, legs := legs } }

/-! ## What must not occur twice -/

def rowTriple (row : Event) : Triple := (row.positionId, row.eventType, row.fillIdsHash)

def userTriples (events : List Event) : List Triple :=
  (events.filter fun row => row.userId = userId).map rowTriple

/-- No two rows of the user agree in position, type and digest. -/
def OneEventEach (db : Database) : Prop := (userTriples userId db.events).Nodup

instance decidableOneEventEach (db : Database) : Decidable (OneEventEach userId db) :=
  inferInstanceAs (Decidable (List.Nodup _))

/-- The groups of a reading are told apart: two of one position and one event
type whose fills have the same digest are one group, unless an event with
that digest is stored already. -/
def ToldApart (reading : Reading) : Prop :=
  ∀ left ∈ groupKeys reading.resolutions reading.fills,
    ∀ right ∈ groupKeys reading.resolutions reading.fills,
      left.positionId = right.positionId → eventTypeOf left.role = eventTypeOf right.role →
      hashFillIds sha256 (memberKeys reading.resolutions reading.fills left) =
        hashFillIds sha256 (memberKeys reading.resolutions reading.fills right) →
      (left.positionId, (eventTypeOf left.role).value,
        some (hashFillIds sha256 (memberKeys reading.resolutions reading.fills left))) ∈
          reading.existing.map recordTriple ∨ left = right

instance decidableToldApart (reading : Reading) : Decidable (ToldApart sha256 reading) :=
  inferInstanceAs (Decidable (∀ left ∈ groupKeys reading.resolutions reading.fills,
    ∀ right ∈ groupKeys reading.resolutions reading.fills, _ → _ → _ → _ ∨ _))

/-- Whoever commits has inserted only from readings whose groups are told
apart. -/
def CommitsApart (state : System) : Action → Prop
  | .commit id =>
      ∀ reading ∈ (state.locking.txns id).elim [] Txn.readings, ToldApart sha256 reading
  | _ => True

instance decidableCommitsApart (state : System) :
    (action : Action) → Decidable (CommitsApart sha256 state action)
  | .commit _ => inferInstanceAs (Decidable (∀ reading ∈ _, ToldApart sha256 reading))
  | .execute _ _ => isTrue trivial
  | .rollback _ => isTrue trivial
  | .land _ _ => isTrue trivial

/-! ## What a reading adds -/

theorem row_triple_of_read (db : Database) (row : Event) (record : EventRecord)
    (read : readEvent keys db userId row = .ok record) : recordTriple record = rowTriple row := by
  unfold readEvent at read
  rcases bind_ok _ _ _ read with ⟨dek, _, opened⟩
  rcases bind_ok _ _ _ opened with ⟨openDebitUsd, _, closed⟩
  rcases bind_ok _ _ _ closed with ⟨closeCreditUsd, _, made⟩
  cases made
  rfl

/-- A read that returned saw the triple of every row of the user. -/
theorem read_events_triples (order : ScanOrder Event) (db : Database)
    (existing : List EventRecord)
    (ran : Events.readEvents keys order userId db = .ok existing) :
    (existing.map recordTriple).Perm (userTriples userId db.events) := by
  unfold Events.readEvents at ran
  rw [map_m_ok_field _ recordTriple rowTriple (row_triple_of_read keys userId db) _ _ ran]
  exact (order.perm _).map rowTriple

theorem event_type_value_inj (left right : EventType) (same : left.value = right.value) :
    left = right := by
  cases left with
  | openEvent =>
      cases right with
      | openEvent => rfl
      | closeEvent => exact absurd same (by decide)
  | closeEvent =>
      cases right with
      | openEvent => exact absurd same (by decide)
      | closeEvent => rfl

theorem told_apart_iff (reading : Reading) :
    ToldApart sha256 reading ↔ ((reading.drafts sha256).map writeTriple).Nodup := by
  have stored : (reading.existing.map EventRecord.content).map writeTriple =
      reading.existing.map recordTriple := by
    rw [List.map_map]
    rfl
  have batch := (derive_events_perm sha256 reading.fills reading.resolutions).map draftOf
  rw [List.map_map] at batch
  unfold Reading.drafts Reading.derivation
  rw [drafts_of_missing, missing_nodup_iff writeTriple
    (groupKeys reading.resolutions reading.fills) (group_keys_nodup _ _) _ _ _ batch, stored]
  constructor
  · intro apart left leftMember right rightMember same
    have position := congrArg Prod.fst same
    have typeText := congrArg (fun triple : Triple => triple.2.1) same
    have digest := Option.some.inj (congrArg (fun triple : Triple => triple.2.2) same)
    exact apart left leftMember right rightMember position (event_type_value_inj _ _ typeText) digest
  · intro apart left leftMember right rightMember position type digest
    apply apart left leftMember right rightMember
    exact Prod.ext position (Prod.ext (congrArg EventType.value type) (congrArg some digest))

/-- Beside what is stored, a reading's drafts are new and, told apart, each
there once. -/
theorem append_drafts_nodup_iff (reading : Reading) (held : List Triple)
    (current : (reading.existing.map recordTriple).Perm held) :
    (held ++ (reading.drafts sha256).map writeTriple).Nodup ↔
      held.Nodup ∧ ToldApart sha256 reading := by
  have stored : ((reading.existing.map EventRecord.content).map writeTriple).Perm held := by
    rw [List.map_map]
    exact current
  rw [told_apart_iff]
  unfold Reading.drafts
  rw [drafts_of_missing]
  apply append_missing_nodup_iff
  exact stored

theorem drafts_open_or_close (reading : Reading) :
    ∀ event ∈ reading.drafts sha256, OpenOrClose event := by
  intro event member
  rcases List.mem_map.mp member with ⟨derived, _, shape⟩
  rw [← shape]
  apply draft_open_or_close

theorem user_triples_append (events rows : List Event) :
    userTriples userId (events ++ rows) = userTriples userId events ++ userTriples userId rows := by
  unfold userTriples
  rw [List.filter_append, List.map_append]

theorem user_triples_rows (dek : Bytes) (keyVersion : Int) (draws : Nat → EventDraw)
    (events : List (EventWrite × Nat)) :
    userTriples userId (eventRows keys userId dek keyVersion draws events) =
      events.map fun event => writeTriple event.1 := by
  induction events with
  | nil => rfl
  | cons event rest ih =>
      have own : (eventRow keys userId dek keyVersion (draws event.2) event.1).userId = userId :=
        rfl
      unfold userTriples eventRows at ih ⊢
      rw [List.map_cons, List.filter_cons_of_pos (by simp [own]), List.map_cons, ih,
        List.map_cons]
      rfl

/-! ## What a statement can do -/

/-- The drafts a call has yet to insert. -/
def Stage.outstanding : Stage → List EventWrite
  | .inserting _ _ _ chunks => chunks.flatten.map Prod.fst
  | _ => []

inductive Effect (db : Database) : Option Txn → Txn → Prop where
  | opens : Effect db none ⟨⟨[], []⟩, false, [], .outside⟩
  | locks (session : EventSession) (locked : Bool) (readings : List Reading) (call : SyncCall) :
      Effect db (some ⟨session, locked, readings, .outside⟩)
        ⟨session, true, readings, .locked call⟩
  | reads (session : EventSession) (locked : Bool) (readings : List Reading)
      (stage next : Stage) (inside : stage ≠ .outside) (nothing : stage.outstanding = [])
      (still : next.outstanding = []) (uncompared : ∀ call reading, next ≠ .compared call reading) :
      Effect db (some ⟨session, locked, readings, stage⟩) ⟨session, locked, readings, next⟩
  | compares (session : EventSession) (locked : Bool) (readings : List Reading) (call : SyncCall)
      (resolutions : Resolutions) (fills : List FillRecord) (existing : List EventRecord)
      (read : Events.readEvents keys call.eventOrder userId (view db session) = .ok existing) :
      Effect db (some ⟨session, locked, readings, .filled call resolutions fills⟩)
        ⟨session, locked, readings, .compared call ⟨resolutions, fills, existing⟩⟩
  | plans (session : EventSession) (locked : Bool) (readings : List Reading) (call : SyncCall)
      (reading : Reading) (dek : Bytes) (keyVersion : Int) :
      Effect db (some ⟨session, locked, readings, .compared call reading⟩)
        ⟨session, locked, readings ++ [reading], .inserting call dek keyVersion
          (chunksOf Events.chunkSize (reading.drafts sha256).zipIdx)⟩
  | inserts (session after : EventSession) (locked : Bool) (readings : List Reading)
      (call : SyncCall) (dek : Bytes) (keyVersion : Int) (chunk : List (EventWrite × Nat))
      (rest : List (List (EventWrite × Nat))) (outcome : Except Raised Unit)
      (ran : insertEventChunks keys userId dek keyVersion call.draws [chunk] session =
        (outcome, after)) :
      Effect db
        (some ⟨session, locked, readings, .inserting call dek keyVersion (chunk :: rest)⟩)
        ⟨after, locked, readings,
          if outcome = .ok () ∧ rest ≠ [] then .inserting call dek keyVersion rest
          else .outside⟩

theorem execute_effect (db : Database) (old : Option Txn) (statement : Statement) (next : Txn)
    (ran : execute keys sha256 userId db old statement = some next) :
    Effect keys sha256 userId db old next := by
  unfold execute at ran
  split at ran
  · cases ran
    exact .opens
  · cases ran
    apply Effect.locks
  · split at ran
    · cases ran
      apply Effect.reads <;> simp [Stage.outstanding]
    · cases ran
      apply Effect.reads <;> simp [Stage.outstanding]
  · split at ran
    · cases ran
      apply Effect.reads <;> simp [Stage.outstanding]
    · cases ran
      apply Effect.reads <;> simp [Stage.outstanding]
  · split at ran
    · rename_i existing read
      simp only at ran
      split_ifs at ran
      · cases ran
        apply Effect.reads <;> simp [Stage.outstanding]
      · cases ran
        apply Effect.compares
        exact read
    · cases ran
      apply Effect.reads <;> simp [Stage.outstanding]
  · split at ran
    · cases ran
      apply Effect.plans
    · cases ran
      apply Effect.reads <;> simp [Stage.outstanding]
  · rename_i session locked readings call dek keyVersion chunk rest
    have effect : ∀ outcome after,
        insertEventChunks keys userId dek keyVersion call.draws [chunk] session =
          (outcome, after) →
        Effect keys sha256 userId db
          (some ⟨session, locked, readings, .inserting call dek keyVersion (chunk :: rest)⟩)
          ⟨after, locked, readings,
            if outcome = .ok () ∧ rest ≠ [] then .inserting call dek keyVersion rest
            else .outside⟩ :=
      fun outcome after inserted => .inserts session after locked readings call dek keyVersion
        chunk rest outcome inserted
    split at ran
    · rename_i after inserted
      cases ran
      by_cases last : rest = []
      · simpa [last] using effect _ _ inserted
      · simpa [last] using effect _ _ inserted
    · rename_i raised after inserted
      cases ran
      simpa using effect _ _ inserted
  · cases ran

/-! ## What every open transaction keeps -/

structure Sound (committed : List Event) (txn : Txn) : Prop where
  sent : txn.session.pending = []
  idle : txn.locked = false →
    txn.session.stored = [] ∧ txn.readings = [] ∧ txn.stage = .outside
  kinds : ∀ event ∈ txn.stage.outstanding, OpenOrClose event
  current : ∀ call reading, txn.stage = .compared call reading →
    (reading.existing.map recordTriple).Perm
      (userTriples userId (committed ++ txn.session.stored))
  once : (userTriples userId (committed ++ txn.session.stored) ++
      txn.stage.outstanding.map writeTriple).Nodup ↔
    ∀ reading ∈ txn.readings, ToldApart sha256 reading

/-- A transaction that has done nothing yet. -/
theorem sound_idle (committed : List Event) (unique : (userTriples userId committed).Nodup) :
    Sound sha256 userId committed ⟨⟨[], []⟩, false, [], .outside⟩ where
  sent := rfl
  idle := fun _ => ⟨rfl, rfl, rfl⟩
  kinds := fun _ member => absurd member List.not_mem_nil
  current := fun _ _ impossible => nomatch impossible
  once := by simpa [Stage.outstanding] using unique

theorem view_events (db : Database) (session : EventSession) (sent : session.pending = []) :
    (view db session).events = db.events ++ session.stored := by
  rw [view, ownRows, sent, List.append_nil]

/-- Between the lock and the compare nothing changes but the stage. -/
theorem sound_moves (committed : List Event) (session : EventSession) (locked : Bool)
    (readings : List Reading) (stage next : Stage)
    (sound : Sound sha256 userId committed ⟨session, locked, readings, stage⟩)
    (taken : locked = true) (nothing : stage.outstanding = []) (still : next.outstanding = [])
    (current : ∀ call reading, next = .compared call reading →
      (reading.existing.map recordTriple).Perm
        (userTriples userId (committed ++ session.stored))) :
    Sound sha256 userId committed ⟨session, locked, readings, next⟩ where
  sent := sound.sent
  idle := by
    intro free
    rw [taken] at free
    cases free
  kinds := by
    rw [still]
    exact fun _ member => absurd member List.not_mem_nil
  current := current
  once := by
    have before := sound.once
    rw [nothing] at before
    rw [still]
    exact before

/-- A transaction inside a call has the lock. -/
theorem sound_locked (committed : List Event) (session : EventSession) (locked : Bool)
    (readings : List Reading) (stage : Stage) (inside : stage ≠ .outside)
    (sound : Sound sha256 userId committed ⟨session, locked, readings, stage⟩) :
    locked = true := by
  cases taken : locked with
  | true => rfl
  | false => exact absurd (sound.idle taken).2.2 inside

theorem planned_outstanding (call : SyncCall) (dek : Bytes) (keyVersion : Int)
    (drafts : List EventWrite) :
    (Stage.inserting call dek keyVersion
      (chunksOf Events.chunkSize drafts.zipIdx)).outstanding = drafts := by
  rw [Stage.outstanding, chunks_of_flatten _ _ (by decide), List.zipIdx_map_fst]

theorem sound_plans (committed : List Event) (session : EventSession) (locked : Bool)
    (readings : List Reading) (call : SyncCall) (reading : Reading) (dek : Bytes)
    (keyVersion : Int)
    (sound : Sound sha256 userId committed ⟨session, locked, readings, .compared call reading⟩) :
    Sound sha256 userId committed ⟨session, locked, readings ++ [reading],
      .inserting call dek keyVersion
        (chunksOf Events.chunkSize (reading.drafts sha256).zipIdx)⟩ where
  sent := sound.sent
  idle := by
    intro free
    exact nomatch (sound.idle free).2.2
  kinds := by
    rw [planned_outstanding]
    apply drafts_open_or_close
  current := fun _ _ impossible => nomatch impossible
  once := by
    have before := sound.once
    simp only [Stage.outstanding, List.map_nil, List.append_nil] at before
    rw [planned_outstanding, append_drafts_nodup_iff sha256 reading _
      (sound.current call reading rfl), before, List.forall_mem_append]
    simp

theorem inserted_chunk (session after : EventSession) (dek : Bytes)
    (keyVersion : Int) (draws : Nat → EventDraw) (chunk : List (EventWrite × Nat))
    (outcome : Except Raised Unit) (sent : session.pending = [])
    (kinds : ∀ event ∈ chunk, OpenOrClose event.1)
    (ran : insertEventChunks keys userId dek keyVersion draws [chunk] session =
      (outcome, after)) :
    outcome = .ok () ∧
      after = ⟨session.stored ++ eventRows keys userId dek keyVersion draws chunk, []⟩ := by
  have shape : session = ⟨session.stored, []⟩ := by rw [← sent]
  have flat : [chunk].flatten = chunk := by simp
  rw [shape, insert_event_chunks_ok keys userId dek keyVersion draws [chunk] _
    (by rwa [flat]), flat] at ran
  cases ran
  exact ⟨rfl, rfl⟩

theorem sound_inserts (db : Database) (session after : EventSession) (locked : Bool)
    (readings : List Reading) (call : SyncCall) (dek : Bytes) (keyVersion : Int)
    (chunk : List (EventWrite × Nat)) (rest : List (List (EventWrite × Nat)))
    (outcome : Except Raised Unit)
    (ran : insertEventChunks keys userId dek keyVersion call.draws [chunk] session =
      (outcome, after))
    (sound : Sound sha256 userId db.events
      ⟨session, locked, readings, .inserting call dek keyVersion (chunk :: rest)⟩) :
    Sound sha256 userId db.events ⟨after, locked, readings,
      if outcome = .ok () ∧ rest ≠ [] then .inserting call dek keyVersion rest
      else .outside⟩ := by
  have kinds := sound.kinds
  have once := sound.once
  have taken := sound_locked sha256 userId db.events session locked readings _ (by simp) sound
  simp only [Stage.outstanding, List.flatten_cons, List.map_append, List.mem_append] at kinds once
  have chunkKinds : ∀ event ∈ chunk, OpenOrClose event.1 := fun event member =>
    kinds event.1 (Or.inl (List.mem_map_of_mem member))
  obtain ⟨returned, rows⟩ := inserted_chunk keys userId session after dek keyVersion call.draws chunk
    outcome sound.sent chunkKinds ran
  have later : (if outcome = .ok () ∧ rest ≠ [] then Stage.inserting call dek keyVersion rest
      else .outside).outstanding = rest.flatten.map Prod.fst := by
    by_cases last : rest = []
    · simp [last, Stage.outstanding]
    · simp [last, returned, Stage.outstanding]
  have uncompared : ∀ otherCall reading,
      (if outcome = .ok () ∧ rest ≠ [] then Stage.inserting call dek keyVersion rest
        else .outside) ≠ .compared otherCall reading := by
    intro otherCall reading
    split_ifs <;> simp
  refine ⟨?_, ?_, ?_, ?_, ?_⟩
  · rw [rows]
  · intro free
    rw [taken] at free
    cases free
  · rw [later]
    exact fun event member => kinds event (Or.inr member)
  · intro otherCall reading compared
    exact absurd compared (uncompared otherCall reading)
  · have moved : userTriples userId (db.events ++ after.stored) =
        userTriples userId (db.events ++ session.stored) ++
          (chunk.map Prod.fst).map writeTriple := by
      rw [rows, ← List.append_assoc, user_triples_append userId (db.events ++ session.stored),
        user_triples_rows, List.map_map]
      rfl
    rw [later, moved, List.append_assoc]
    exact once

theorem effect_keeps_sound (db : Database) (old : Option Txn) (next : Txn)
    (unique : OneEventEach userId db)
    (sound : ∀ txn, old = some txn → Sound sha256 userId db.events txn)
    (effect : Effect keys sha256 userId db old next) : Sound sha256 userId db.events next := by
  cases effect with
  | opens => exact sound_idle sha256 userId db.events unique
  | locks session locked readings call =>
      have before := sound _ rfl
      exact ⟨before.sent, (fun free => nomatch free), before.kinds,
        (fun _ _ impossible => nomatch impossible), before.once⟩
  | reads session locked readings stage next inside nothing still uncompared =>
      have before := sound _ rfl
      apply sound_moves sha256 userId db.events session locked readings stage next before
        (sound_locked sha256 userId db.events session locked readings stage inside before)
        nothing still
      intro call reading compared
      exact absurd compared (uncompared call reading)
  | compares session locked readings call resolutions fills existing read =>
      have before := sound _ rfl
      have seen := read_events_triples keys userId call.eventOrder (view db session) existing read
      rw [view_events db session before.sent] at seen
      apply sound_moves sha256 userId db.events session locked readings _ _ before
        (sound_locked sha256 userId db.events session locked readings _ (by simp) before) rfl rfl
      intro otherCall reading compared
      cases compared
      exact seen
  | plans session locked readings call reading dek keyVersion =>
      exact sound_plans sha256 userId db.events session locked readings call reading dek keyVersion
        (sound _ rfl)
  | inserts session after locked readings call dek keyVersion chunk rest outcome ran =>
      exact sound_inserts keys sha256 userId db session after locked readings call dek keyVersion
        chunk rest outcome ran (sound _ rfl)

/-! ## A call nobody disturbs -/

def alone (db : Database) (txn : Option Txn) (statement : Statement) : Option (Option Txn) :=
  (execute keys sha256 userId db txn statement).map some

theorem chunks_alone (db : Database) (stored : List Event) (locked : Bool)
    (readings : List Reading) (call : SyncCall) (dek : Bytes) (keyVersion : Int)
    (chunks : List (List (EventWrite × Nat))) (some_left : chunks ≠ [])
    (kinds : ∀ event ∈ chunks.flatten, OpenOrClose event.1) :
    runFrom (alone keys sha256 userId db) (chunks.map fun _ => .insertChunk)
        (some ⟨⟨stored, []⟩, locked, readings, .inserting call dek keyVersion chunks⟩) =
      some (some ⟨⟨stored ++
        eventRows keys userId dek keyVersion call.draws chunks.flatten, []⟩, locked, readings,
          .outside⟩) := by
  induction chunks generalizing stored with
  | nil => exact absurd rfl some_left
  | cons chunk rest ih =>
      have flat : [chunk].flatten = chunk := by simp
      have first := insert_event_chunks_ok keys userId dek keyVersion call.draws [chunk] stored
        (by
          rw [flat]
          exact fun event member => kinds event (List.mem_append_left _ member))
      rw [flat] at first
      have moved : alone keys sha256 userId db
          (some ⟨⟨stored, []⟩, locked, readings,
            .inserting call dek keyVersion (chunk :: rest)⟩) .insertChunk =
          some (some ⟨⟨stored ++ eventRows keys userId dek keyVersion call.draws chunk, []⟩,
            locked, readings,
            if rest = [] then .outside else .inserting call dek keyVersion rest⟩) := by
        simp only [alone, execute, first, Option.map_some]
      rw [List.map_cons, runFrom, moved, Option.bind_some]
      by_cases last : rest = []
      · rw [if_pos last, last, List.map_nil, List.flatten_cons, List.flatten_nil,
          List.append_nil]
        rfl
      · rw [if_neg last, ih _ last fun event member => kinds event (List.mem_append_right _ member)]
        simp [eventRows]

def insertStatements (drafts : List EventWrite) : List Statement :=
  .readKey :: (chunksOf Events.chunkSize drafts.zipIdx).map fun _ => .insertChunk

theorem insert_alone (db : Database) (stored : List Event) (readings : List Reading)
    (call : SyncCall) (reading : Reading) (dek : Bytes) (keyVersion : Int)
    (current : currentDek keys (view db ⟨stored, []⟩) userId = .ok (dek, keyVersion))
    (busy : reading.drafts sha256 ≠ []) :
    runFrom (alone keys sha256 userId db) (insertStatements (reading.drafts sha256))
        (some ⟨⟨stored, []⟩, true, readings, .compared call reading⟩) =
      some (some ⟨⟨stored ++ eventRows keys userId dek keyVersion call.draws
        (reading.drafts sha256).zipIdx, []⟩, true, readings ++ [reading], .outside⟩) := by
  have whole := chunks_of_flatten Events.chunkSize (reading.drafts sha256).zipIdx (by decide)
  have cut : chunksOf Events.chunkSize (reading.drafts sha256).zipIdx ≠ [] := by
    intro none
    rw [none, List.flatten_nil] at whole
    exact busy (List.zipIdx_eq_nil_iff.mp whole.symm)
  have kinds : ∀ event ∈ (chunksOf Events.chunkSize (reading.drafts sha256).zipIdx).flatten,
      OpenOrClose event.1 := by
    rw [whole]
    intro event member
    exact drafts_open_or_close sha256 reading event.1 (List.fst_mem_of_mem_zipIdx member)
  have inserted := chunks_alone keys sha256 userId db stored true (readings ++ [reading]) call dek
    keyVersion _ cut kinds
  have planned : alone keys sha256 userId db
      (some ⟨⟨stored, []⟩, true, readings, .compared call reading⟩) .readKey =
      some (some ⟨⟨stored, []⟩, true, readings ++ [reading],
        .inserting call dek keyVersion
          (chunksOf Events.chunkSize (reading.drafts sha256).zipIdx)⟩) := by
    simp [alone, execute, current]
  rw [whole] at inserted
  rw [insertStatements, runFrom, planned, Option.bind_some]
  exact inserted

/-- One statement more. -/
theorem then_alone (db : Database) {statements : List Statement} {start : Option Txn} {txn : Txn}
    (statement : Statement) (after : Txn)
    (ran : runFrom (alone keys sha256 userId db) statements start = some (some txn))
    (executed : execute keys sha256 userId db (some txn) statement = some after) :
    runFrom (alone keys sha256 userId db) (statements ++ [statement]) start =
      some (some after) := by
  have moved : alone keys sha256 userId db (some txn) statement = some (some after) := by
    rw [alone, executed, Option.map_some]
  rw [run_from_append, ran, Option.bind_some, runFrom, moved]
  rfl

/-- Statement by statement and with nothing in between, a call leaves the
session that `sync_events` leaves, whether it returns or raises. -/
theorem undisturbed_call (db : Database) (stored : List Event) (locked : Bool)
    (readings : List Reading) (call : SyncCall) :
    ∃ statements own later,
      runFrom (alone keys sha256 userId db) statements
          (some ⟨⟨stored, []⟩, locked, readings, .outside⟩) =
        some (some ⟨⟨own, []⟩, true, later, .outside⟩) ∧
      (syncEvents keys sha256 call userId (view db ⟨stored, []⟩)).2 = ⟨db.events ++ own, []⟩ := by
  have events : (view db ⟨stored, []⟩).events = db.events ++ stored :=
    view_events db ⟨stored, []⟩ rfl
  have lockTaken : runFrom (alone keys sha256 userId db) [.lock call]
      (some ⟨⟨stored, []⟩, locked, readings, .outside⟩) =
      some (some ⟨⟨stored, []⟩, true, readings, .locked call⟩) := rfl
  unfold syncEvents
  cases resolve : resolveFillPositions call.resolvedOrder userId (view db ⟨stored, []⟩) with
  | error raised =>
      have failed := then_alone keys sha256 userId db .resolve
        ⟨⟨stored, []⟩, true, readings, .outside⟩ lockTaken (by simp only [execute, resolve])
      refine ⟨_, stored, readings, failed, ?_⟩
      rw [← events]
  | ok resolutions =>
      have resolved := then_alone keys sha256 userId db .resolve
        ⟨⟨stored, []⟩, true, readings, .resolved call resolutions⟩ lockTaken
        (by simp only [execute, resolve])
      cases readF : Fills.readFills keys call.fillOrder userId (view db ⟨stored, []⟩) with
      | error raised =>
          have failed := then_alone keys sha256 userId db .readFills
            ⟨⟨stored, []⟩, true, readings, .outside⟩ resolved (by simp only [execute, readF])
          refine ⟨_, stored, readings, failed, ?_⟩
          simp [events]
      | ok fills =>
          have filled := then_alone keys sha256 userId db .readFills
            ⟨⟨stored, []⟩, true, readings,
              .filled call resolutions (narrow call.orderIds fills)⟩ resolved
            (by simp only [execute, readF])
          cases readE : Events.readEvents keys call.eventOrder userId (view db ⟨stored, []⟩) with
          | error raised =>
              have failed := then_alone keys sha256 userId db .readEvents
                ⟨⟨stored, []⟩, true, readings, .outside⟩ filled (by simp only [execute, readE])
              refine ⟨_, stored, readings, failed, ?_⟩
              simp [events]
          | ok existing =>
              let reading : Reading := ⟨resolutions, narrow call.orderIds fills, existing⟩
              have drafts : draftsOf existing
                  (deriveEvents sha256 (narrow call.orderIds fills) resolutions).events =
                  reading.drafts sha256 := rfl
              dsimp only
              rw [drafts]
              by_cases idle : reading.drafts sha256 = []
              · have done := then_alone keys sha256 userId db .readEvents
                  ⟨⟨stored, []⟩, true, readings, .outside⟩ filled
                  (by simp only [execute, readE, reading, if_pos idle])
                refine ⟨_, stored, readings, done, ?_⟩
                simp [events, idle]
              · have compared := then_alone keys sha256 userId db .readEvents
                  ⟨⟨stored, []⟩, true, readings, .compared call reading⟩ filled
                  (by simp only [execute, readE, reading, if_neg idle])
                rw [if_neg idle]
                cases current : currentDek keys (view db ⟨stored, []⟩) userId with
                | error raised =>
                    have failed := then_alone keys sha256 userId db .readKey
                      ⟨⟨stored, []⟩, true, readings, .outside⟩ compared
                      (by simp only [execute, current])
                    refine ⟨_, stored, readings, failed, ?_⟩
                    simp [insertEvents, current, events]
                | ok found =>
                    have inserted := insert_alone keys sha256 userId db stored readings call reading
                      found.1 found.2 current idle
                    have joined := run_from_append (alone keys sha256 userId db)
                      ([.lock call] ++ [.resolve] ++ [.readFills] ++ [.readEvents])
                      (insertStatements (reading.drafts sha256))
                      (some ⟨⟨stored, []⟩, locked, readings, .outside⟩)
                    rw [compared, Option.bind_some, inserted] at joined
                    refine ⟨_, _, _, joined, ?_⟩
                    rw [insert_events_ok keys call.draws userId _ _ found.1 found.2 current
                      (drafts_open_or_close sha256 reading), events]
                    simp

/-! ## Runs -/

structure Consistent (state : System) : Prop where
  granted : Granted Txn.holds state.locking
  unique : OneEventEach userId state.db
  sound : ∀ id txn, state.locking.txns id = some txn → Sound sha256 userId state.db.events txn

theorem execute_step (state next : System) (id : Nat) (statement : Statement)
    (stepped : step keys sha256 userId state (.execute id statement) = some next) :
    ∃ txn, execute keys sha256 userId state.db (state.locking.txns id) statement = some txn ∧
      advance Txn.holds state.locking id txn = some next.locking ∧ next.db = state.db := by
  obtain ⟨txn, executed, later⟩ := Option.bind_eq_some_iff.mp stepped
  obtain ⟨locking, advanced, made⟩ := Option.bind_eq_some_iff.mp later
  cases made
  exact ⟨txn, executed, advanced, rfl⟩

theorem commit_step (state next : System) (id : Nat)
    (stepped : step keys sha256 userId state (.commit id) = some next) :
    ∃ session locked readings,
      state.locking.txns id = some ⟨session, locked, readings, .outside⟩ ∧
      next = { db := view state.db session, locking := finish state.locking id } := by
  simp only [step] at stepped
  split at stepped
  · rename_i session locked readings found
    exact ⟨session, locked, readings, found, (Option.some.inj stepped).symm⟩
  · cases stepped

theorem rollback_step (state next : System) (id : Nat)
    (stepped : step keys sha256 userId state (.rollback id) = some next) :
    next = { state with locking := finish state.locking id } := by
  simp only [step] at stepped
  split_ifs at stepped
  exact (Option.some.inj stepped).symm

/-- A commit of sound work is unique exactly when its readings told their
groups apart. -/
theorem commit_unique_iff (db : Database) (session : EventSession) (locked : Bool)
    (readings : List Reading)
    (sound : Sound sha256 userId db.events ⟨session, locked, readings, .outside⟩) :
    OneEventEach userId (view db session) ↔ ∀ reading ∈ readings, ToldApart sha256 reading := by
  have once := sound.once
  simp only [Stage.outstanding, List.map_nil, List.append_nil] at once
  rw [OneEventEach, view_events db session sound.sent]
  exact once

/-- Whoever else is open while a transaction commits has done nothing, or the
committing one has written nothing. -/
theorem commit_keeps_other (state : System) (id other : Nat) (session : EventSession)
    (locked : Bool) (readings : List Reading) (txn : Txn)
    (consistent : Consistent sha256 userId state)
    (found : state.locking.txns id = some ⟨session, locked, readings, .outside⟩)
    (present : state.locking.txns other = some txn) (apart : other ≠ id)
    (unique : OneEventEach userId (view state.db session)) :
    Sound sha256 userId (view state.db session).events txn := by
  have mine := consistent.sound id _ found
  have sound := consistent.sound other txn present
  cases taken : locked with
  | false =>
      have empty := (mine.idle taken).1
      dsimp only at empty
      rw [view_events state.db session mine.sent, empty, List.append_nil]
      exact sound
  | true =>
      have free : txn.locked = false := by
        cases held : txn.locked with
        | false => rfl
        | true => exact absurd (granted_exclusive Txn.holds state.locking consistent.granted other
            id txn _ .advisory present held found taken) apart
      obtain ⟨stored, readingsNil, outside⟩ := sound.idle free
      have sent := sound.sent
      rcases txn with ⟨⟨txnStored, txnPending⟩, txnLocked, txnReadings, txnStage⟩
      dsimp only at sent free stored readingsNil outside
      rw [sent, free, stored, readingsNil, outside]
      exact sound_idle sha256 userId _ unique

theorem step_keeps_consistent (state : System) (action : Action) (next : System)
    (consistent : Consistent sha256 userId state) (apart : CommitsApart sha256 state action)
    (stepped : step keys sha256 userId state action = some next) :
    Consistent sha256 userId next := by
  cases action with
  | execute id statement =>
      obtain ⟨txn, executed, advanced, same⟩ := execute_step keys sha256 userId state next id
        statement stepped
      have effect := execute_effect keys sha256 userId state.db _ statement txn executed
      have moved := effect_keeps_sound keys sha256 userId state.db _ txn consistent.unique
        (consistent.sound id) effect
      refine ⟨granted_advance Txn.holds state.locking next.locking id txn consistent.granted
        advanced, same ▸ consistent.unique, ?_⟩
      intro other found present
      rw [same]
      cases advance_txns Txn.holds state.locking next.locking id other txn found advanced
          present with
      | inl mover =>
          rw [mover.2]
          exact moved
      | inr bystander => exact consistent.sound other found bystander.2
  | commit id =>
      obtain ⟨session, locked, readings, found, shape⟩ := commit_step keys sha256 userId state next
        id stepped
      have toldApart : ∀ reading ∈ readings, ToldApart sha256 reading := by
        rw [CommitsApart, found] at apart
        exact apart
      have unique := (commit_unique_iff sha256 userId state.db session locked readings
        (consistent.sound id _ found)).mpr toldApart
      rw [shape]
      refine ⟨granted_finish Txn.holds state.locking id consistent.granted, unique, ?_⟩
      intro other txn present
      obtain ⟨different, still⟩ := finish_txns state.locking id other txn present
      exact commit_keeps_other sha256 userId state id other session locked readings txn consistent
        found still different unique
  | rollback id =>
      rw [rollback_step keys sha256 userId state next id stepped]
      refine ⟨granted_finish Txn.holds state.locking id consistent.granted, consistent.unique, ?_⟩
      intro other txn present
      exact consistent.sound other txn (finish_txns state.locking id other txn present).2
  | land fills legs =>
      cases stepped
      exact ⟨consistent.granted, consistent.unique, consistent.sound⟩

theorem step_breaks_unique (state : System) (action : Action) (next : System)
    (consistent : Consistent sha256 userId state) (mixed : ¬CommitsApart sha256 state action)
    (stepped : step keys sha256 userId state action = some next) :
    ¬OneEventEach userId next.db := by
  cases action with
  | commit id =>
      obtain ⟨session, locked, readings, found, shape⟩ := commit_step keys sha256 userId state next
        id stepped
      rw [CommitsApart, found] at mixed
      rw [shape]
      intro unique
      exact mixed ((commit_unique_iff sha256 userId state.db session locked readings
        (consistent.sound id _ found)).mp unique)
  | execute id statement => exact absurd trivial mixed
  | rollback id => exact absurd trivial mixed
  | land fills legs => exact absurd trivial mixed

/-- Events are only ever added. -/
theorem step_events (state : System) (action : Action) (next : System)
    (stepped : step keys sha256 userId state action = some next) :
    ∃ rows, next.db.events = state.db.events ++ rows := by
  cases action with
  | execute id statement =>
      obtain ⟨_, _, _, same⟩ := execute_step keys sha256 userId state next id statement stepped
      exact ⟨[], by rw [same, List.append_nil]⟩
  | commit id =>
      obtain ⟨session, _, _, _, shape⟩ := commit_step keys sha256 userId state next id stepped
      exact ⟨ownRows session, by rw [shape, view]⟩
  | rollback id =>
      rw [rollback_step keys sha256 userId state next id stepped]
      exact ⟨[], (List.append_nil _).symm⟩
  | land fills legs =>
      cases stepped
      exact ⟨[], (List.append_nil _).symm⟩

theorem step_stays_broken (state : System) (action : Action) (next : System)
    (broken : ¬OneEventEach userId state.db)
    (stepped : step keys sha256 userId state action = some next) :
    ¬OneEventEach userId next.db := by
  obtain ⟨rows, grown⟩ := step_events keys sha256 userId state action next stepped
  intro unique
  rw [OneEventEach, grown, user_triples_append] at unique
  exact broken unique.of_append_left

/-- However the statements of any number of transactions interleave, each
position, event type and digest has at most one committed event, exactly when
every transaction that commits has told its groups apart. -/
theorem concurrent_syncs_keep_one_event_each (start final : System) (actions : List Action)
    (quiet : start.locking = Locking.idle) (unique : OneEventEach userId start.db)
    (ran : runFrom (step keys sha256 userId) actions start = some final) :
    OneEventEach userId final.db ↔
      Meets (step keys sha256 userId) (CommitsApart sha256) actions start := by
  have initial : Consistent sha256 userId start := by
    refine ⟨?_, unique, ?_⟩
    · rw [quiet]
      exact granted_idle Txn.holds
    · intro id txn present
      rw [quiet] at present
      cases present
  cases run_splits (step keys sha256 userId) (CommitsApart sha256) (Consistent sha256 userId)
      (fun state => ¬OneEventEach userId state.db) (step_keeps_consistent keys sha256 userId)
      (step_breaks_unique keys sha256 userId) (step_stays_broken keys sha256 userId) actions start
      final initial ran with
  | inl kept => exact ⟨fun _ => kept.1, fun _ => kept.2.unique⟩
  | inr broken =>
      constructor
      · intro once
        exact absurd once broken.2
      · intro met
        exact absurd met broken.1

/-! ## Two callers at once -/

def callStatements (id : Nat) (call : SyncCall) : List Action :=
  [.execute id (.lock call), .execute id .resolve, .execute id .readFills,
    .execute id .readEvents]

def insertAndCommit (id : Nat) : List Action :=
  [.execute id .readKey, .execute id .insertChunk, .commit id]

/-- The second order's fill lands after the first caller has resolved; the
second caller waits for the first one's commit. -/
def twoCallers : List Action :=
  [.execute 1 .begin, .execute 2 .begin, .execute 1 (.lock (replayCall none 100)),
    .execute 1 .resolve, .land replayDatabase.fills replayDatabase.legs, .execute 1 .readFills,
    .execute 1 .readEvents] ++ insertAndCommit 1 ++
    callStatements 2 (replayCall (some ["o1", "o2"]) 200) ++ insertAndCommit 2

def beforeLanding : System where
  db := { replayDatabase with
    fills := ⟨[replayFill "o1" "SPXW1" 10 "SELL" ⟨1250, -2⟩,
      replayFill "o1" "SPXW2" 10 "BUY" ⟨2300, -2⟩], by decide⟩ }
  locking := Locking.idle

theorem concurrent_syncs_keep_one_event_each_two_callers :
    ∃ final, runFrom (step plainKeys replaySha256 replayUser) twoCallers beforeLanding =
        some final ∧
      final.db.events.length = 2 ∧ OneEventEach replayUser final.db := by
  have computed : ((runFrom (step plainKeys replaySha256 replayUser) twoCallers
      beforeLanding).any fun final => decide (final.db.events.length = 2)) = true := by
    decide +kernel
  obtain ⟨present, two⟩ := (Option.any_eq_true_iff_get _ _).mp computed
  have ran := (Option.some_get present).symm
  have law := concurrent_syncs_keep_one_event_each plainKeys replaySha256 replayUser beforeLanding
    _ twoCallers rfl (by decide) ran
  exact ⟨_, ran, of_decide_eq_true two, law.mpr (by decide +kernel)⟩

/-! ## One digest for two orders -/

/-- SHA-256 on the one text both groups join to. -/
def collidingSha256 (text : String) : String :=
  if text = "1001:SPXW1:0:10:1001:SPXW1:0:20" then
    "f84f315027db7ad3ff68f357c82f57de75bc118f1d833f23578bea66369393f7"
  else text

/-- Two fills of the order `1001`, and one of an order whose id begins with
the rendered key of the first. -/
def collidingOrders : System where
  db := { replayDatabase with
    fills := ⟨[replayFill "1001" "SPXW1" 10 "BUY" ⟨100, -2⟩,
      replayFill "1001" "SPXW1" 20 "BUY" ⟨100, -2⟩,
      replayFill "1001:SPXW1:0:10:1001" "SPXW1" 20 "BUY" ⟨100, -2⟩], by decide⟩ }
  locking := Locking.idle

def oneCaller : List Action :=
  .execute 1 .begin :: callStatements 1 (replayCall none 100) ++ insertAndCommit 1

/-- One call of one transaction is enough for two rows of one position, type
and digest. -/
theorem colliding_orders_store_two_events :
    collidingOrders.locking = Locking.idle ∧ OneEventEach replayUser collidingOrders.db ∧
    ∃ final, runFrom (step plainKeys collidingSha256 replayUser) oneCaller collidingOrders =
        some final ∧
      ¬OneEventEach replayUser final.db := by
  have computed : ((runFrom (step plainKeys collidingSha256 replayUser) oneCaller
      collidingOrders).any fun final =>
        decide (¬OneEventEach replayUser final.db)) = true := by
    decide +kernel
  obtain ⟨present, twice⟩ := (Option.any_eq_true_iff_get _ _).mp computed
  exact ⟨rfl, by decide, _, (Option.some_get present).symm, of_decide_eq_true twice⟩

end Morai.Ledger.ConcurrentSync
