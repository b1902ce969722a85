import Morai.Foundation.ReadCompareSkip
import Morai.Ledger.Events
import Morai.Ledger.ResolveQuery

/-!
# The pairing shell

`sync_events` resolves, reads, derives and writes for one user: it reads the
whole user and narrows to the scope afterwards, and inserts the drafts whose
triple is not stored yet. The advisory lock makes calls of one user follow
one another, so a run is a list of committed calls.
-/

namespace Morai.Ledger.SyncEvents

open Morai.Crypto Morai.Db Morai.Python Morai.Foundation.ReadCompareSkip
open Morai.Ledger.Fills Morai.Ledger.Events Morai.Ledger.Pairing Morai.Ledger.ResolveQuery

set_option autoImplicit false

/-- One call: its scope, the orders its three reads happen to come back in,
and what it draws for the rows it writes. -/
structure SyncCall where
  orderIds : Option (List String)
  resolvedOrder : ScanOrder ResolvedRow
  fillOrder : ScanOrder Fill
  eventOrder : ScanOrder Event
  draws : Nat → EventDraw

def inScope (orderIds : Option (List String)) (orderId : String) : Bool :=
  match orderIds with
  | none => true
  | some wanted => orderId ∈ wanted

def narrow (orderIds : Option (List String)) (fills : List FillRecord) : List FillRecord :=
  match orderIds with
  | none => fills
  | some wanted => fills.filter fun fill => fill.orderId ∈ wanted

abbrev Triple := Uuid × String × Option String

instance triple_lawful : LawfulBEq Triple := inferInstance

/-- `(record.position_id, record.event_type, record.fill_ids_hash)`. -/
def recordTriple (record : EventRecord) : Triple :=
  (record.positionId, record.eventType, record.fillIdsHash)

def eventTriple (event : DerivedEvent) : Triple :=
  (event.positionId, event.eventType.value, some event.fillIdsHash)

def draftOf (event : DerivedEvent) : EventWrite where
  positionId := event.positionId
  eventType := event.eventType.value
  eventTime := event.eventTime
  fillIdsHash := some event.fillIdsHash
  openDebitUsd := event.openDebitUsd
  closeCreditUsd := event.closeCreditUsd

def draftsOf (existing : List EventRecord) (events : List DerivedEvent) : List EventWrite :=
  (events.filter fun event => eventTriple event ∉ existing.map recordTriple).map draftOf

variable (keys : KeyService) (sha256 : String → String)

def syncEvents (call : SyncCall) (userId : Uuid) (db : Database) :
    Except Raised Derivation × EventSession :=
  match resolveFillPositions call.resolvedOrder userId db with
  | .error raised => (.error raised, ⟨db.events, []⟩)
  | .ok resolutions =>
      match readFills keys call.fillOrder userId db with
      | .error raised => (.error raised, ⟨db.events, []⟩)
      | .ok fills =>
          let derivation := deriveEvents sha256 (narrow call.orderIds fills) resolutions
          match readEvents keys call.eventOrder userId db with
          | .error raised => (.error raised, ⟨db.events, []⟩)
          | .ok existing =>
              let drafts := draftsOf existing derivation.events
              if drafts = [] then (.ok derivation, ⟨db.events, []⟩)
              else
                match insertEvents keys call.draws userId drafts db with
                | (.error raised, session) => (.error raised, session)
                | (.ok (), session) => (.ok derivation, session)

/-- The database after a call that returned and whose caller committed; a
call that raised is rolled back. -/
def commitSync (call : SyncCall) (userId : Uuid) (db : Database) : Option Database :=
  match syncEvents keys sha256 call userId db with
  | (.error _, _) => none
  | (.ok _, session) => some { db with events := session.stored ++ session.pending }

def commitSyncs (calls : List SyncCall) (userId : Uuid) (db : Database) : Option Database :=
  match calls with
  | [] => some db
  | call :: rest => (commitSync keys sha256 call userId db).bind (commitSyncs rest userId)

/-! ## What one call does -/

def writeTriple (event : EventWrite) : Triple :=
  (event.positionId, event.eventType, event.fillIdsHash)

theorem draft_open_or_close (event : DerivedEvent) : OpenOrClose (draftOf event) := by
  unfold OpenOrClose draftOf
  cases event.eventType with
  | openEvent => exact Or.inl rfl
  | closeEvent => exact Or.inr rfl

/-- The skip test is the generic one, on contents. -/
theorem drafts_of_missing (existing : List EventRecord) (events : List DerivedEvent) :
    draftsOf existing events =
      missing writeTriple (existing.map EventRecord.content) (events.map draftOf) := by
  have triples : existing.map recordTriple =
      (existing.map EventRecord.content).map writeTriple := by
    rw [List.map_map]
    rfl
  unfold draftsOf missing
  rw [List.filter_map, triples]
  apply congrArg (List.map draftOf)
  apply List.filter_congr
  intro event _
  apply decide_eq_decide.mpr
  exact Iff.rfl

/-- What a committed call read and what it added to what a reader sees. -/
theorem commit_sync_spec (call : SyncCall) (userId : Uuid) (db after : Database)
    (ran : commitSync keys sha256 call userId db = some after) :
    ∃ resolutions fills existing,
      resolveFillPositions call.resolvedOrder userId db = .ok resolutions ∧
      readFills keys call.fillOrder userId db = .ok fills ∧
      readEvents keys call.eventOrder userId db = .ok existing ∧
      after = { db with events := after.events } ∧
      storedContents keys userId after = storedContents keys userId db ++
        draftsOf existing
          (deriveEvents sha256 (narrow call.orderIds fills) resolutions).events ∧
      (draftsOf existing
          (deriveEvents sha256 (narrow call.orderIds fills) resolutions).events = [] →
        after = db) := by
  unfold commitSync syncEvents at ran
  cases resolve : resolveFillPositions call.resolvedOrder userId db with
  | error raised => simp [resolve] at ran
  | ok resolutions =>
      cases readF : readFills keys call.fillOrder userId db with
      | error raised => simp [resolve, readF] at ran
      | ok fills =>
          cases readE : readEvents keys call.eventOrder userId db with
          | error raised => simp [resolve, readF, readE] at ran
          | ok existing =>
              refine ⟨resolutions, fills, existing, rfl, rfl, rfl, ?_⟩
              simp only [resolve, readF, readE] at ran
              by_cases idle : draftsOf existing
                  (deriveEvents sha256 (narrow call.orderIds fills) resolutions).events = []
              · simp only [idle, if_true, List.append_nil, Option.some.injEq] at ran
                rw [idle, ← ran]
                exact ⟨rfl, (List.append_nil _).symm, fun _ => rfl⟩
              · rw [if_neg idle] at ran
                cases inserted : insertEvents keys call.draws userId (draftsOf existing
                    (deriveEvents sha256 (narrow call.orderIds fills) resolutions).events) db with
                | mk outcome session =>
                    cases outcome with
                    | error raised => simp [inserted] at ran
                    | ok done =>
                        rcases insert_events_current keys call.draws userId _ db session
                          inserted with ⟨dek, keyVersion, current⟩
                        have kinds : ∀ event ∈ draftsOf existing (deriveEvents sha256
                            (narrow call.orderIds fills) resolutions).events,
                            OpenOrClose event := by
                          intro event member
                          rcases List.mem_map.mp member with ⟨derived, _, shape⟩
                          rw [← shape]
                          apply draft_open_or_close
                        have written := insert_events_ok keys call.draws userId _ db dek
                          keyVersion current kinds
                        rw [written] at inserted
                        simp only [written, List.append_nil, Option.some.injEq] at ran
                        rw [← ran]
                        refine ⟨rfl, ?_, fun empty => absurd empty idle⟩
                        apply insert_events_contents
                        exact current

/-! ## Positions of the events -/

/-- A fill is only ever resolved to a position that one of the user's legs
hangs on. -/
theorem resolved_leg (order : ScanOrder ResolvedRow) (userId : Uuid) (db : Database)
    (resolutions : Resolutions) (key : FillKey) (position : Uuid)
    (ran : resolveFillPositions order userId db = .ok resolutions)
    (resolved : resolutions.get key = some position) :
    ∃ leg ∈ db.legs, leg.userId = userId ∧ leg.positionId = position := by
  obtain ⟨found, foundRan, spec⟩ := resolve_fill_positions_spec order userId db
  rw [ran, Except.ok.injEq] at foundRan
  rw [foundRan] at resolved
  have rule := ((spec key position).mp resolved).2
  have inside : position ∈ candidates db userId key.occSymbol ∩ anchored db userId key.orderId := by
    rw [rule]
    rfl
  obtain ⟨leg, member, owner, _, same⟩ := inside.1
  exact ⟨leg, member, owner, same⟩

theorem derived_leg (order : ScanOrder ResolvedRow) (userId : Uuid) (db : Database)
    (resolutions : Resolutions) (fills : List FillRecord)
    (ran : resolveFillPositions order userId db = .ok resolutions) (event : DerivedEvent)
    (member : event ∈ (deriveEvents sha256 fills resolutions).events) :
    ∃ leg ∈ db.legs, leg.userId = userId ∧ leg.positionId = event.positionId := by
  have listed := (derive_events_perm sha256 fills resolutions).mem_iff.mp member
  obtain ⟨key, keyMember, shape⟩ := List.mem_map.mp listed
  obtain ⟨fill, _, filed⟩ := (mem_group_keys resolutions fills key).mp keyMember
  have resolved := ((group_key_of_some resolutions fill key).mp filed).1
  rw [← shape]
  exact resolved_leg order userId db resolutions fill.key key.positionId ran resolved

/-- A call adds no event but on a position of the user's legs. -/
theorem sync_events_positions (call : SyncCall) (userId : Uuid) (db : Database)
    (derivation : Derivation) (session : EventSession)
    (ran : syncEvents keys sha256 call userId db = (.ok derivation, session)) :
    ∀ row ∈ session.stored ++ session.pending, row ∈ db.events ∨
      ∃ leg ∈ db.legs, leg.userId = userId ∧ leg.positionId = row.positionId := by
  unfold syncEvents at ran
  split at ran
  · cases ran
  · rename_i resolutions resolved
    split at ran
    · cases ran
    · rename_i fills readFills
      split at ran
      · cases ran
      · rename_i existing readEvents
        dsimp only at ran
        split_ifs at ran with idle
        · cases ran
          intro row member
          rw [List.append_nil] at member
          exact Or.inl member
        · split at ran
          · cases ran
          · rename_i inserted
            cases ran
            obtain ⟨dek, keyVersion, _, shape⟩ := insert_events_returned keys call.draws userId _ db
              session inserted
            intro row member
            rw [shape, List.append_nil] at member
            cases List.mem_append.mp member with
            | inl old => exact Or.inl old
            | inr new =>
                obtain ⟨⟨draft, index⟩, draftMember, same⟩ := List.mem_map.mp new
                obtain ⟨event, eventMember, drafted⟩ :=
                  List.mem_map.mp (List.fst_mem_of_mem_zipIdx draftMember)
                have leg := derived_leg sha256 call.resolvedOrder userId db resolutions _ resolved
                  event (List.mem_filter.mp eventMember).1
                right
                rw [← same]
                exact drafted ▸ leg

end Morai.Ledger.SyncEvents
