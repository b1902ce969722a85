import Mathlib.Algebra.BigOperators.Ring.List
import Morai.Foundation.Runs
import Morai.Ledger.CashConservation
import Morai.Ledger.ScopedReplay

/-!
# Which fills the stored events count

Runs of the three writers of one user's ledger, with a memory of the fill keys
every stored event was derived from. A late partial fill, or a leg that moves
a resolution, changes a group whose event is already stored, and the next sync
stores the changed group beside it. As long as no sync meets such a group,
every fill is counted at most once and an unscoped sync balances each position.
-/

namespace Morai.Ledger.FillAccounting

open Morai.Crypto Morai.Db Morai.Python Morai.Foundation.Runs Morai.Foundation.OrderedGroups
open Morai.Foundation.ReadCompareSkip
open Morai.Ledger.Fills Morai.Ledger.Events Morai.Ledger.Pairing Morai.Ledger.ResolveQuery
open Morai.Ledger.SyncEvents Morai.Ledger.ScopedReplay Morai.Ledger.CashConservation

set_option autoImplicit false

/-- What the run remembers of a stored event. -/
structure Memory where
  event : EventWrite
  group : GroupKey
  fillKeys : List FillKey
  deriving DecidableEq

structure LedgerState where
  db : Database
  memories : List Memory

inductive Action where
  | insertFills (draws : Nat → FillDraw) (fills : List FillWrite)
  | insertLegs (legs : List Leg)
  | syncEvents (call : SyncCall)

variable (keys : KeyService) (sha256 : String → String) (userId : Uuid)

def memoryOf (group : GroupKey × List FillRecord) : Memory :=
  ⟨draftOf (eventOfGroup sha256 group), group.1, group.2.map FillRecord.key⟩

/-- The groups behind the drafts a call inserts. -/
def newMemories (call : SyncCall) (db : Database) : List Memory :=
  match resolveFillPositions call.resolvedOrder userId db,
      readFills keys call.fillOrder userId db, readEvents keys call.eventOrder userId db with
  | .ok resolutions, .ok fills, .ok existing =>
      ((fileFills resolutions (narrow call.orderIds fills)).groups.map
        (memoryOf sha256)).filter fun memory =>
          writeTriple memory.event ∉ existing.map recordTriple
  | _, _, _ => []

/-- A committed writer; one that raises is rolled back and is no step. -/
def step (state : LedgerState) : Action → Option LedgerState
  | .insertFills draws fills =>
      match insertFills keys draws userId fills state.db with
      | .error _ => none
      | .ok (_, db) => some { state with db := db }
  | .insertLegs legs =>
      some { state with db := { state.db with legs := state.db.legs ++ legs } }
  | .syncEvents call =>
      (commitSync keys sha256 call userId state.db).map fun db =>
        ⟨db, state.memories ++ newMemories keys sha256 userId call state.db⟩

/-- Fills and events of the user are empty. -/
def Fresh (state : LedgerState) : Prop :=
  fillRowsOf state.db userId = [] ∧ eventRowsOf state.db userId = [] ∧ state.memories = []

def NoFillTwice (memories : List Memory) : Prop :=
  memories.Pairwise fun left right => ∀ key ∈ left.fillKeys, key ∉ right.fillKeys

instance (memories : List Memory) : Decidable (NoFillTwice memories) :=
  inferInstanceAs (Decidable (List.Pairwise _ _))

/-- What `resolve_fill_positions` answers in a state. -/
def currentResolutions (db : Database) : Resolutions :=
  resolutionsOf (.asStored ResolvedRow) userId db

def currentGroups (db : Database) : List GroupKey :=
  groupKeys (currentResolutions userId db) (visibleFills keys userId db)

def currentKeys (db : Database) (group : GroupKey) : List FillKey :=
  memberKeys (currentResolutions userId db) (visibleFills keys userId db) group

def currentDraft (db : Database) (group : GroupKey) : EventWrite :=
  fullDraft sha256 (currentResolutions userId db) (visibleFills keys userId db) group

/-- The stored event's group is still exactly what it was derived from. -/
def StillCurrent (db : Database) (memory : Memory) : Prop :=
  memory.group ∈ currentGroups keys userId db ∧
    memory.fillKeys.Perm (currentKeys keys userId db memory.group)

/-- No group in scope shares a fill with a stored event it has outgrown. -/
def ScopeUndisturbed (call : SyncCall) (state : LedgerState) : Prop :=
  ∀ group ∈ currentGroups keys userId state.db, inScope call.orderIds group.orderId = true →
    ∀ memory ∈ state.memories,
      (∃ key ∈ memory.fillKeys, key ∈ currentKeys keys userId state.db group) →
        memory.group = group ∧ memory.fillKeys.Perm (currentKeys keys userId state.db group)

/-- A group whose draft would be skipped is stored itself; only two key sets
with one digest can fail this. -/
def SkipsOnlyStored (state : LedgerState) : Prop :=
  ∀ group ∈ currentGroups keys userId state.db,
    writeTriple (currentDraft keys sha256 userId state.db group) ∈
        state.memories.map (fun memory => writeTriple memory.event) →
      ∃ memory ∈ state.memories, memory.group = group

/-- The condition on the state a sync starts from. -/
def Undisturbed (state : LedgerState) : Action → Prop
  | .insertFills _ _ => True
  | .insertLegs _ => True
  | .syncEvents call =>
      ScopeUndisturbed keys userId call state ∧
        (call.orderIds = none →
          (∀ memory ∈ state.memories, StillCurrent keys userId state.db memory) ∧
            SkipsOnlyStored keys sha256 userId state)

instance (db : Database) (memory : Memory) : Decidable (StillCurrent keys userId db memory) :=
  inferInstanceAs (Decidable (_ ∧ _))

instance (call : SyncCall) (state : LedgerState) :
    Decidable (ScopeUndisturbed keys userId call state) :=
  inferInstanceAs (Decidable (∀ group ∈ currentGroups keys userId state.db,
    inScope call.orderIds group.orderId = true → ∀ memory ∈ state.memories,
      (∃ key ∈ memory.fillKeys, key ∈ currentKeys keys userId state.db group) → _ ∧ _))

instance (state : LedgerState) : Decidable (SkipsOnlyStored keys sha256 userId state) :=
  inferInstanceAs (Decidable (∀ group ∈ currentGroups keys userId state.db, _ →
    ∃ memory ∈ state.memories, memory.group = group))

instance (state : LedgerState) :
    ∀ action, Decidable (Undisturbed keys sha256 userId state action)
  | .insertFills _ _ => isTrue trivial
  | .insertLegs _ => isTrue trivial
  | .syncEvents call => inferInstanceAs (Decidable (_ ∧ (call.orderIds = none → _ ∧ _)))

instance (state : LedgerState) : Decidable (Fresh userId state) :=
  inferInstanceAs (Decidable (_ ∧ _ ∧ _))

/-- The amount an event of the given type reports. -/
def reported (eventType : EventType) (event : EventWrite) : ℚ :=
  match eventType with
  | .openEvent => event.openDebitUsd.elim 0 Decimal.toRat
  | .closeEvent => event.closeCreditUsd.elim 0 Decimal.toRat

def roleOf : EventType → FillRole
  | .openEvent => .openRole
  | .closeEvent => .closeRole

/-- Resolved to the position, in the role of the event type. -/
def ResolvedAs (db : Database) (position : Uuid) (eventType : EventType) (fill : FillRecord) :
    Prop :=
  (currentResolutions userId db).get fill.key = some position ∧
    classifyFill fill.positionEffect = roleOf eventType

instance (db : Database) (position : Uuid) (eventType : EventType) (fill : FillRecord) :
    Decidable (ResolvedAs userId db position eventType fill) :=
  inferInstanceAs (Decidable (_ ∧ _))

/-- Per position and type, the stored amounts are the cash of exactly the
fills now resolved there, unless one of these has a gap. -/
def Balanced (db : Database) : Prop :=
  ∀ position eventType,
    (∀ fill ∈ visibleFills keys userId db,
      ResolvedAs userId db position eventType fill → ¬IsGap fill) →
    (((storedContents keys userId db).filter fun event =>
        event.positionId = position ∧ event.eventType = eventType.value).map
          (reported eventType)).sum =
      eventType.sign * (((visibleFills keys userId db).filter fun fill =>
        ResolvedAs userId db position eventType fill).map cashFlow).sum

/-! ## The run invariant -/

/-- A memory is backed by the fills it names. -/
def Grounded (db : Database) (memory : Memory) : Prop :=
  ∃ members : List FillRecord, members ≠ [] ∧
    (∀ fill ∈ members, fill ∈ visibleFills keys userId db) ∧
    members.map FillRecord.key = memory.fillKeys ∧
    memory.event = draftOf (eventOfGroup sha256 (memory.group, members))

structure Accounted (state : LedgerState) : Prop where
  stored : (storedContents keys userId state.db).Perm (state.memories.map Memory.event)
  disjoint : NoFillTwice state.memories
  grounded : ∀ memory ∈ state.memories, Grounded keys sha256 userId state.db memory

theorem fresh_accounted (state : LedgerState) (fresh : Fresh userId state) :
    Accounted keys sha256 userId state := by
  rcases fresh with ⟨_, noEvents, noMemories⟩
  constructor
  · rw [storedContents, visibleEvents, noEvents, noMemories]
    exact List.Perm.refl _
  · rw [noMemories]
    exact List.Pairwise.nil
  · rw [noMemories]
    intro memory member
    cases member

/-- Records are never changed or removed, so a memory stays backed. -/
theorem grounded_grows (before after : Database) (memory : Memory)
    (grows : ∀ fill ∈ visibleFills keys userId before, fill ∈ visibleFills keys userId after)
    (grounded : Grounded keys sha256 userId before memory) :
    Grounded keys sha256 userId after memory := by
  rcases grounded with ⟨members, some, listed, sameKeys, event⟩
  exact ⟨members, some, fun fill member => grows fill (listed fill member), sameKeys, event⟩

/-- Records of one table are told by their keys. -/
theorem members_of_keys (fills left right : List FillRecord)
    (distinct : (fills.map FillRecord.key).Nodup) (leftListed : ∀ fill ∈ left, fill ∈ fills)
    (rightListed : ∀ fill ∈ right, fill ∈ fills)
    (same : (left.map FillRecord.key).Perm (right.map FillRecord.key)) : left.Perm right := by
  have found : ∀ fill ∈ fills,
      (fills.find? fun other => other.key = fill.key) = some fill := by
    intro fill member
    cases search : fills.find? fun other => other.key = fill.key with
    | none =>
        have absent := List.find?_eq_none.mp search fill member
        simp at absent
    | some other =>
        have otherKey : other.key = fill.key := by simpa using List.find?_some search
        rw [List.inj_on_of_nodup_map distinct (List.mem_of_find?_eq_some search) member otherKey]
  have recovers : ∀ part : List FillRecord, (∀ fill ∈ part, fill ∈ fills) →
      (part.map FillRecord.key).filterMap
        (fun key => fills.find? fun other => other.key = key) = part := by
    intro part listed
    induction part with
    | nil => rfl
    | cons fill rest ih =>
        rw [List.map_cons, List.filterMap_cons, found fill (listed fill List.mem_cons_self)]
        rw [ih fun other member => listed other (List.mem_cons_of_mem _ member)]
  rw [← recovers left leftListed, ← recovers right rightListed]
  exact same.filterMap _

/-- A memory whose key set is a current group's was derived exactly as that
group would be now. -/
theorem grounded_draft (db : Database) (memory : Memory)
    (grounded : Grounded keys sha256 userId db memory)
    (same : memory.fillKeys.Perm (currentKeys keys userId db memory.group)) :
    memory.event = currentDraft keys sha256 userId db memory.group := by
  rcases grounded with ⟨members, _, listed, sameKeys, event⟩
  have perm : members.Perm (groupMembers (currentResolutions userId db)
      (visibleFills keys userId db) memory.group) := by
    apply members_of_keys (visibleFills keys userId db) _ _
      (visible_fills_keys_nodup keys userId db) listed
    · intro fill member
      exact ((mem_group_members _ _ _ _).mp member).1
    · rw [sameKeys]
      exact same
  rw [event, currentDraft, fullDraft, event_of_group_perm sha256 memory.group _ _ perm]

theorem grounded_keys_ne_nil (db : Database) (memory : Memory)
    (grounded : Grounded keys sha256 userId db memory) : ∃ key, key ∈ memory.fillKeys := by
  rcases grounded with ⟨members, some, _, sameKeys, _⟩
  cases members with
  | nil => exact absurd rfl some
  | cons fill rest =>
      rw [← sameKeys]
      exact ⟨fill.key, List.mem_cons_self⟩

/-! ## One sync -/

/-- The memories a call makes, once its three reads are known. -/
theorem new_memories_eq (call : SyncCall) (db : Database) (own : Resolutions)
    (fills : List FillRecord) (existing : List EventRecord)
    (resolve : resolveFillPositions call.resolvedOrder userId db = .ok own)
    (readF : readFills keys call.fillOrder userId db = .ok fills)
    (readE : readEvents keys call.eventOrder userId db = .ok existing) :
    newMemories keys sha256 userId call db =
      ((groupKeys own (narrow call.orderIds fills)).map fun group =>
        memoryOf sha256 (group, groupMembers own (narrow call.orderIds fills) group)).filter
          fun memory => writeTriple memory.event ∉ existing.map recordTriple := by
  simp only [newMemories, resolve, readF, readE]
  rw [file_fills_eq]
  dsimp only
  rw [groups_eq_members, List.map_map]
  rfl

theorem drafts_are_new_memories (existing : List EventRecord) (own : Resolutions)
    (fills : List FillRecord) :
    (draftsOf existing (deriveEvents sha256 fills own).events).Perm
      ((((groupKeys own fills).map fun group =>
        memoryOf sha256 (group, groupMembers own fills group)).filter
          fun memory => writeTriple memory.event ∉ existing.map recordTriple).map
            Memory.event) := by
  have derived := (derive_events_perm sha256 fills own).filter fun event =>
    eventTriple event ∉ existing.map recordTriple
  apply (derived.map draftOf).trans
  rw [List.filter_map, List.filter_map, List.map_map, List.map_map]
  exact List.Perm.refl _

/-- What a committed sync's new memories are: exactly the current groups in
scope whose triple no stored event has. -/
theorem new_memories_spec (call : SyncCall) (db after : Database)
    (ran : commitSync keys sha256 call userId db = some after) :
    (∀ memory ∈ newMemories keys sha256 userId call db,
      StillCurrent keys userId db memory ∧ Grounded keys sha256 userId db memory ∧
        inScope call.orderIds memory.group.orderId = true ∧
        writeTriple memory.event ∉ (storedContents keys userId db).map writeTriple) ∧
      ((newMemories keys sha256 userId call db).map Memory.group).Nodup ∧
      (∀ group ∈ currentGroups keys userId db, inScope call.orderIds group.orderId = true →
        writeTriple (currentDraft keys sha256 userId db group) ∉
          (storedContents keys userId db).map writeTriple →
        ∃ memory ∈ newMemories keys sha256 userId call db, memory.group = group) ∧
      (storedContents keys userId after).Perm (storedContents keys userId db ++
        (newMemories keys sha256 userId call db).map Memory.event) ∧
      after = { db with events := after.events } := by
  rcases commit_sync_spec keys sha256 call userId db after ran with
    ⟨own, fills, existing, resolve, readF, readE, frame, contents, _⟩
  have reading := read_fills_ok keys call.fillOrder userId db fills readF
  have same := resolve_fill_positions_same call.resolvedOrder (.asStored ResolvedRow) userId db
    own (currentResolutions userId db) resolve
    (resolve_fill_positions_total (.asStored ResolvedRow) userId db)
  have groups := narrowed_reading_keys (currentResolutions userId db)
    (visibleFills keys userId db) fills own reading same call.orderIds
  have members := narrowed_reading_members (currentResolutions userId db)
    (visibleFills keys userId db) fills own reading same call.orderIds
  have triples : ∀ triple, triple ∈ existing.map recordTriple ↔
      triple ∈ (storedContents keys userId db).map writeTriple := by
    intro triple
    have stored := (read_events_ok keys call.eventOrder userId db existing readE).map
      (writeTriple ∘ EventRecord.content)
    rw [storedContents, List.map_map, ← stored.mem_iff]
    exact Iff.rfl
  have made := new_memories_eq keys sha256 userId call db own fills existing resolve readF readE
  refine ⟨?_, ?_, ?_, ?_, frame⟩
  · intro memory member
    rw [made, List.mem_filter, decide_eq_true_eq, triples] at member
    rcases List.mem_map.mp member.1 with ⟨group, groupMember, shape⟩
    rcases List.mem_filter.mp (groups.mem_iff.mp groupMember) with ⟨listed, covered⟩
    subst shape
    refine ⟨⟨listed, (members group covered).map FillRecord.key⟩, ⟨_, ?_, ?_, rfl, rfl⟩,
      covered, member.2⟩
    · rcases member_keys_ne_nil _ _ group groupMember with ⟨key, inGroup⟩
      rcases List.mem_map.mp inGroup with ⟨fill, fillMember, _⟩
      exact List.ne_nil_of_mem fillMember
    · intro fill fillMember
      rcases (mem_group_members _ _ _ _).mp fillMember with ⟨inReading, _⟩
      exact reading.mem_iff.mp ((mem_narrow fills call.orderIds fill).mp inReading).1
  · have whole : ((groupKeys own (narrow call.orderIds fills)).map fun group =>
        memoryOf sha256 (group, groupMembers own (narrow call.orderIds fills) group)).map
          Memory.group = groupKeys own (narrow call.orderIds fills) := by
      rw [List.map_map]
      exact List.map_id _
    rw [made]
    apply List.Nodup.sublist (List.filter_sublist.map _)
    rw [whole]
    apply group_keys_nodup
  · intro group listed covered absent
    refine ⟨memoryOf sha256 (group, groupMembers own (narrow call.orderIds fills) group), ?_, rfl⟩
    rw [made, List.mem_filter, decide_eq_true_eq, triples]
    constructor
    · apply List.mem_map_of_mem
      exact groups.mem_iff.mpr (List.mem_filter.mpr ⟨listed, covered⟩)
    · rw [memoryOf, event_of_group_perm sha256 group _ _ (members group covered)]
      exact absent
  · rw [contents, made]
    apply List.Perm.append_left
    apply drafts_are_new_memories

/-- The step lemma: an undisturbed sync keeps every fill in one event. -/
theorem sync_keeps_accounted (call : SyncCall) (state : LedgerState) (after : Database)
    (accounted : Accounted keys sha256 userId state)
    (undisturbed : ScopeUndisturbed keys userId call state)
    (ran : commitSync keys sha256 call userId state.db = some after) :
    Accounted keys sha256 userId
      ⟨after, state.memories ++ newMemories keys sha256 userId call state.db⟩ := by
  rcases new_memories_spec keys sha256 userId call state.db after ran with
    ⟨made, nodup, _, contents, frame⟩
  have fillsAfter : visibleFills keys userId after = visibleFills keys userId state.db := by
    rw [frame]
    rfl
  have grows : ∀ fill ∈ visibleFills keys userId state.db,
      fill ∈ visibleFills keys userId after := by
    intro fill member
    rw [fillsAfter]
    exact member
  constructor
  · apply contents.trans
    rw [List.map_append]
    apply accounted.stored.append_right
  · apply List.pairwise_append.mpr
    refine ⟨accounted.disjoint, ?_, ?_⟩
    · -- two new groups that shared a fill would be one group
      apply (List.pairwise_map.mp nodup).imp_of_mem
      intro left right leftMember rightMember different key inLeft inRight
      apply different
      have leftCurrent := (made left leftMember).1
      have rightCurrent := (made right rightMember).1
      exact group_of_shared_key _ _ (visible_fills_keys_nodup keys userId state.db) _ _ key
        (leftCurrent.2.mem_iff.mp inLeft) (rightCurrent.2.mem_iff.mp inRight)
    · -- an old event that shared a fill would have the new draft's triple
      intro old oldMember new newMember key inOld inNew
      rcases made new newMember with ⟨current, grounded, covered, absent⟩
      have overlap := undisturbed new.group current.1 covered old oldMember
        ⟨key, inOld, current.2.mem_iff.mp inNew⟩
      have oldDraft := grounded_draft keys sha256 userId state.db old
        (accounted.grounded old oldMember) (overlap.1 ▸ overlap.2)
      have newDraft := grounded_draft keys sha256 userId state.db new grounded current.2
      apply absent
      rw [newDraft, ← overlap.1, ← oldDraft]
      apply List.mem_map_of_mem
      rw [accounted.stored.mem_iff]
      exact List.mem_map_of_mem oldMember
  · intro memory member
    apply grounded_grows keys sha256 userId state.db after memory grows
    rcases List.mem_append.mp member with old | new
    · exact accounted.grounded memory old
    · exact (made memory new).2.1

/-! ## Balance after an unscoped sync -/

theorem memory_groups_nodup (db : Database) (memories : List Memory)
    (disjoint : NoFillTwice memories)
    (backed : ∀ memory ∈ memories, ∃ key, key ∈ memory.fillKeys)
    (current : ∀ memory ∈ memories, StillCurrent keys userId db memory) :
    (memories.map Memory.group).Nodup := by
  apply List.pairwise_map.mpr
  apply disjoint.imp_of_mem
  intro left right leftMember rightMember apart same
  rcases backed left leftMember with ⟨key, inLeft⟩
  apply apart key inLeft
  have leftKeys := (current left leftMember).2
  have rightKeys := (current right rightMember).2
  rw [← same] at rightKeys
  exact rightKeys.mem_iff.mpr (leftKeys.mem_iff.mp inLeft)

/-- After an unscoped sync of an undisturbed ledger the table holds the full
derivation, no more and no less. -/
theorem unscoped_sync_contents (call : SyncCall) (state : LedgerState) (after : Database)
    (accounted : Accounted keys sha256 userId state)
    (undisturbed : Undisturbed keys sha256 userId state (.syncEvents call))
    (unscoped : call.orderIds = none)
    (ran : commitSync keys sha256 call userId state.db = some after) :
    (storedContents keys userId after).Perm
      ((currentGroups keys userId state.db).map
        (currentDraft keys sha256 userId state.db)) := by
  rcases undisturbed.2 unscoped with ⟨stillCurrent, skipsOnlyStored⟩
  rcases new_memories_spec keys sha256 userId call state.db after ran with
    ⟨made, _, complete, _, _⟩
  have next := sync_keeps_accounted keys sha256 userId call state after accounted undisturbed.1
    ran
  have current : ∀ memory ∈ state.memories ++ newMemories keys sha256 userId call state.db,
      StillCurrent keys userId state.db memory ∧
        Grounded keys sha256 userId state.db memory := by
    intro memory member
    rcases List.mem_append.mp member with old | new
    · exact ⟨stillCurrent memory old, accounted.grounded memory old⟩
    · exact ⟨(made memory new).1, (made memory new).2.1⟩
  have drafts : (state.memories ++ newMemories keys sha256 userId call state.db).map
      Memory.event =
      ((state.memories ++ newMemories keys sha256 userId call state.db).map Memory.group).map
        (currentDraft keys sha256 userId state.db) := by
    rw [List.map_map]
    apply List.map_congr_left
    intro memory member
    exact grounded_draft keys sha256 userId state.db memory (current memory member).2
      (current memory member).1.2
  have groups : ((state.memories ++ newMemories keys sha256 userId call state.db).map
      Memory.group).Perm (currentGroups keys userId state.db) := by
    apply (List.perm_ext_iff_of_nodup (memory_groups_nodup keys userId state.db _ next.disjoint
      (fun memory member => grounded_keys_ne_nil keys sha256 userId state.db memory
        (current memory member).2)
      fun memory member => (current memory member).1) (group_keys_nodup _ _)).mpr
    intro group
    constructor
    · intro found
      rcases List.mem_map.mp found with ⟨memory, member, shape⟩
      rw [← shape]
      exact (current memory member).1.1
    · intro listed
      have covered : inScope call.orderIds group.orderId = true := by
        rw [unscoped]
        rfl
      by_cases held : writeTriple (currentDraft keys sha256 userId state.db group) ∈
          (storedContents keys userId state.db).map writeTriple
      · rw [(accounted.stored.map writeTriple).mem_iff, List.map_map] at held
        rcases skipsOnlyStored group listed held with ⟨memory, member, shape⟩
        rw [← shape]
        exact List.mem_map_of_mem (List.mem_append_left _ member)
      · rcases complete group listed covered held with ⟨memory, member, shape⟩
        rw [← shape]
        exact List.mem_map_of_mem (List.mem_append_right _ member)
  apply next.stored.trans
  rw [drafts]
  exact groups.map _

theorem event_type_value_injective (left right : EventType) :
    left.value = right.value ↔ left = right := by
  cases left <;> cases right <;> decide

/-- An event of its type reports its cash, signed. -/
theorem reported_draft (group : GroupKey × List FillRecord) (eventType : EventType)
    (same : (eventOfGroup sha256 group).eventType = eventType) :
    reported eventType (draftOf (eventOfGroup sha256 group)) =
      eventType.sign * (eventOfGroup sha256 group).cash := by
  subst same
  unfold DerivedEvent.cash draftOf eventOfGroup
  cases eventTypeOf group.1.role with
  | openEvent => simp [reported, EventType.sign]
  | closeEvent => simp [reported, EventType.sign]

theorem counted_resolved_as (db : Database) (position : Uuid) (eventType : EventType)
    (fill : FillRecord) :
    countedFor (fun found type => found = position ∧ type = eventType)
        (currentResolutions userId db) fill = true ↔
      ResolvedAs userId db position eventType fill := by
  unfold countedFor ResolvedAs groupKeyOf
  cases (currentResolutions userId db).get fill.key with
  | none => simp
  | some found =>
      cases classifyFill fill.positionEffect <;> cases eventType <;> simp [eventTypeOf, roleOf]

theorem full_derivation_balances (db : Database)
    (contents : (storedContents keys userId db).Perm ((currentGroups keys userId db).map
      (currentDraft keys sha256 userId db))) : Balanced keys userId db := by
  intro position eventType sound
  have derived := derive_events_perm sha256 (visibleFills keys userId db)
    (currentResolutions userId db)
  have listed : (storedContents keys userId db).Perm
      ((deriveEvents sha256 (visibleFills keys userId db)
        (currentResolutions userId db)).events.map draftOf) := by
    apply contents.trans
    apply List.Perm.trans _ (derived.map draftOf).symm
    rw [List.map_map]
    exact List.Perm.refl _
  have law := cash_of_selected sha256
    (fun found type => found = position ∧ type = eventType) (currentResolutions userId db)
    (visibleFills keys userId db) fun fill member counted =>
      sound fill member ((counted_resolved_as userId db position eventType fill).mp counted)
  have same : countedFor (fun found type => found = position ∧ type = eventType)
      (currentResolutions userId db) =
      fun fill => decide (ResolvedAs userId db position eventType fill) := by
    funext fill
    rw [Bool.eq_iff_iff, decide_eq_true_eq]
    exact counted_resolved_as userId db position eventType fill
  rw [same] at law
  calc (((storedContents keys userId db).filter fun event =>
          event.positionId = position ∧ event.eventType = eventType.value).map
            (reported eventType)).sum
      = ((((deriveEvents sha256 (visibleFills keys userId db)
          (currentResolutions userId db)).events.map draftOf).filter fun event =>
            event.positionId = position ∧ event.eventType = eventType.value).map
              (reported eventType)).sum :=
        ((listed.filter _).map _).sum_eq
    _ = (((deriveEvents sha256 (visibleFills keys userId db)
          (currentResolutions userId db)).events.filter fun event =>
            event.positionId = position ∧ event.eventType = eventType).map fun event =>
              eventType.sign * event.cash).sum := by
        rw [List.filter_map, List.map_map]
        have selection : ((fun event : EventWrite => decide (event.positionId = position ∧
            event.eventType = eventType.value)) ∘ draftOf) =
            fun event => decide (event.positionId = position ∧ event.eventType = eventType) := by
          funext event
          apply decide_eq_decide.mpr
          rw [draftOf, event_type_value_injective]
        rw [selection]
        apply congrArg
        apply List.map_congr_left
        intro event member
        rcases List.mem_filter.mp member with ⟨inEvents, chosen⟩
        rcases List.mem_map.mp (derived.mem_iff.mp inEvents) with ⟨group, _, shape⟩
        have type : event.eventType = eventType := by
          simp only [decide_eq_true_eq] at chosen
          exact chosen.2
        rw [← shape] at type ⊢
        exact reported_draft sha256 _ eventType type
    _ = eventType.sign * cashOf ((deriveEvents sha256 (visibleFills keys userId db)
          (currentResolutions userId db)).events.filter fun event =>
            event.positionId = position ∧ event.eventType = eventType) := by
        rw [cashOf, List.sum_map_mul_left]
    _ = eventType.sign * (((visibleFills keys userId db).filter fun fill =>
          ResolvedAs userId db position eventType fill).map cashFlow).sum := by
        rw [law]

/-! ## Whole runs -/

theorem step_keeps_accounted (state : LedgerState) (action : Action) (next : LedgerState)
    (accounted : Accounted keys sha256 userId state)
    (undisturbed : Undisturbed keys sha256 userId state action)
    (stepped : step keys sha256 userId state action = some next) :
    Accounted keys sha256 userId next := by
  cases action with
  | insertFills draws fills =>
      unfold step at stepped
      cases inserted : insertFills keys draws userId fills state.db with
      | error raised => simp [inserted] at stepped
      | ok outcome =>
          simp only [inserted, Option.some.injEq] at stepped
          rcases insert_fills_extends keys draws userId fills state.db outcome.2 outcome.1
            inserted with ⟨frame, added, visible⟩
          have contents : storedContents keys userId outcome.2 =
              storedContents keys userId state.db := by
            rw [frame]
            rfl
          rw [← stepped]
          constructor
          · rw [contents]
            exact accounted.stored
          · exact accounted.disjoint
          · intro memory member
            apply grounded_grows keys sha256 userId state.db outcome.2 memory _
              (accounted.grounded memory member)
            intro fill old
            rw [visible]
            exact List.mem_append_left _ old
  | insertLegs legs =>
      cases stepped
      exact ⟨accounted.stored, accounted.disjoint, accounted.grounded⟩
  | syncEvents call =>
      unfold step at stepped
      rcases Option.map_eq_some_iff.mp stepped with ⟨after, ran, shape⟩
      rw [← shape]
      exact sync_keeps_accounted keys sha256 userId call state after accounted undisturbed.1 ran

def partialUser : Uuid := ⟨1⟩

def partialFill (orderId : String) (executionTime : Instant) : FillWrite :=
  ⟨orderId, "SPXW260320C05000000", 0, executionTime, "OPENING", "BUY", some ⟨1, 0⟩,
    some ⟨1250, -2⟩⟩

def partialDraws (index : Nat) : FillDraw := ⟨[UInt8.ofNat index], [UInt8.ofNat index]⟩

def partialCall (firstId : Nat) : SyncCall :=
  ⟨none, .asStored _, .asStored _, .asStored _,
    fun index => ⟨⟨Fin.ofNat _ (firstId + index)⟩, [], []⟩⟩

/-- SHA-256 on the digests taken. -/
def partialSha256 (text : String) : String :=
  if text = "7001:SPXW260320C05000000:0:1000" then
    "01a08d240639fbcf4820bb97e079cc076658af8d34e81a4cb4814b662ff59dad"
  else if text = "7001:SPXW260320C05000000:0:1000:7001:SPXW260320C05000000:0:8000" then
    "5e8c2943d35a434810831acc681d3045d963b2b323afa9d04a5aa1583b83ae59"
  else if text = "7002:SPXW260320C05000000:0:9000" then
    "cc71f055a62ae31c7944688473791ee14c00d1f93bd84f5ba5e4e222066d895a"
  else text

def partialStart : LedgerState where
  db := { Database.empty with userDataKeys := ⟨[⟨partialUser, 1, [7], [3]⟩], by decide⟩ }
  memories := []

/-- The second part of order 7001 lands after the first was synced. -/
def lateFillActions : List Action :=
  [.insertLegs [⟨⟨11⟩, partialUser, "SPXW260320C05000000"⟩],
    .insertFills partialDraws [partialFill "7001" 1000], .syncEvents (partialCall 100),
    .insertFills partialDraws [partialFill "7001" 8000], .syncEvents (partialCall 200)]

/-- Both parts of order 7001 before its sync, then another order. -/
def wholeOrderActions : List Action :=
  [.insertLegs [⟨⟨11⟩, partialUser, "SPXW260320C05000000"⟩],
    .insertFills partialDraws [partialFill "7001" 1000, partialFill "7001" 8000],
    .syncEvents (partialCall 100), .insertFills partialDraws [partialFill "7002" 9000],
    .syncEvents (partialCall 200)]

end Morai.Ledger.FillAccounting
