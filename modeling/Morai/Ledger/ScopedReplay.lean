import Morai.Ledger.SyncEvents

/-!
# Scoped replay

A scoped derivation is the restriction of the full one, because the key of a
group contains its order. With the skip test this makes every covering
sequence of scoped calls store what one unscoped call stores.
-/

namespace Morai.Ledger.ScopedReplay

open Morai.Crypto Morai.Db Morai.Python Morai.Foundation.ReadCompareSkip
open Morai.Ledger.Fills Morai.Ledger.Events Morai.Ledger.Pairing Morai.Ledger.ResolveQuery
open Morai.Ledger.SyncEvents

set_option autoImplicit false

variable (keys : KeyService) (sha256 : String → String)

/-! ## The catalogue of drafts -/

section Catalogue

variable (resolutions : Resolutions) (fills : List FillRecord)

/-- The draft a full derivation makes of one group. -/
def fullDraft (key : GroupKey) : EventWrite :=
  draftOf (eventOfGroup sha256 (key, groupMembers resolutions fills key))

def memberKeys (key : GroupKey) : List FillKey :=
  (groupMembers resolutions fills key).map FillRecord.key

/-- `hash_fill_ids` tells the key sets of the groups apart. -/
def HashSeparates : Prop :=
  ∀ left ∈ groupKeys resolutions fills, ∀ right ∈ groupKeys resolutions fills,
    hashFillIds sha256 (memberKeys resolutions fills left) =
      hashFillIds sha256 (memberKeys resolutions fills right) →
    (memberKeys resolutions fills left).Perm (memberKeys resolutions fills right)

instance : Decidable (HashSeparates sha256 resolutions fills) :=
  inferInstanceAs (Decidable (∀ left ∈ groupKeys resolutions fills,
    ∀ right ∈ groupKeys resolutions fills, _ → _))

theorem mem_group_members (key : GroupKey) (fill : FillRecord) :
    fill ∈ groupMembers resolutions fills key ↔
      fill ∈ fills ∧ groupKeyOf resolutions fill = some key := by
  rw [groupMembers, List.mem_filter, decide_eq_true_eq]

/-- Groups that share a fill key are one group. -/
theorem group_of_shared_key (distinct : (fills.map FillRecord.key).Nodup)
    (left right : GroupKey) (shared : FillKey)
    (inLeft : shared ∈ memberKeys resolutions fills left)
    (inRight : shared ∈ memberKeys resolutions fills right) : left = right := by
  rcases List.mem_map.mp inLeft with ⟨first, firstMember, firstKey⟩
  rcases List.mem_map.mp inRight with ⟨second, secondMember, secondKey⟩
  rw [mem_group_members] at firstMember secondMember
  have same := List.inj_on_of_nodup_map distinct firstMember.1 secondMember.1
    (firstKey.trans secondKey.symm)
  rw [same, secondMember.2] at firstMember
  exact (Option.some.inj firstMember.2).symm

theorem member_keys_ne_nil (key : GroupKey) (member : key ∈ groupKeys resolutions fills) :
    ∃ shared, shared ∈ memberKeys resolutions fills key := by
  rcases (mem_group_keys resolutions fills key).mp member with ⟨fill, listed, filed⟩
  exact ⟨fill.key, List.mem_map_of_mem ((mem_group_members _ _ _ _).mpr ⟨listed, filed⟩)⟩

theorem full_draft_injective (distinct : (fills.map FillRecord.key).Nodup)
    (separates : HashSeparates sha256 resolutions fills) :
    ∀ left ∈ groupKeys resolutions fills, ∀ right ∈ groupKeys resolutions fills,
      writeTriple (fullDraft sha256 resolutions fills left) =
        writeTriple (fullDraft sha256 resolutions fills right) → left = right := by
  intro left leftMember right rightMember same
  have hash := Option.some.inj (congrArg (fun triple : Triple => triple.2.2) same)
  have sameKeys := separates left leftMember right rightMember hash
  rcases member_keys_ne_nil resolutions fills left leftMember with ⟨shared, inLeft⟩
  exact group_of_shared_key resolutions fills distinct left right shared inLeft
    (sameKeys.mem_iff.mp inLeft)

/-! ## A scoped derivation restricts the full one -/

theorem mem_narrow (orderIds : Option (List String)) (fill : FillRecord) :
    fill ∈ narrow orderIds fills ↔ fill ∈ fills ∧ inScope orderIds fill.orderId = true := by
  cases orderIds with
  | none => simp [narrow, inScope]
  | some wanted => simp [narrow, inScope]

theorem narrow_perm (orderIds : Option (List String)) (left right : List FillRecord)
    (perm : left.Perm right) : (narrow orderIds left).Perm (narrow orderIds right) := by
  cases orderIds with
  | none => exact perm
  | some wanted => exact perm.filter _

theorem filed_order (fill : FillRecord) (key : GroupKey)
    (filed : groupKeyOf resolutions fill = some key) : fill.orderId = key.orderId :=
  ((group_key_of_some resolutions fill key).mp filed).2.2.2

theorem narrowed_group_keys (orderIds : Option (List String)) :
    (groupKeys resolutions (narrow orderIds fills)).Perm
      ((groupKeys resolutions fills).filter fun key => inScope orderIds key.orderId) := by
  apply (List.perm_ext_iff_of_nodup (group_keys_nodup _ _)
    ((group_keys_nodup _ _).filter _)).mpr
  intro key
  rw [List.mem_filter, mem_group_keys, mem_group_keys]
  constructor
  · intro found
    rcases found with ⟨fill, member, filed⟩
    rcases (mem_narrow fills orderIds fill).mp member with ⟨listed, covered⟩
    rw [filed_order resolutions fill key filed] at covered
    exact ⟨⟨fill, listed, filed⟩, covered⟩
  · intro found
    rcases found with ⟨⟨fill, listed, filed⟩, covered⟩
    rw [← filed_order resolutions fill key filed] at covered
    exact ⟨fill, (mem_narrow fills orderIds fill).mpr ⟨listed, covered⟩, filed⟩

theorem narrowed_group_members (orderIds : Option (List String)) (key : GroupKey)
    (covered : inScope orderIds key.orderId = true) :
    groupMembers resolutions (narrow orderIds fills) key = groupMembers resolutions fills key := by
  cases orderIds with
  | none => rfl
  | some wanted =>
      unfold groupMembers narrow
      rw [List.filter_filter]
      apply List.filter_congr
      intro fill _
      by_cases filed : groupKeyOf resolutions fill = some key
      · rw [← filed_order resolutions fill key filed] at covered
        rw [decide_eq_true filed, Bool.true_and]
        exact covered
      · rw [decide_eq_false filed, Bool.false_and]

theorem narrowed_reading_keys (reading : List FillRecord) (own : Resolutions)
    (perm : reading.Perm fills) (same : ∀ key, own.get key = resolutions.get key)
    (orderIds : Option (List String)) :
    (groupKeys own (narrow orderIds reading)).Perm
      ((groupKeys resolutions fills).filter fun key => inScope orderIds key.orderId) := by
  apply List.Perm.trans _ (narrowed_group_keys resolutions fills orderIds)
  apply (List.perm_ext_iff_of_nodup (group_keys_nodup _ _) (group_keys_nodup _ _)).mpr
  intro key
  rw [mem_group_keys, mem_group_keys, group_key_of_congr own resolutions same]
  simp only [(narrow_perm orderIds reading fills perm).mem_iff]

theorem narrowed_reading_members (reading : List FillRecord) (own : Resolutions)
    (perm : reading.Perm fills) (same : ∀ key, own.get key = resolutions.get key)
    (orderIds : Option (List String)) (key : GroupKey)
    (covered : inScope orderIds key.orderId = true) :
    (groupMembers own (narrow orderIds reading) key).Perm
      (groupMembers resolutions fills key) := by
  rw [← narrowed_group_members resolutions fills orderIds key covered]
  unfold groupMembers
  rw [group_key_of_congr own resolutions same]
  exact (narrow_perm orderIds reading fills perm).filter _

/-- What a scoped call derives from its own reading of the fills is the part
of the full derivation its scope names. -/
theorem scoped_derivation (reading : List FillRecord) (own : Resolutions)
    (perm : reading.Perm fills) (same : ∀ key, own.get key = resolutions.get key)
    (orderIds : Option (List String)) :
    ((deriveEvents sha256 (narrow orderIds reading) own).events.map draftOf).Perm
      (((groupKeys resolutions fills).filter fun key =>
        inScope orderIds key.orderId).map (fullDraft sha256 resolutions fills)) := by
  have keysEq := narrowed_reading_keys resolutions fills reading own perm same orderIds
  have derived := (derive_events_perm sha256 (narrow orderIds reading) own).map draftOf
  apply derived.trans
  rw [List.map_map]
  apply List.Perm.trans _ (keysEq.map _)
  apply List.Perm.of_eq
  apply List.map_congr_left
  intro key member
  have members := narrowed_reading_members resolutions fills reading own perm same orderIds key
    (List.mem_filter.mp (keysEq.mem_iff.mp member)).2
  rw [Function.comp_apply, fullDraft, event_of_group_perm sha256 key _ _ members]

end Catalogue

/-! ## Runs of committed calls -/

section Runs

variable (userId : Uuid) (order : ScanOrder ResolvedRow) (resolutions : Resolutions)

/-- One committed call absorbs the part of the catalogue it covers. -/
theorem commit_sync_absorbs (db : Database) (call : SyncCall) (after : Database)
    (resolved : resolveFillPositions order userId db = .ok resolutions)
    (ran : commitSync keys sha256 call userId db = some after) :
    ∃ batch, batch.Perm (((groupKeys resolutions (visibleFills keys userId db)).filter fun key =>
        inScope call.orderIds key.orderId).map
          (fullDraft sha256 resolutions (visibleFills keys userId db))) ∧
      storedContents keys userId after =
        absorb writeTriple (storedContents keys userId db) batch ∧
      (missing writeTriple (storedContents keys userId db) batch = [] → after = db) ∧
      after = { db with events := after.events } := by
  rcases commit_sync_spec keys sha256 call userId db after ran with
    ⟨own, fills, existing, resolve, readF, readE, frame, contents, idle⟩
  have reading := read_fills_ok keys call.fillOrder userId db fills readF
  have same := resolve_fill_positions_same call.resolvedOrder order userId db own resolutions
    resolve resolved
  have stored : (existing.map EventRecord.content).Perm (storedContents keys userId db) :=
    (read_events_ok keys call.eventOrder userId db existing readE).map _
  rw [drafts_of_missing, missing_congr_stored writeTriple _ _ _ stored] at contents idle
  exact ⟨_, scoped_derivation sha256 resolutions _ fills own reading same call.orderIds,
    contents, idle, frame⟩

/-- The run invariant: what was stored at the start and the catalogue's
covered part, each draft once. -/
theorem commit_syncs_contents (db : Database) (start : List EventWrite)
    (separates : HashSeparates sha256 resolutions (visibleFills keys userId db))
    (calls : List SyncCall) (stage after : Database) (before : GroupKey → Bool)
    (resolved : resolveFillPositions order userId db = .ok resolutions)
    (frame : stage = { db with events := stage.events })
    (held : (storedContents keys userId stage).Perm (start ++
      selected writeTriple (groupKeys resolutions (visibleFills keys userId db))
        (fullDraft sha256 resolutions (visibleFills keys userId db)) start before))
    (ran : commitSyncs keys sha256 calls userId stage = some after) :
    after = { db with events := after.events } ∧
      (storedContents keys userId after).Perm (start ++
        selected writeTriple (groupKeys resolutions (visibleFills keys userId db))
          (fullDraft sha256 resolutions (visibleFills keys userId db)) start
          fun key => before key || calls.any fun call => inScope call.orderIds key.orderId) := by
  induction calls generalizing stage before with
  | nil =>
      cases ran
      refine ⟨frame, ?_⟩
      simpa using held
  | cons call rest ih =>
      rw [commitSyncs] at ran
      cases first : commitSync keys sha256 call userId stage with
      | none =>
          rw [first] at ran
          cases ran
      | some next =>
          rw [first, Option.bind_some] at ran
          have resolvedStage : resolveFillPositions order userId stage = .ok resolutions := by
            rw [frame]
            exact resolved
          have fillsStage : visibleFills keys userId stage = visibleFills keys userId db := by
            rw [frame]
            rfl
          rcases commit_sync_absorbs keys sha256 userId order resolutions stage call next
            resolvedStage first with ⟨batch, batchPerm, contents, _, nextFrame⟩
          rw [fillsStage] at batchPerm
          have grown := absorb_selection writeTriple _ _ start before
            (fun key => inScope call.orderIds key.orderId) _ batch
            (full_draft_injective sha256 resolutions _ (visible_fills_keys_nodup keys userId db)
              separates) held batchPerm
          rw [← contents] at grown
          have nextFrame' : next = { db with events := next.events } := by
            rw [nextFrame, frame]
          have later := ih next _ nextFrame' grown ran
          refine ⟨later.1, ?_⟩
          simpa only [List.any_cons, Bool.or_assoc] using later.2

end Runs

def replayUser : Uuid := ⟨1⟩

def replayFill (orderId occSymbol : String) (executionTime : Instant) (side : String)
    (priceUsd : Decimal) : Fill :=
  fillRow plainKeys replayUser [7] 1 ⟨[1], [2]⟩
    ⟨orderId, occSymbol, 0, executionTime, "OPENING", side, some ⟨1, 0⟩, some priceUsd⟩

def replayDatabase : Database :=
  { Database.empty with
    userDataKeys := ⟨[⟨replayUser, 1, [7], [3]⟩], by decide⟩
    fills := ⟨[replayFill "o1" "SPXW1" 10 "SELL" ⟨1250, -2⟩,
      replayFill "o1" "SPXW2" 10 "BUY" ⟨2300, -2⟩,
      replayFill "o2" "SPXW3" 20 "BUY" ⟨100, -2⟩], by decide⟩
    legs := [⟨⟨11⟩, replayUser, "SPXW1"⟩, ⟨⟨11⟩, replayUser, "SPXW2"⟩,
      ⟨⟨12⟩, replayUser, "SPXW3"⟩] }

def replayCall (orderIds : Option (List String)) (firstId : Nat) : SyncCall :=
  ⟨orderIds, .asStored _, .asStored _, .asStored _,
    fun index => ⟨⟨Fin.ofNat _ (firstId + index)⟩, [], []⟩⟩

/-- SHA-256 on the two digests taken. -/
def replaySha256 (text : String) : String :=
  if text = "o1:SPXW1:0:10:o1:SPXW2:0:10" then
    "0a51aae4b33c06280b89a6f5d38e6293c76771e18db18d1b650ffe4e6045e2b9"
  else if text = "o2:SPXW3:0:20" then
    "3a3f6f3c98ed94b273ed478c5ca82ad87666246abccbd69580c4531af43e7151"
  else text

def replayOnce : Option Database :=
  commitSync plainKeys replaySha256 (replayCall none 100) replayUser replayDatabase

def replayMany : Option Database :=
  commitSyncs plainKeys replaySha256
    [replayCall (some ["o2", "o9"]) 200, replayCall (some ["o1", "o2"]) 300] replayUser
    replayDatabase

end Morai.Ledger.ScopedReplay
