import Morai.Ledger.Pairing

/-!
# The derivation as a partition

Every fill read goes to exactly one place, and the events are one for each
group of resolved and classified fills. In what order the fills were read does
not matter.
-/

namespace Morai.Ledger.Partition

open Morai.Db Morai.Python Morai.Foundation.OrderedGroups
open Morai.Ledger.Fills Morai.Ledger.Pairing

set_option autoImplicit false

/-- Resolved to the group's position and classified in its role. -/
def FiledUnder (resolutions : Resolutions) (fill : FillRecord) (key : GroupKey) : Prop :=
  resolutions.get fill.key = some key.positionId ∧ classifyFill fill.positionEffect = key.role ∧
    key.role ≠ .unknown ∧ fill.orderId = key.orderId

/-- The event says of its group what it should. -/
structure EventOf (sha256 : String → String) (group : GroupKey × List FillRecord)
    (event : DerivedEvent) : Prop where
  position : event.positionId = group.1.positionId
  type : event.eventType = eventTypeOf group.1.role
  attained : ∃ fill ∈ group.2, fill.executionTime = event.eventTime
  least : ∀ fill ∈ group.2, event.eventTime ≤ fill.executionTime
  hash : event.fillIdsHash = hashFillIds sha256 (group.2.map FillRecord.key)
  openDebit : event.eventType ≠ .openEvent → event.openDebitUsd = none
  closeCredit : event.eventType ≠ .closeEvent → event.closeCreditUsd = none
  commission : event.commissionUsd = none

def keysOf (groups : List (GroupKey × List FillRecord)) : List FillKey :=
  groups.flatMap fun group => group.2.map FillRecord.key

/-- The groups behind the events, in their order, and where each fill is. -/
structure Partitions (sha256 : String → String) (fills : List FillRecord)
    (resolutions : Resolutions) (groups : List (GroupKey × List FillRecord))
    (derivation : Derivation) : Prop where
  events : List.Forall₂ (EventOf sha256) groups derivation.events
  oneEach : (groups.map Prod.fst).Nodup
  every : ∀ key, key ∈ groups.map Prod.fst ↔ ∃ fill ∈ fills, FiledUnder resolutions fill key
  members : ∀ group ∈ groups, ∀ fill, fill ∈ group.2 ↔
    fill ∈ fills ∧ FiledUnder resolutions fill group.1
  unresolved : ∀ fill ∈ fills,
    fill.key ∈ derivation.unresolved ↔ resolutions.get fill.key = none
  unclassified : ∀ fill ∈ fills, fill.key ∈ derivation.unclassified ↔
    resolutions.get fill.key ≠ none ∧ fill.positionEffect ≠ "OPENING" ∧
      fill.positionEffect ≠ "CLOSING"
  once : ∀ fill ∈ fills, derivation.unresolved.count fill.key +
    derivation.unclassified.count fill.key + (keysOf groups).count fill.key = 1
  total : derivation.unresolved.length + derivation.unclassified.length +
    (groups.map fun group => group.2.length).sum = fills.length

/-! ## Where each fill goes -/

section Counting

variable (resolutions : Resolutions) (fills : List FillRecord)

theorem classify_unknown (positionEffect : String) :
    classifyFill positionEffect = .unknown ↔
      positionEffect ≠ "OPENING" ∧ positionEffect ≠ "CLOSING" := by
  unfold classifyFill
  split_ifs with opening closing <;> simp_all

/-- The three places a fill can go to. -/
inductive Place (fill : FillRecord) : Prop
  | unresolved (here : isUnresolved resolutions fill = true)
      (elsewhere : isUnclassified resolutions fill = false)
      (ungrouped : groupKeyOf resolutions fill = none)
  | unclassified (here : isUnclassified resolutions fill = true)
      (elsewhere : isUnresolved resolutions fill = false)
      (ungrouped : groupKeyOf resolutions fill = none)
  | grouped (key : GroupKey) (here : groupKeyOf resolutions fill = some key)
      (resolved : isUnresolved resolutions fill = false)
      (classified : isUnclassified resolutions fill = false)

theorem place (fill : FillRecord) : Place resolutions fill := by
  cases resolved : resolutions.get fill.key with
  | none =>
      exact .unresolved (by simp [isUnresolved, resolved]) (by simp [isUnclassified, resolved])
        (by simp [groupKeyOf, resolved])
  | some positionId =>
      have found : isUnresolved resolutions fill = false := by simp [isUnresolved, resolved]
      by_cases unknown : classifyFill fill.positionEffect = .unknown
      · exact .unclassified (by simp [isUnclassified, resolved, unknown]) found
          (by simp [groupKeyOf, resolved, unknown])
      · exact .grouped ⟨positionId, classifyFill fill.positionEffect, fill.orderId⟩
          (by simp [groupKeyOf, resolved, unknown]) found
          (by simp [isUnclassified, unknown])

/-- The three accumulators hold each fill once. -/
theorem filed_perm :
    (fills.filter (isUnresolved resolutions) ++ (fills.filter (isUnclassified resolutions) ++
      (filedPairs resolutions fills).map Prod.snd)).Perm fills := by
  induction fills with
  | nil => exact List.Perm.nil
  | cons fill rest ih =>
      simp only [filedPairs] at ih ⊢
      cases place resolutions fill with
      | unresolved here elsewhere ungrouped =>
          simp only [List.filter_cons, List.filterMap_cons, here, elsewhere, ungrouped, if_true,
            Bool.false_eq_true, if_false, Option.map_none]
          exact ih.cons fill
      | unclassified here elsewhere ungrouped =>
          simp only [List.filter_cons, List.filterMap_cons, here, elsewhere, ungrouped, if_true,
            Bool.false_eq_true, if_false, Option.map_none]
          exact List.perm_middle.trans (ih.cons fill)
      | grouped group here resolved classified =>
          simp only [List.filter_cons, List.filterMap_cons, here, resolved, classified,
            Bool.false_eq_true, if_false, Option.map_some, List.map_cons]
          rw [← List.append_assoc] at ih ⊢
          exact List.perm_middle.trans (ih.cons fill)

theorem filed_counts (key : FillKey) :
    ((fills.filter (isUnresolved resolutions)).map FillRecord.key).count key +
      ((fills.filter (isUnclassified resolutions)).map FillRecord.key).count key +
      ((filedPairs resolutions fills).map fun pair => pair.2.key).count key =
      (fills.map FillRecord.key).count key := by
  have counts := ((filed_perm resolutions fills).map FillRecord.key).count_eq key
  simp only [List.map_append, List.count_append, List.map_map] at counts
  rw [Nat.add_assoc]
  exact counts

theorem filed_lengths :
    (fills.filter (isUnresolved resolutions)).length +
      (fills.filter (isUnclassified resolutions)).length +
      (filedPairs resolutions fills).length = fills.length := by
  have lengths := (filed_perm resolutions fills).length_eq
  simp only [List.length_append, List.length_map] at lengths
  rw [Nat.add_assoc]
  exact lengths

theorem keys_of_perm (groups : List (GroupKey × List FillRecord))
    (perm : groups.Perm (groupPairs (filedPairs resolutions fills))) :
    (keysOf groups).Perm ((filedPairs resolutions fills).map fun pair => pair.2.key) := by
  have flat (groups : List (GroupKey × List FillRecord)) :
      keysOf groups = (flatPairs groups).map fun pair => pair.2.key := by
    simp only [keysOf, flatPairs, List.map_flatMap, List.map_map]
    rfl
  have filed := (flat_pairs_group_pairs_perm (filedPairs resolutions fills)).map
    fun pair => pair.2.key
  rw [← flat] at filed
  exact (perm.flatMap_right _).trans filed

theorem sizes_sum (groups : List (GroupKey × List FillRecord))
    (perm : groups.Perm (groupPairs (filedPairs resolutions fills))) :
    (groups.map fun group => group.2.length).sum = (filedPairs resolutions fills).length := by
  have counted := (keys_of_perm resolutions fills groups perm).length_eq
  rw [List.length_map] at counted
  rw [← counted, keysOf, List.length_flatMap]
  simp only [List.length_map]

end Counting

/-! ## One event for each group -/

section Events

variable (sha256 : String → String) (resolutions : Resolutions) (fills : List FillRecord)

theorem earliest_spec (members : List FillRecord) (some : members ≠ []) :
    (∃ fill ∈ members, fill.executionTime = earliest members) ∧
      ∀ fill ∈ members, earliest members ≤ fill.executionTime := by
  cases least : (members.map FillRecord.executionTime).min? with
  | none => simp_all
  | some time =>
      have spec := List.min?_eq_some_iff.mp least
      have same : earliest members = time := by simp only [earliest, least, Option.getD_some]
      rw [same]
      refine ⟨List.mem_map.mp spec.1, ?_⟩
      intro fill member
      exact spec.2 fill.executionTime (List.mem_map_of_mem member)

theorem event_of_group_spec (group : GroupKey × List FillRecord) (some : group.2 ≠ []) :
    EventOf sha256 group (eventOfGroup sha256 group) := by
  have spec := earliest_spec group.2 some
  exact
    { position := rfl
      type := rfl
      attained := spec.1
      least := spec.2
      hash := rfl
      openDebit := fun other => if_neg other
      closeCredit := fun other => if_neg other
      commission := rfl }

/-- The groups in the order of their events. -/
def sortedGroups : List (GroupKey × List FillRecord) :=
  (groupPairs (filedPairs resolutions fills)).insertionSort fun left right =>
    sortKey (eventOfGroup sha256 left) ≤ sortKey (eventOfGroup sha256 right)

theorem sorted_groups_perm : (sortedGroups sha256 resolutions fills).Perm
    (groupPairs (filedPairs resolutions fills)) :=
  List.perm_insertionSort _ _

theorem sorted_groups_events : (deriveEvents sha256 fills resolutions).events =
    (sortedGroups sha256 resolutions fills).map (eventOfGroup sha256) := by
  rw [deriveEvents, file_fills_eq]
  symm
  apply List.map_insertionSort
  intro left _ right _
  exact Iff.rfl

theorem sorted_groups_mem (key : GroupKey) (members : List FillRecord) :
    (key, members) ∈ sortedGroups sha256 resolutions fills ↔
      key ∈ groupKeys resolutions fills ∧ members = groupMembers resolutions fills key := by
  rw [(sorted_groups_perm sha256 resolutions fills).mem_iff, groups_eq_members, List.mem_map]
  constructor
  · intro found
    obtain ⟨other, member, same⟩ := found
    cases same
    exact ⟨member, rfl⟩
  · intro found
    exact ⟨key, found.1, by rw [found.2]⟩

theorem sorted_groups_keys (key : GroupKey) :
    key ∈ (sortedGroups sha256 resolutions fills).map Prod.fst ↔ key ∈ groupKeys resolutions fills :=
  ((sorted_groups_perm sha256 resolutions fills).map Prod.fst).mem_iff

end Events

/-! ## The order the fills are read in -/

/-- On sets of these keys the digest is injective. -/
def SeparatesSets (sha256 : String → String) (keys : List FillKey) : Prop :=
  ∀ left right : List FillKey, left.Nodup → right.Nodup → left ⊆ keys → right ⊆ keys →
    hashFillIds sha256 left = hashFillIds sha256 right → left.Perm right

section Order

variable (sha256 : String → String) (resolutions : Resolutions) (left right : List FillRecord)

theorem group_keys_perm (perm : left.Perm right) :
    (groupKeys resolutions left).Perm (groupKeys resolutions right) := by
  apply (List.perm_ext_iff_of_nodup (group_keys_nodup _ _) (group_keys_nodup _ _)).mpr
  intro key
  rw [mem_group_keys, mem_group_keys]
  simp only [perm.mem_iff]

theorem events_perm (perm : left.Perm right) :
    (deriveEvents sha256 left resolutions).events.Perm
      (deriveEvents sha256 right resolutions).events := by
  have sameEvent : ∀ key ∈ groupKeys resolutions right,
      eventOfGroup sha256 (key, groupMembers resolutions left key) =
        eventOfGroup sha256 (key, groupMembers resolutions right key) := by
    intro key _
    exact event_of_group_perm sha256 key _ _ (perm.filter _)
  have listed := (group_keys_perm resolutions left right perm).map fun key =>
    eventOfGroup sha256 (key, groupMembers resolutions left key)
  rw [List.map_congr_left sameEvent] at listed
  exact (derive_events_perm sha256 left resolutions).trans
    (listed.trans (derive_events_perm sha256 right resolutions).symm)

/-- Two groups of one list with the same keys are one group. -/
theorem group_of_keys (distinct : (left.map FillRecord.key).Nodup) (key other : GroupKey)
    (present : key ∈ groupKeys resolutions left)
    (same : ((groupMembers resolutions left key).map FillRecord.key).Perm
      ((groupMembers resolutions left other).map FillRecord.key)) : key = other := by
  obtain ⟨fill, member, filed⟩ := (mem_group_keys resolutions left key).mp present
  have inside : fill.key ∈ (groupMembers resolutions left other).map FillRecord.key :=
    same.mem_iff.mp (List.mem_map_of_mem (List.mem_filter.mpr ⟨member, decide_eq_true filed⟩))
  obtain ⟨twin, twinMember, sameKey⟩ := List.mem_map.mp inside
  obtain ⟨stored, twinFiled⟩ := List.mem_filter.mp twinMember
  have sameFill : twin = fill := List.inj_on_of_nodup_map distinct stored member sameKey
  rw [sameFill, decide_eq_true_iff, filed] at twinFiled
  exact Option.some.inj twinFiled

theorem member_keys_nodup (distinct : (left.map FillRecord.key).Nodup) (key : GroupKey) :
    ((groupMembers resolutions left key).map FillRecord.key).Nodup :=
  distinct.sublist (List.filter_sublist.map _)

theorem member_keys_subset (key : GroupKey) :
    (groupMembers resolutions left key).map FillRecord.key ⊆ left.map FillRecord.key :=
  (List.filter_sublist.map _).subset

/-- The digest alone tells the events of one derivation apart. -/
theorem event_of_hash (distinct : (left.map FillRecord.key).Nodup)
    (separates : SeparatesSets sha256 (left.map FillRecord.key)) (first second : DerivedEvent)
    (firstMember : first ∈ (deriveEvents sha256 left resolutions).events)
    (secondMember : second ∈ (deriveEvents sha256 left resolutions).events)
    (same : first.fillIdsHash = second.fillIdsHash) : first = second := by
  have listed := derive_events_perm sha256 left resolutions
  obtain ⟨key, present, shape⟩ := List.mem_map.mp (listed.mem_iff.mp firstMember)
  obtain ⟨other, _, otherShape⟩ := List.mem_map.mp (listed.mem_iff.mp secondMember)
  rw [← shape, ← otherShape] at same
  have sameKeys := separates _ _ (member_keys_nodup resolutions left distinct key)
    (member_keys_nodup resolutions left distinct other) (member_keys_subset resolutions left key)
    (member_keys_subset resolutions left other) same
  rw [← shape, ← otherShape, group_of_keys resolutions left distinct key other present sameKeys]

theorem events_sorted : (deriveEvents sha256 left resolutions).events.Pairwise
    fun first second => sortKey first ≤ sortKey second :=
  List.pairwise_insertionSort _ _

/-- **The order the fills are read in does not matter.** -/
theorem derive_events_any_order (perm : left.Perm right)
    (distinct : (left.map FillRecord.key).Nodup)
    (separates : SeparatesSets sha256 (left.map FillRecord.key)) :
    (deriveEvents sha256 left resolutions).events =
        (deriveEvents sha256 right resolutions).events ∧
      (deriveEvents sha256 left resolutions).unresolved.Perm
        (deriveEvents sha256 right resolutions).unresolved ∧
      (deriveEvents sha256 left resolutions).unclassified.Perm
        (deriveEvents sha256 right resolutions).unclassified := by
  have same := events_perm sha256 resolutions left right perm
  refine ⟨?_, ?_, ?_⟩
  · apply same.eq_of_pairwise _ (events_sorted sha256 resolutions left)
      (events_sorted sha256 resolutions right)
    intro first second firstMember secondMember below above
    apply event_of_hash sha256 resolutions left distinct separates first second firstMember
      (same.mem_iff.mpr secondMember)
    have sameKey : sortKey first = sortKey second := le_antisymm below above
    exact congrArg (fun key => (ofLex (ofLex key).2).2) sameKey
  · simp only [deriveEvents, file_fills_eq]
    exact (perm.filter _).map _
  · simp only [deriveEvents, file_fills_eq]
    exact (perm.filter _).map _

/-- To separate sets of keys it is enough to separate the sublists. -/
theorem separates_of_sublists (keys : List FillKey)
    (apart : ∀ left ∈ keys.sublists, ∀ right ∈ keys.sublists,
      hashFillIds sha256 left = hashFillIds sha256 right → left = right) :
    SeparatesSets sha256 keys := by
  intro left right leftNodup rightNodup leftSubset rightSubset same
  obtain ⟨leftSub, leftPerm, leftSublist⟩ := List.subperm_of_subset leftNodup leftSubset
  obtain ⟨rightSub, rightPerm, rightSublist⟩ := List.subperm_of_subset rightNodup rightSubset
  rw [← hash_fill_ids_perm sha256 _ _ leftPerm, ← hash_fill_ids_perm sha256 _ _ rightPerm] at same
  have equal := apart leftSub (List.mem_sublists.mpr leftSublist) rightSub
    (List.mem_sublists.mpr rightSublist) same
  exact leftPerm.symm.trans (equal ▸ rightPerm)

end Order

/-! An order of two legs, and a fill of an unknown effect. -/

def openingFill (legIndex : Int) (side : String) : FillRecord where
  userId := ⟨1⟩
  orderId := "100"
  occSymbol := "SPX"
  legIndex := legIndex
  executionTime := 5 + legIndex
  positionEffect := "OPENING"
  side := side
  quantity := some ⟨1, 0⟩
  priceUsd := some ⟨250, 2⟩
  keyVersion := 1

def threeFills : List FillRecord :=
  [openingFill 0 "BUY", openingFill 1 "SELL", { openingFill 2 "BUY" with positionEffect := "" }]

def allResolved : Resolutions := fun _ => some (some ⟨9⟩)

theorem derive_events_any_order_three :
    (deriveEvents id threeFills allResolved).events =
      (deriveEvents id threeFills.reverse allResolved).events :=
  (derive_events_any_order id allResolved threeFills threeFills.reverse
    threeFills.reverse_perm.symm (by decide +kernel)
    (separates_of_sublists id _ (by decide +kernel))).1

end Morai.Ledger.Partition
