import Mathlib.Data.Prod.Lex
import Morai.Foundation.OrderedGroups
import Morai.Ledger.Fills

/-!
# Fill-to-event derivation

The pure core of `pairing.py`: classification of a fill from its own
`position_effect`, the signed amount of a leg, the digest of a fill group and
`derive_events`, whose loop keeps three accumulators. SHA-256 is a parameter.
-/

namespace Morai.Ledger.Pairing

open Morai.Db Morai.Python Morai.Foundation.OrderedGroups
open Morai.Ledger.Fills

set_option autoImplicit false

inductive FillRole where
  | openRole
  | closeRole
  | unknown
  deriving DecidableEq, Repr

inductive EventType where
  | openEvent
  | closeEvent
  deriving DecidableEq, Repr

def EventType.value : EventType → String
  | .openEvent => "OPEN"
  | .closeEvent => "CLOSE"

structure DerivedEvent where
  positionId : Uuid
  eventType : EventType
  eventTime : Instant
  fillIdsHash : String
  openDebitUsd : Option Decimal
  closeCreditUsd : Option Decimal
  commissionUsd : Option Decimal
  deriving DecidableEq, Repr

structure Derivation where
  events : List DerivedEvent
  unresolved : List FillKey
  unclassified : List FillKey
  deriving DecidableEq, Repr

/-- Rule 1. -/
def classifyFill (positionEffect : String) : FillRole :=
  if positionEffect = "OPENING" then .openRole
  else if positionEffect = "CLOSING" then .closeRole
  else .unknown

/-- `_signed_leg_amount`: a buy is positive for an OPEN event and negative for
a CLOSE event. -/
def signedLegAmount (fill : FillRecord) (eventType : EventType) : Option Decimal :=
  match fill.quantity, fill.priceUsd with
  | some quantity, some priceUsd =>
      if fill.side ≠ "BUY" ∧ fill.side ≠ "SELL" then none
      else
        let amount := priceUsd.mul quantity
        match eventType with
        | .openEvent => some (if fill.side = "BUY" then amount else amount.neg)
        | .closeEvent => some (if fill.side = "SELL" then amount else amount.neg)
  | _, _ => none

def netAmountFrom (eventType : EventType) (total : Decimal) : List FillRecord → Option Decimal
  | [] => some total
  | fill :: rest =>
      match signedLegAmount fill eventType with
      | none => none
      | some amount => netAmountFrom eventType (total.add amount) rest

/-- `_net_amount`. -/
def netAmount (fills : List FillRecord) (eventType : EventType) : Option Decimal :=
  netAmountFrom eventType Decimal.zero fills

def renderKey (key : FillKey) : String :=
  key.orderId ++ ":" ++ key.occSymbol ++ ":" ++ toString key.legIndex ++ ":" ++
    Crypto.microsText key.executionTime

/-- The value of a Python mapping at a key: absent and `None` read alike. -/
abbrev Resolutions := FillKey → Option (Option Uuid)

def Resolutions.get (resolutions : Resolutions) (key : FillKey) : Option Uuid :=
  (resolutions key).join

structure GroupKey where
  positionId : Uuid
  role : FillRole
  orderId : String
  deriving DecidableEq, Repr

structure Accumulators where
  unresolved : List FillKey
  unclassified : List FillKey
  groups : List (GroupKey × List FillRecord)

/-- One pass of the loop over `fills`. -/
def fileFill (resolutions : Resolutions) (state : Accumulators) (fill : FillRecord) :
    Accumulators :=
  match resolutions.get fill.key with
  | none => { state with unresolved := state.unresolved ++ [fill.key] }
  | some positionId =>
      let role := classifyFill fill.positionEffect
      if role = .unknown then { state with unclassified := state.unclassified ++ [fill.key] }
      else { state with groups := pushGroup ⟨positionId, role, fill.orderId⟩ fill state.groups }

def fileFills (resolutions : Resolutions) (fills : List FillRecord) : Accumulators :=
  fills.foldl (fileFill resolutions) ⟨[], [], []⟩

section Digest

variable (sha256 : String → String)

def hashFillIds (keys : List FillKey) : String :=
  sha256 (":".intercalate (sortedTexts (keys.map renderKey)))

/-- `min(fill.execution_time for fill in group_fills)`; a group is never
empty. -/
def earliest (fills : List FillRecord) : Instant :=
  (fills.map FillRecord.executionTime).min?.getD 0

def eventTypeOf (role : FillRole) : EventType :=
  if role = .openRole then .openEvent else .closeEvent

/-- The body of the loop over `groups.items()`. -/
def eventOfGroup (group : GroupKey × List FillRecord) : DerivedEvent :=
  let eventType := eventTypeOf group.1.role
  let net := netAmount group.2 eventType
  { positionId := group.1.positionId
    eventType := eventType
    eventTime := earliest group.2
    fillIdsHash := hashFillIds sha256 (group.2.map FillRecord.key)
    openDebitUsd := if eventType = .openEvent then net else none
    closeCreditUsd := if eventType = .closeEvent then net else none
    commissionUsd := none }

def sortKey (event : DerivedEvent) : String ×ₗ (String ×ₗ String) :=
  toLex (event.positionId.text, toLex (event.eventType.value, event.fillIdsHash))

def sortEvents (events : List DerivedEvent) : List DerivedEvent :=
  events.insertionSort fun left right => sortKey left ≤ sortKey right

def deriveEvents (fills : List FillRecord) (resolutions : Resolutions) : Derivation :=
  let state := fileFills resolutions fills
  { events := sortEvents (state.groups.map (eventOfGroup sha256))
    unresolved := state.unresolved
    unclassified := state.unclassified }

end Digest

/-! ## Where each fill goes -/

/-- The group a fill is filed under, if it is resolved and classified. -/
def groupKeyOf (resolutions : Resolutions) (fill : FillRecord) : Option GroupKey :=
  match resolutions.get fill.key with
  | none => none
  | some positionId =>
      let role := classifyFill fill.positionEffect
      if role = .unknown then none else some ⟨positionId, role, fill.orderId⟩

def filedPairs (resolutions : Resolutions) (fills : List FillRecord) :
    List (GroupKey × FillRecord) :=
  fills.filterMap fun fill => (groupKeyOf resolutions fill).map fun key => (key, fill)

def groupMembers (resolutions : Resolutions) (fills : List FillRecord) (key : GroupKey) :
    List FillRecord :=
  fills.filter fun fill => groupKeyOf resolutions fill = some key

def isUnresolved (resolutions : Resolutions) (fill : FillRecord) : Bool :=
  resolutions.get fill.key = none

def isUnclassified (resolutions : Resolutions) (fill : FillRecord) : Bool :=
  resolutions.get fill.key ≠ none ∧ classifyFill fill.positionEffect = .unknown

/-- The loop invariant of the three accumulators. -/
theorem file_fills_from (resolutions : Resolutions) (fills : List FillRecord)
    (start : Accumulators) :
    fills.foldl (fileFill resolutions) start =
      { unresolved := start.unresolved ++
          (fills.filter (isUnresolved resolutions)).map FillRecord.key
        unclassified := start.unclassified ++
          (fills.filter (isUnclassified resolutions)).map FillRecord.key
        groups := groupOnto start.groups (filedPairs resolutions fills) } := by
  induction fills generalizing start with
  | nil => simp [filedPairs, groupOnto]
  | cons fill rest ih =>
      rw [List.foldl_cons, ih]
      cases resolved : resolutions.get fill.key with
      | none =>
          simp [fileFill, filedPairs, groupKeyOf, isUnresolved, isUnclassified, resolved]
      | some positionId =>
          by_cases unknown : classifyFill fill.positionEffect = .unknown
          · simp [fileFill, filedPairs, groupKeyOf, isUnresolved, isUnclassified, resolved,
              unknown]
          · simp [fileFill, filedPairs, groupKeyOf, isUnresolved, isUnclassified, resolved,
              unknown, groupOnto]

theorem file_fills_eq (resolutions : Resolutions) (fills : List FillRecord) :
    fileFills resolutions fills =
      { unresolved := (fills.filter (isUnresolved resolutions)).map FillRecord.key
        unclassified := (fills.filter (isUnclassified resolutions)).map FillRecord.key
        groups := groupPairs (filedPairs resolutions fills) } := by
  have invariant := file_fills_from resolutions fills ⟨[], [], []⟩
  simp only [List.nil_append] at invariant
  exact invariant

/-- The keys of the groups, in the order the dictionary holds them. -/
def groupKeys (resolutions : Resolutions) (fills : List FillRecord) : List GroupKey :=
  (groupPairs (filedPairs resolutions fills)).map Prod.fst

theorem filed_pairs_members (resolutions : Resolutions) (fills : List FillRecord)
    (key : GroupKey) :
    ((filedPairs resolutions fills).filter fun pair => pair.1 = key).map Prod.snd =
      groupMembers resolutions fills key := by
  induction fills with
  | nil => rfl
  | cons fill rest ih =>
      simp only [filedPairs, groupMembers] at ih ⊢
      cases filed : groupKeyOf resolutions fill with
      | none => simp [filed, ih]
      | some found => by_cases same : found = key <;> simp [filed, same, ih]

theorem mem_group_keys (resolutions : Resolutions) (fills : List FillRecord) (key : GroupKey) :
    key ∈ groupKeys resolutions fills ↔
      ∃ fill ∈ fills, groupKeyOf resolutions fill = some key := by
  rw [groupKeys, group_pairs_keys_mem, filedPairs, List.mem_map]
  constructor
  · intro found
    rcases found with ⟨pair, member, same⟩
    rcases List.mem_filterMap.mp member with ⟨fill, fillMember, shape⟩
    rcases Option.map_eq_some_iff.mp shape with ⟨filed, filedEq, pairEq⟩
    refine ⟨fill, fillMember, ?_⟩
    rw [filedEq, ← same, ← pairEq]
  · intro found
    rcases found with ⟨fill, member, filed⟩
    exact ⟨(key, fill), List.mem_filterMap.mpr ⟨fill, member, by simp [filed]⟩, rfl⟩

theorem group_keys_nodup (resolutions : Resolutions) (fills : List FillRecord) :
    (groupKeys resolutions fills).Nodup :=
  group_pairs_keys_nodup _

theorem groups_eq_members (resolutions : Resolutions) (fills : List FillRecord) :
    groupPairs (filedPairs resolutions fills) =
      (groupKeys resolutions fills).map fun key =>
        (key, groupMembers resolutions fills key) := by
  rw [groupKeys, List.map_map]
  refine (List.map_id _).symm.trans (List.map_congr_left ?_)
  intro group member
  have shape := ((mem_group_pairs _ group.1 group.2).mp member).1
  rw [filed_pairs_members] at shape
  exact Prod.ext rfl shape

/-- The events are one per group, sorted. -/
theorem derive_events_perm (sha256 : String → String) (fills : List FillRecord)
    (resolutions : Resolutions) :
    (deriveEvents sha256 fills resolutions).events.Perm
      ((groupKeys resolutions fills).map fun key =>
        eventOfGroup sha256 (key, groupMembers resolutions fills key)) := by
  have sorted : (deriveEvents sha256 fills resolutions).events =
      sortEvents ((groupPairs (filedPairs resolutions fills)).map (eventOfGroup sha256)) := by
    rw [deriveEvents, file_fills_eq]
  rw [sorted, groups_eq_members, List.map_map]
  exact List.perm_insertionSort _ _

theorem group_key_of_some (resolutions : Resolutions) (fill : FillRecord) (key : GroupKey) :
    groupKeyOf resolutions fill = some key ↔
      resolutions.get fill.key = some key.positionId ∧
        classifyFill fill.positionEffect = key.role ∧ key.role ≠ .unknown ∧
          fill.orderId = key.orderId := by
  unfold groupKeyOf
  cases resolved : resolutions.get fill.key with
  | none => simp
  | some positionId =>
      rcases key with ⟨wanted, role, orderId⟩
      by_cases unknown : classifyFill fill.positionEffect = .unknown
      · simp only [unknown, if_true, Option.some.injEq]
        constructor
        · intro impossible
          cases impossible
        · intro shape
          exact absurd shape.2.1.symm shape.2.2.1
      · simp only [unknown, if_false, Option.some.injEq, GroupKey.mk.injEq]
        constructor
        · intro shape
          exact ⟨shape.1, shape.2.1, shape.2.1 ▸ unknown, shape.2.2⟩
        · intro shape
          exact ⟨shape.1, shape.2.1, shape.2.2.2⟩

/-! ## Amounts -/

/-- A fill whose leg amount is a gap. -/
def IsGap (fill : FillRecord) : Prop :=
  fill.quantity = none ∨ fill.priceUsd = none ∨ (fill.side ≠ "BUY" ∧ fill.side ≠ "SELL")

instance (fill : FillRecord) : Decidable (IsGap fill) := inferInstanceAs (Decidable (_ ∨ _))

/-- The cash a fill moves: received for a sale, paid for a purchase. -/
def cashFlow (fill : FillRecord) : ℚ :=
  match fill.quantity, fill.priceUsd with
  | some quantity, some priceUsd =>
      if fill.side = "SELL" then priceUsd.toRat * quantity.toRat
      else if fill.side = "BUY" then -(priceUsd.toRat * quantity.toRat)
      else 0
  | _, _ => 0

/-- Opening events report cash paid, closing events cash received. -/
def EventType.sign : EventType → ℚ
  | .openEvent => -1
  | .closeEvent => 1

theorem signed_leg_amount_none (fill : FillRecord) (eventType : EventType) :
    signedLegAmount fill eventType = none ↔ IsGap fill := by
  unfold signedLegAmount IsGap
  cases fill.quantity with
  | none => simp
  | some quantity =>
      cases fill.priceUsd with
      | none => simp
      | some priceUsd =>
          by_cases odd : fill.side ≠ "BUY" ∧ fill.side ≠ "SELL"
          · simp [odd]
          · cases eventType <;> simp [odd]

theorem signed_leg_amount_value (fill : FillRecord) (eventType : EventType) (amount : Decimal)
    (value : signedLegAmount fill eventType = some amount) :
    amount.toRat = eventType.sign * cashFlow fill := by
  unfold signedLegAmount at value
  unfold cashFlow
  cases quantity : fill.quantity with
  | none => simp [quantity] at value
  | some quantity =>
      cases price : fill.priceUsd with
      | none => simp [quantity, price] at value
      | some priceUsd =>
          simp only [quantity, price] at value ⊢
          by_cases buy : fill.side = "BUY"
          · simp only [buy, ne_eq, not_true_eq_false, false_and, if_false, if_true,
              String.reduceEq] at value ⊢
            cases eventType with
            | openEvent =>
                cases value
                simp [EventType.sign]
            | closeEvent =>
                cases value
                simp [EventType.sign]
          · by_cases sell : fill.side = "SELL"
            · simp only [sell, ne_eq, not_true_eq_false, and_false, if_false, if_true,
                String.reduceEq] at value ⊢
              cases eventType with
              | openEvent =>
                  cases value
                  simp [EventType.sign]
              | closeEvent =>
                  cases value
                  simp [EventType.sign]
            · rw [if_pos ⟨buy, sell⟩] at value
              cases value

theorem net_amount_from_none (eventType : EventType) (total : Decimal)
    (fills : List FillRecord) :
    netAmountFrom eventType total fills = none ↔ ∃ fill ∈ fills, IsGap fill := by
  induction fills generalizing total with
  | nil => simp [netAmountFrom]
  | cons fill rest ih =>
      unfold netAmountFrom
      cases amount : signedLegAmount fill eventType with
      | none =>
          have gap := (signed_leg_amount_none fill eventType).mp amount
          simp [gap]
      | some leg =>
          have sound : ¬IsGap fill := by
            intro gap
            rw [(signed_leg_amount_none fill eventType).mpr gap] at amount
            cases amount
          simp [ih, sound]

theorem net_amount_none (fills : List FillRecord) (eventType : EventType) :
    netAmount fills eventType = none ↔ ∃ fill ∈ fills, IsGap fill :=
  net_amount_from_none eventType Decimal.zero fills

theorem net_amount_from_value (eventType : EventType) (total amount : Decimal)
    (fills : List FillRecord) (value : netAmountFrom eventType total fills = some amount) :
    amount.toRat = total.toRat + eventType.sign * (fills.map cashFlow).sum := by
  induction fills generalizing total with
  | nil =>
      cases value
      simp
  | cons fill rest ih =>
      unfold netAmountFrom at value
      cases leg : signedLegAmount fill eventType with
      | none => simp [leg] at value
      | some first =>
          simp only [leg] at value
          rw [ih (total.add first) value, Decimal.to_rat_add,
            signed_leg_amount_value fill eventType first leg, List.map_cons, List.sum_cons]
          ring

theorem net_amount_value (fills : List FillRecord) (eventType : EventType) (amount : Decimal)
    (value : netAmount fills eventType = some amount) :
    amount.toRat = eventType.sign * (fills.map cashFlow).sum := by
  simpa using net_amount_from_value eventType Decimal.zero amount fills value

/-- The one amount of an event its type may carry. -/
def DerivedEvent.amount (event : DerivedEvent) : Option Decimal :=
  match event.eventType with
  | .openEvent => event.openDebitUsd
  | .closeEvent => event.closeCreditUsd

theorem event_of_group_amount (sha256 : String → String) (group : GroupKey × List FillRecord) :
    (eventOfGroup sha256 group).amount = netAmount group.2 (eventTypeOf group.1.role) := by
  unfold DerivedEvent.amount eventOfGroup
  cases eventTypeOf group.1.role <;> simp

/-- `(close_credit_usd or 0) - (open_debit_usd or 0)`. -/
def DerivedEvent.cash (event : DerivedEvent) : ℚ :=
  (event.closeCreditUsd.elim 0 Decimal.toRat) - (event.openDebitUsd.elim 0 Decimal.toRat)

/-- An event without a gap in its group moves exactly its group's cash. -/
theorem event_of_group_cash (sha256 : String → String) (group : GroupKey × List FillRecord)
    (sound : ∀ fill ∈ group.2, ¬IsGap fill) :
    (eventOfGroup sha256 group).cash = (group.2.map cashFlow).sum := by
  cases net : netAmount group.2 (eventTypeOf group.1.role) with
  | none =>
      rcases (net_amount_none _ _).mp net with ⟨fill, member, gap⟩
      exact absurd gap (sound fill member)
  | some amount =>
      have value := net_amount_value _ _ amount net
      unfold DerivedEvent.cash eventOfGroup
      cases kind : eventTypeOf group.1.role with
      | openEvent =>
          rw [kind] at value net
          simp [net, value, EventType.sign]
      | closeEvent =>
          rw [kind] at value net
          simp [net, value, EventType.sign]

/-! ## Independence of the order of the fills -/

theorem net_amount_from_perm (eventType : EventType) (total : Decimal)
    (left right : List FillRecord) (perm : left.Perm right) :
    netAmountFrom eventType total left = netAmountFrom eventType total right := by
  induction perm generalizing total with
  | nil => rfl
  | cons fill _ ih =>
      simp only [netAmountFrom]
      cases signedLegAmount fill eventType with
      | none => rfl
      | some amount => apply ih
  | swap first second rest =>
      simp only [netAmountFrom]
      cases signedLegAmount first eventType with
      | none =>
          cases signedLegAmount second eventType with
          | none => rfl
          | some amount => rfl
      | some amount =>
          cases signedLegAmount second eventType with
          | none => rfl
          | some other =>
              dsimp only
              rw [Decimal.add_right_comm]
  | trans _ _ ihLeft ihRight => rw [ihLeft, ihRight]

theorem earliest_perm (left right : List FillRecord) (perm : left.Perm right) :
    earliest left = earliest right := by
  have times := perm.map FillRecord.executionTime
  unfold earliest
  apply congrArg fun (least : Option Instant) => least.getD 0
  apply Option.ext
  intro time
  have same : (left.map FillRecord.executionTime).min? = some time ↔
      (right.map FillRecord.executionTime).min? = some time := by
    rw [List.min?_eq_some_iff, List.min?_eq_some_iff, times.mem_iff]
    apply and_congr_right
    intro _
    exact ⟨fun least other member => least other (times.mem_iff.mpr member),
      fun least other member => least other (times.mem_iff.mp member)⟩
  exact same

theorem hash_fill_ids_perm (sha256 : String → String) (left right : List FillKey)
    (perm : left.Perm right) : hashFillIds sha256 left = hashFillIds sha256 right := by
  unfold hashFillIds
  rw [sorted_texts_eq_of_perm _ _ (perm.map renderKey)]

/-- An event is a function of its group as a set of fills. -/
theorem event_of_group_perm (sha256 : String → String) (key : GroupKey)
    (left right : List FillRecord) (perm : left.Perm right) :
    eventOfGroup sha256 (key, left) = eventOfGroup sha256 (key, right) := by
  unfold eventOfGroup netAmount
  simp only [net_amount_from_perm _ _ _ _ perm, earliest_perm _ _ perm,
    hash_fill_ids_perm sha256 _ _ (perm.map FillRecord.key)]

/-- Only the answers of the dictionary matter. -/
theorem group_key_of_congr (left right : Resolutions)
    (same : ∀ key, left.get key = right.get key) : groupKeyOf left = groupKeyOf right := by
  funext fill
  unfold groupKeyOf
  rw [same]

end Morai.Ledger.Pairing
