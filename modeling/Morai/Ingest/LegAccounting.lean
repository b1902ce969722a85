import Morai.Ingest.ExtractFills

/-!
# The legs of one element

Every option leg is accounted for by a fill or a skip reason, at its own
place and from its own item, as long as no leg's direction overflows: then
`extract_fills` raises and there are neither. The number a fill carries is the
leg's number of contracts only where the leg says it; elsewhere it is the
leg's dollars.
-/

namespace Morai.Ingest.LegAccounting

open Morai.Db Morai.Python Morai.Ledger.Fills Morai.Ingest.ExtractFills

set_option autoImplicit false

/-! ## Fills and skip reasons -/

/-- Fills and reasons together are the option legs, each fill at its leg's
place and made from its leg alone. -/
structure LegsAccounted (transaction : Transaction) (extracted : List FillWrite × List String) :
    Prop where
  unusable : Unusable transaction → extracted.1 = [] ∧ extracted.2.length = 1
  total : ¬Unusable transaction →
    extracted.1.length + extracted.2.length = (optionItems transaction).length
  places : ¬Unusable transaction →
    extracted.1.map FillWrite.legIndex =
      ((optionItems transaction).zipIdx.filter fun leg => YieldsFill leg.1).map
        fun leg => (leg.2 : Int)
  increasing : (extracted.1.map FillWrite.legIndex).Pairwise (· < ·)
  own : ∀ orderId, ¬Unusable transaction → transaction.orderId = some orderId →
    extracted.1 = (optionItems transaction).zipIdx.filterMap (legFill orderId transaction.time)

theorem element_indexes_increase (transaction : Transaction) :
    ((elementKeys transaction).map FillKey.legIndex).Pairwise (· < ·) := by
  unfold elementKeys
  split_ifs
  · cases transaction.orderId with
    | none => exact List.Pairwise.nil
    | some orderId =>
        have places : ((optionItems transaction).zipIdx.map Prod.snd).Pairwise (· < ·) := by
          rw [List.zipIdx_map_snd]
          exact List.pairwise_lt_range'
        have kept := places.sublist ((List.filter_sublist
          (p := fun leg : TransferItem × Nat => YieldsFill leg.1)).map Prod.snd)
        rw [List.pairwise_map] at kept
        rw [List.map_map, List.pairwise_map]
        apply kept.imp
        intro left right before
        exact Int.ofNat_lt.mpr before
  · exact List.Pairwise.nil

/-- Where `extract_fills` returns, every option leg is accounted for. -/
theorem extracted_accounts (transaction : Transaction) (extracted : List FillWrite × List String)
    (ran : extractFills transaction = .ok extracted) : LegsAccounted transaction extracted := by
  have indexes : extracted.1.map FillWrite.legIndex =
      (elementKeys transaction).map FillKey.legIndex := by
    rw [← extract_fills_keys transaction extracted ran, List.map_map]
    rfl
  refine ⟨?_, ?_, ?_, ?_, ?_⟩
  · intro unusable
    obtain ⟨_, _, reason, other⟩ := unusable_extracted transaction unusable
    rw [ran] at other
    cases other
    exact ⟨rfl, rfl⟩
  · intro usable
    obtain ⟨_, raised⟩ | ⟨_, other, same, _, total⟩ := extract_fills_spec transaction
    · rw [ran] at raised
      cases raised
    · rw [ran] at same
      cases same
      exact total usable
  · intro usable
    obtain ⟨trade, ⟨orderId, order⟩, _⟩ := usable_parts transaction usable
    rw [indexes, elementKeys, if_pos trade, order, List.map_map]
    rfl
  · rw [indexes]
    exact element_indexes_increase transaction
  · intro orderId usable order
    obtain ⟨trade, _, _⟩ := usable_parts transaction usable
    rw [extract_fills_eq transaction extracted ran, fillsOfLegs, if_pos trade, order]

/-! ## One item changed -/

/-- The place of an item among the option items. -/
def optionPlace (items : List TransferItem) (index : Nat) : Nat :=
  ((items.take index).filter isOption).length

theorem option_items_set (items : List TransferItem) (index : Nat) (old item : TransferItem)
    (stored : items[index]? = some old) (oldOption : isOption old = true)
    (option : isOption item = true) :
    (items.set index item).filter isOption =
      (items.filter isOption).set (optionPlace items index) item := by
  induction items generalizing index with
  | nil => simp at stored
  | cons head rest ih =>
      cases index with
      | zero =>
          simp only [List.getElem?_cons_zero, Option.some.injEq] at stored
          simp [optionPlace, stored, oldOption, option]
      | succ index =>
          rw [List.getElem?_cons_succ] at stored
          rw [List.set_cons_succ, List.filter_cons, List.filter_cons, ih index stored]
          by_cases kept : isOption head = true
          · simp [optionPlace, kept]
          · simp [optionPlace, kept]

/-- The element with one of its items changed. -/
def withItem (transaction : Transaction) (index : Nat) (item : TransferItem) : Transaction :=
  { transaction with transferItems := transaction.transferItems.set index item }

/-- The change leaves the fills of all other legs as they are. -/
def OthersStay (transaction : Transaction) (index : Nat) (item : TransferItem) : Prop :=
  ∀ fill : FillWrite, fill.legIndex ≠ (optionPlace transaction.transferItems index : Int) →
    (fill ∈ fillsOf transaction ↔ fill ∈ fillsOf (withItem transaction index item))

theorem leg_fill_index (orderId : String) (time : Instant) (leg : TransferItem × Nat)
    (fill : FillWrite) (made : legFill orderId time leg = some fill) : fill.legIndex = leg.2 :=
  congrArg FillKey.legIndex (leg_fill_key orderId time leg fill made)

/-- Where both elements are extracted, no other leg sees the change. -/
theorem returned_others_stay (transaction : Transaction) (index : Nat) (old item : TransferItem)
    (stored : transaction.transferItems[index]? = some old) (oldOption : isOption old = true)
    (option : isOption item = true) (returns : ExtractionReturns transaction)
    (changedReturns : ExtractionReturns (withItem transaction index item)) :
    OthersStay transaction index item := by
  have items : optionItems (withItem transaction index item) =
      (optionItems transaction).set (optionPlace transaction.transferItems index) item :=
    option_items_set transaction.transferItems index old item stored oldOption option
  intro fill elsewhere
  rw [fills_of_returned transaction returns, fills_of_returned _ changedReturns, mem_fills_of_legs,
    mem_fills_of_legs, items]
  apply and_congr Iff.rfl
  apply exists_congr
  intro orderId
  apply and_congr Iff.rfl
  apply exists_congr
  rintro ⟨leg, place⟩
  apply and_congr_left
  intro made
  have apart : optionPlace transaction.transferItems index ≠ place := by
    intro same
    apply elsewhere
    rw [leg_fill_index orderId _ _ fill made, same]
  rw [List.mem_zipIdx_iff_getElem?, List.mem_zipIdx_iff_getElem?, List.getElem?_set_ne apart]

/-- Where the changed element raises, it has no fills. -/
theorem raised_no_fills (transaction : Transaction) (raises : ¬ExtractionReturns transaction) :
    fillsOf transaction = [] := by
  obtain ⟨_, raised⟩ | ⟨returns, _⟩ := extract_fills_spec transaction
  · rw [fillsOf, raised]
    rfl
  · exact absurd returns raises

/-- Every option leg is accounted for, and changing one item changes no other
leg's fill. -/
def AccountsForLegs (transaction : Transaction) (index : Nat) (item : TransferItem) : Prop :=
  ∃ extracted, extractFills transaction = .ok extracted ∧ LegsAccounted transaction extracted ∧
    OthersStay transaction index item

def optionLeg (amount cost : Option Decimal) : TransferItem :=
  ⟨some ⟨some "SPXW  260320C05000000", some "OPTION"⟩, amount, some ⟨1250, -2⟩, cost, some "OPENING"⟩

/-- An order with these legs. -/
def orderOf (legs : List TransferItem) : Transaction :=
  { executionOf 1 "SPXW  260320C05000000" 1 with transferItems := legs }

/-- The signed number of contracts a leg says; no number where `amount` is
absent or zero. -/
def contracts (item : TransferItem) : Option Decimal :=
  item.amount.filter fun amount => ¬amount.IsZero

/-- A fill whose quantity is its leg's number of contracts, or a gap where the
leg says none. -/
structure CountsContracts (item : TransferItem) (fill : FillWrite) : Prop where
  counted : ∀ amount, contracts item = some amount → ∃ quantity, fill.quantity = some quantity ∧
    (fill.side = "BUY" ∧ quantity.toRat = amount.toRat ∨
      fill.side = "SELL" ∧ -quantity.toRat = amount.toRat)
  gap : contracts item = none → fill.quantity = none

def CountsOnly (transaction : Transaction) : Prop :=
  ∀ leg ∈ (optionItems transaction).zipIdx, ∀ fill ∈ fillsOf transaction,
    fill.legIndex = (leg.2 : Int) → CountsContracts leg.1 fill

/-- A fill takes a number as it is on the one side, and its minus on the
other. -/
def Takes (value : Decimal) (side otherSide : String) (fill : FillWrite) : Prop :=
  value.IsPositive ∧ fill.side = side ∧ fill.quantity = some value ∨
    ¬value.IsPositive ∧ fill.side = otherSide ∧
      ∃ quantity, value.minus = some quantity ∧ fill.quantity = some quantity

/-- Side and quantity of a leg's fill: from its number of contracts, exactly
where the context holds that number, and from its dollars where it says none. -/
structure Quantified (item : TransferItem) (fill : FillWrite) : Prop where
  counted : ∀ amount, contracts item = some amount → Takes amount "BUY" "SELL" fill
  exact : ∀ amount, contracts item = some amount → amount.InContext →
    ∃ quantity, fill.quantity = some quantity ∧
      (fill.side = "BUY" ∧ quantity.toRat = amount.toRat ∨
        fill.side = "SELL" ∧ -quantity.toRat = amount.toRat)
  dollars : contracts item = none → ∃ cost ∈ item.cost, ¬cost.IsZero ∧ Takes cost "SELL" "BUY" fill

theorem takes_of_direction (value : Decimal) (side otherSide : String) (fill : FillWrite)
    (quantity : Decimal) (filled : fill.quantity = some quantity)
    (made : (if value.IsPositive then .ok (some (side, value))
      else (negated value).map fun quantity => some (otherSide, quantity)) =
        (.ok (some (fill.side, quantity)) : Except Raised (Option (String × Decimal)))) :
    Takes value side otherSide fill := by
  split_ifs at made with positive
  · cases made
    exact Or.inl ⟨positive, rfl, filled⟩
  · unfold negated at made
    cases turned : value.minus with
    | none =>
        rw [turned] at made
        cases made
    | some result =>
        rw [turned] at made
        cases made
        exact Or.inr ⟨positive, rfl, _, turned, filled⟩

theorem takes_exact (amount : Decimal) (fill : FillWrite) (fits : amount.InContext)
    (takes : Takes amount "BUY" "SELL" fill) :
    ∃ quantity, fill.quantity = some quantity ∧
      (fill.side = "BUY" ∧ quantity.toRat = amount.toRat ∨
        fill.side = "SELL" ∧ -quantity.toRat = amount.toRat) := by
  obtain ⟨_, bought, filled⟩ | ⟨_, sold, quantity, made, filled⟩ := takes
  · exact ⟨amount, filled, Or.inl ⟨bought, rfl⟩⟩
  · rw [amount.minus_in_context fits] at made
    cases made
    exact ⟨amount.neg, filled, Or.inr ⟨sold, by rw [Decimal.to_rat_neg, neg_neg]⟩⟩

/-- What a leg's fill takes its quantity from. -/
theorem leg_fill_quantified (orderId : String) (time : Instant) (leg : TransferItem × Nat)
    (fill : FillWrite) (made : legFill orderId time leg = some fill) : Quantified leg.1 fill := by
  obtain ⟨symbol, positionEffect, side, quantity, _, _, signed, shape⟩ :=
    extract_leg_made "" orderId time leg.1 leg.2 fill (leg_fill_made orderId time leg fill made)
  have filled : fill.quantity = some quantity := by rw [shape]
  have sided : fill.side = side := by rw [shape]
  rw [← sided] at signed
  have counted : ∀ amount, contracts leg.1 = some amount → Takes amount "BUY" "SELL" fill := by
    intro amount stated
    obtain ⟨read, nonzero⟩ := Option.filter_eq_some_iff.mp stated
    rw [read, direction_of_amount amount leg.1.cost (of_decide_eq_true nonzero)] at signed
    exact takes_of_direction amount "BUY" "SELL" fill quantity filled signed
  refine ⟨counted, fun amount stated fits => takes_exact amount fill fits (counted amount stated), ?_⟩
  intro silent
  have absent : ∀ amount ∈ leg.1.amount, amount.IsZero := by
    intro amount read
    have dropped := Option.filter_eq_none_iff.mp silent amount read
    simpa using dropped
  by_cases priced : ∃ cost ∈ leg.1.cost, ¬cost.IsZero
  · obtain ⟨cost, read, nonzero⟩ := priced
    refine ⟨cost, read, nonzero, ?_⟩
    rw [Option.mem_def.mp read, direction_of_cost leg.1.amount cost absent nonzero] at signed
    exact takes_of_direction cost "SELL" "BUY" fill quantity filled signed
  · have free : ∀ cost ∈ leg.1.cost, cost.IsZero := by
      intro cost read
      by_contra nonzero
      exact priced ⟨cost, read, nonzero⟩
    rw [direction_of_neither leg.1.amount leg.1.cost absent free] at signed
    cases signed

theorem extract_legs_reason (activityLabel orderId : String) (time : Instant)
    (legs : List (TransferItem × Nat)) (extracted : List FillWrite × List String)
    (ran : extractLegs activityLabel orderId time legs = .ok extracted) (leg : TransferItem × Nat)
    (member : leg ∈ legs) (reason : String)
    (skipped : extractLeg activityLabel orderId time leg.1 leg.2 = .ok (.error reason)) :
    reason ∈ extracted.2 := by
  induction legs generalizing extracted with
  | nil => cases member
  | cons first rest ih =>
      obtain ⟨outcome, made, ran⟩ := bind_ok _ _ _ ran
      obtain ⟨later, laterRan, ran⟩ := bind_ok _ _ _ ran
      cases ran
      cases List.mem_cons.mp member with
      | inl same =>
          rw [← same, skipped] at made
          cases made
          exact List.mem_cons_self
      | inr inRest =>
          have listed := ih later laterRan inRest
          cases outcome with
          | error other => exact List.mem_cons_of_mem _ listed
          | ok fill => exact listed

/-- A leg that says neither contracts nor dollars is skipped with a reason. -/
theorem gap_is_skipped (activityLabel orderId : String) (time : Instant) (item : TransferItem)
    (legIndex : Nat) (silent : contracts item = none) (free : ∀ cost ∈ item.cost, cost.IsZero) :
    ∃ reason, extractLeg activityLabel orderId time item legIndex = .ok (.error reason) := by
  have absent : ∀ amount ∈ item.amount, amount.IsZero := by
    intro amount read
    have dropped := Option.filter_eq_none_iff.mp silent amount read
    simpa using dropped
  unfold extractLeg
  rw [direction_of_neither item.amount item.cost absent free]
  cases item.instrument.bind Instrument.symbol with
  | none => exact ⟨_, rfl⟩
  | some symbol =>
      cases item.positionEffect with
      | none => exact ⟨_, rfl⟩
      | some positionEffect => exact ⟨_, rfl⟩

end Morai.Ingest.LegAccounting
