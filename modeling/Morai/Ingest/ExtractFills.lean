import Morai.Ledger.Fills
import Morai.Python.DecimalContext

/-!
# From a broker transaction to fills

`extract_fills` turns one validated transaction element into the fills of its
option legs and a list of skip reasons, or raises where a minus overflows.
`leg_index` counts the option legs of one element and starts again at 0 in the
next, and the activity id is not part of a fill, so two elements of one order
can produce the same fill key.
-/

namespace Morai.Ingest.ExtractFills

open Morai.Crypto Morai.Db Morai.Python Morai.Foundation.PrimaryKey Morai.Ledger.Fills

set_option autoImplicit false

/-- `int | str`. -/
inductive ActivityId where
  | number (value : Int)
  | text (value : String)
  deriving DecidableEq, Repr

def ActivityId.str : ActivityId → String
  | .number value => toString value
  | .text value => value

structure Instrument where
  symbol : Option String
  assetType : Option String
  deriving DecidableEq, Repr

structure TransferItem where
  instrument : Option Instrument
  amount : Option Decimal
  price : Option Decimal
  cost : Option Decimal
  positionEffect : Option String
  deriving DecidableEq, Repr

structure Transaction where
  activityId : ActivityId
  type : String
  time : Instant
  orderId : Option String
  transferItems : List TransferItem
  deriving DecidableEq, Repr

/-- `-value`. -/
def negated (value : Decimal) : Except Raised Decimal :=
  match value.minus with
  | some quantity => .ok quantity
  | none => .error .overflow

/-- `_direction`: the sign of `amount`, else the opposite sign of `cost`. -/
def direction (amount cost : Option Decimal) : Except Raised (Option (String × Decimal)) :=
  let fallback :=
    match cost with
    | none => .ok none
    | some cost =>
        if cost.IsZero then .ok none
        else if cost.IsPositive then .ok (some ("SELL", cost))
        else (negated cost).map fun quantity => some ("BUY", quantity)
  match amount with
  | none => fallback
  | some amount =>
      if amount.IsZero then fallback
      else if amount.IsPositive then .ok (some ("BUY", amount))
      else (negated amount).map fun quantity => some ("SELL", quantity)

def isOption (item : TransferItem) : Bool :=
  item.instrument.any fun instrument => instrument.assetType = some "OPTION"

def optionItems (transaction : Transaction) : List TransferItem :=
  transaction.transferItems.filter isOption

def legLabel (activityLabel : String) (legIndex : Nat) : String :=
  "activity " ++ activityLabel ++ " leg " ++ toString legIndex ++ ": "

/-- The loop body for one option item: its skip reason or its fill. -/
def extractLeg (activityLabel orderId : String) (time : Instant) (item : TransferItem)
    (legIndex : Nat) : Except Raised (Except String FillWrite) :=
  match item.instrument.bind Instrument.symbol with
  | none => .ok (.error (legLabel activityLabel legIndex ++ "no instrument symbol"))
  | some symbol =>
      match item.positionEffect with
      | none => .ok (.error (legLabel activityLabel legIndex ++ "no positionEffect"))
      | some positionEffect =>
          (direction item.amount item.cost).map fun
            | none => .error (legLabel activityLabel legIndex ++
                "no usable amount or cost to determine direction")
            | some (side, quantity) =>
                .ok { orderId := orderId
                      occSymbol := withoutSpaces symbol
                      legIndex := legIndex
                      executionTime := time
                      positionEffect := positionEffect
                      side := side
                      quantity := some quantity
                      priceUsd := item.price }

/-- Fills and skip reasons with one leg more in front. -/
def withLeg (outcome : Except String FillWrite) (later : List FillWrite × List String) :
    List FillWrite × List String :=
  match outcome with
  | .error reason => (later.1, reason :: later.2)
  | .ok fill => (fill :: later.1, later.2)

def extractLegs (activityLabel orderId : String) (time : Instant) :
    List (TransferItem × Nat) → Except Raised (List FillWrite × List String)
  | [] => .ok ([], [])
  | leg :: rest => do
      let outcome ← extractLeg activityLabel orderId time leg.1 leg.2
      let later ← extractLegs activityLabel orderId time rest
      .ok (withLeg outcome later)

def extractFills (transaction : Transaction) : Except Raised (List FillWrite × List String) :=
  let activityLabel := transaction.activityId.str
  if transaction.type ≠ "TRADE" then
    .ok ([], ["activity " ++ activityLabel ++ ": not a TRADE (type=" ++
      reprText transaction.type ++ ")"])
  else
    match transaction.orderId with
    | none => .ok ([], ["activity " ++ activityLabel ++ ": missing orderId"])
    | some orderId =>
        if optionItems transaction = [] then
          .ok ([], ["activity " ++ activityLabel ++ ": no option transferItems"])
        else
          extractLegs activityLabel orderId transaction.time (optionItems transaction).zipIdx

/-- The loop over the elements of a window. -/
def extractAll : List Transaction → Except Raised (List FillWrite × List String)
  | [] => .ok ([], [])
  | transaction :: rest => do
      let first ← extractFills transaction
      let later ← extractAll rest
      .ok (first.1 ++ later.1, first.2 ++ later.2)

/-! ## Directions -/

/-- The number a direction is read from: a nonzero `amount`, else a nonzero
`cost`. -/
def decisive (item : TransferItem) : Option Decimal :=
  (item.amount.filter fun amount => ¬amount.IsZero).or (item.cost.filter fun cost => ¬cost.IsZero)

/-- The sign of a nonzero amount decides. -/
theorem direction_of_amount (amount : Decimal) (cost : Option Decimal) (nonzero : ¬amount.IsZero) :
    direction (some amount) cost =
      if amount.IsPositive then .ok (some ("BUY", amount))
      else (negated amount).map fun quantity => some ("SELL", quantity) := by
  unfold direction
  simp only [if_neg nonzero]

/-- Without it, the opposite sign of a nonzero cost does. -/
theorem direction_of_cost (amount : Option Decimal) (cost : Decimal)
    (absent : ∀ value ∈ amount, value.IsZero) (nonzero : ¬cost.IsZero) :
    direction amount (some cost) =
      if cost.IsPositive then .ok (some ("SELL", cost))
      else (negated cost).map fun quantity => some ("BUY", quantity) := by
  unfold direction
  cases amount with
  | none => simp only [if_neg nonzero]
  | some amount => simp only [if_pos (absent amount rfl), if_neg nonzero]

theorem direction_of_neither (amount cost : Option Decimal) (absent : ∀ value ∈ amount, value.IsZero)
    (free : ∀ value ∈ cost, value.IsZero) : direction amount cost = .ok none := by
  unfold direction
  cases amount with
  | none =>
      cases cost with
      | none => rfl
      | some cost => simp only [if_pos (free cost rfl)]
  | some amount =>
      cases cost with
      | none => simp only [if_pos (absent amount rfl)]
      | some cost => simp only [if_pos (absent amount rfl), if_pos (free cost rfl)]

/-- A leg's direction is one of these, by what `decisive` is. -/
inductive Directed (item : TransferItem) : Except Raised (Option (String × Decimal)) → Prop where
  | neither (undecided : decisive item = none) : Directed item (.ok none)
  | asGiven (value : Decimal) (side : String) (known : side = "BUY" ∨ side = "SELL")
      (decides : decisive item = some value) (positive : value.IsPositive) :
      Directed item (.ok (some (side, value)))
  | turned (value quantity : Decimal) (side : String) (known : side = "BUY" ∨ side = "SELL")
      (decides : decisive item = some value) (negative : ¬value.IsPositive)
      (made : value.minus = some quantity) : Directed item (.ok (some (side, quantity)))
  | raises (value : Decimal) (decides : decisive item = some value)
      (negative : ¬value.IsPositive) (overflow : value.minus = none) :
      Directed item (.error .overflow)

theorem directed_by (item : TransferItem) (value : Decimal) (side otherSide : String)
    (known : side = "BUY" ∨ side = "SELL") (otherKnown : otherSide = "BUY" ∨ otherSide = "SELL")
    (decides : decisive item = some value) :
    Directed item (if value.IsPositive then .ok (some (side, value))
      else (negated value).map fun quantity => some (otherSide, quantity)) := by
  split_ifs with positive
  · exact .asGiven value side known decides positive
  · unfold negated
    cases made : value.minus with
    | none => exact .raises value decides positive made
    | some quantity => exact .turned value quantity otherSide otherKnown decides positive made

theorem direction_directed (item : TransferItem) :
    Directed item (direction item.amount item.cost) := by
  by_cases counted : ∃ amount ∈ item.amount, ¬amount.IsZero
  · obtain ⟨amount, read, nonzero⟩ := counted
    rw [Option.mem_def] at read
    rw [read, direction_of_amount amount item.cost nonzero]
    exact directed_by item amount "BUY" "SELL" (Or.inl rfl) (Or.inr rfl)
      (by simp [decisive, read, nonzero])
  · have absent : ∀ amount ∈ item.amount, amount.IsZero := by
      intro amount read
      by_contra nonzero
      exact counted ⟨amount, read, nonzero⟩
    have gone : (item.amount.filter fun amount => ¬amount.IsZero) = none := by
      rw [Option.filter_eq_none_iff]
      intro amount read
      simpa using absent amount read
    by_cases priced : ∃ cost ∈ item.cost, ¬cost.IsZero
    · obtain ⟨cost, read, nonzero⟩ := priced
      rw [Option.mem_def] at read
      rw [read, direction_of_cost item.amount cost absent nonzero]
      exact directed_by item cost "SELL" "BUY" (Or.inr rfl) (Or.inl rfl) (by
        rw [decisive, gone, Option.none_or, Option.filter_eq_some_iff]
        exact ⟨read, decide_eq_true nonzero⟩)
    · have free : ∀ cost ∈ item.cost, cost.IsZero := by
        intro cost read
        by_contra nonzero
        exact priced ⟨cost, read, nonzero⟩
      rw [direction_of_neither item.amount item.cost absent free]
      have undecided : decisive item = none := by
        rw [decisive, gone, Option.none_or, Option.filter_eq_none_iff]
        intro cost read
        simpa using free cost read
      exact .neither undecided

/-! ## What is extracted -/

/-- A leg that is not skipped: it has a symbol and a `positionEffect`, and an
amount that is not zero or else such a cost. -/
structure YieldsFill (item : TransferItem) : Prop where
  symbol : item.instrument.bind Instrument.symbol ≠ none
  effect : item.positionEffect ≠ none
  signed : decisive item ≠ none

instance (item : TransferItem) : Decidable (YieldsFill item) :=
  decidable_of_iff (item.instrument.bind Instrument.symbol ≠ none ∧
    item.positionEffect ≠ none ∧ decisive item ≠ none)
    ⟨fun found => ⟨found.1, found.2.1, found.2.2⟩,
      fun found => ⟨found.symbol, found.effect, found.signed⟩⟩

/-- A leg whose direction cannot be taken: the number it is read from is
negative and has no minus under the context. -/
def Overflows (item : TransferItem) : Prop :=
  YieldsFill item ∧ ∃ value ∈ decisive item, ¬value.IsPositive ∧ value.minus = none

instance (item : TransferItem) : Decidable (Overflows item) :=
  inferInstanceAs (Decidable (_ ∧ ∃ value ∈ decisive item, _))

/-- The stripped symbol of a leg that has one. -/
def legSymbol (item : TransferItem) : String :=
  withoutSpaces ((item.instrument.bind Instrument.symbol).getD "")

def legKey (orderId : String) (time : Instant) (leg : TransferItem × Nat) : FillKey :=
  ⟨orderId, legSymbol leg.1, leg.2, time⟩

/-- What a leg that made a fill had, and the fill it made. -/
theorem extract_leg_made (activityLabel orderId : String) (time : Instant) (item : TransferItem)
    (legIndex : Nat) (fill : FillWrite)
    (made : extractLeg activityLabel orderId time item legIndex = .ok (.ok fill)) :
    ∃ symbol positionEffect side quantity, item.instrument.bind Instrument.symbol = some symbol ∧
      item.positionEffect = some positionEffect ∧
      direction item.amount item.cost = .ok (some (side, quantity)) ∧
      fill = ⟨orderId, withoutSpaces symbol, legIndex, time, positionEffect, side, some quantity,
        item.price⟩ := by
  unfold extractLeg at made
  cases symbol : item.instrument.bind Instrument.symbol with
  | none => simp [symbol] at made
  | some found =>
      cases effect : item.positionEffect with
      | none => simp [symbol, effect] at made
      | some positionEffect =>
          simp only [symbol, effect] at made
          cases signed : direction item.amount item.cost with
          | error raised =>
              rw [signed] at made
              cases made
          | ok sides =>
              rw [signed] at made
              cases sides with
              | none => cases made
              | some sides =>
                  cases made
                  exact ⟨found, positionEffect, sides.1, sides.2, rfl, rfl, rfl, rfl⟩

/-- A leg is a fill exactly where it yields one, and raises exactly where it
overflows. -/
theorem extract_leg_spec (activityLabel orderId : String) (time : Instant) (item : TransferItem)
    (legIndex : Nat) :
    (Overflows item ∧ extractLeg activityLabel orderId time item legIndex = .error .overflow) ∨
      ¬Overflows item ∧ ∃ outcome,
        extractLeg activityLabel orderId time item legIndex = .ok outcome ∧
        ((∃ fill, outcome = .ok fill) ↔ YieldsFill item) := by
  unfold extractLeg
  cases symbol : item.instrument.bind Instrument.symbol with
  | none =>
      have skipped : ¬YieldsFill item := fun yields => yields.symbol symbol
      exact Or.inr ⟨fun overflows => skipped overflows.1, _, rfl, by simp [skipped]⟩
  | some found =>
      cases effect : item.positionEffect with
      | none =>
          have skipped : ¬YieldsFill item := fun yields => yields.effect effect
          exact Or.inr ⟨fun overflows => skipped overflows.1, _, rfl, by simp [skipped]⟩
      | some positionEffect =>
          have yields : decisive item ≠ none → YieldsFill item := fun signed =>
            ⟨by simp [symbol], by simp [effect], signed⟩
          have directed := direction_directed item
          generalize direction item.amount item.cost = signed at directed
          cases directed with
          | neither undecided =>
              have skipped : ¬YieldsFill item := fun yields => yields.signed undecided
              exact Or.inr ⟨fun overflows => skipped overflows.1, _, rfl, by simp [skipped]⟩
          | asGiven value side known decides positive =>
              refine Or.inr ⟨?_, _, rfl, by simp [yields (by simp [decides])]⟩
              rintro ⟨_, other, same, negative, _⟩
              rw [decides, Option.mem_some] at same
              exact negative (same ▸ positive)
          | turned value quantity side known decides negative made =>
              refine Or.inr ⟨?_, _, rfl, by simp [yields (by simp [decides])]⟩
              rintro ⟨_, other, same, _, overflow⟩
              rw [decides, Option.mem_some] at same
              rw [← same, made] at overflow
              cases overflow
          | raises value decides negative overflow =>
              exact Or.inl ⟨⟨yields (by simp [decides]), value, decides, negative, overflow⟩, rfl⟩

theorem extract_leg_key (activityLabel orderId : String) (time : Instant) (item : TransferItem)
    (legIndex : Nat) (fill : FillWrite)
    (made : extractLeg activityLabel orderId time item legIndex = .ok (.ok fill)) :
    fill.key = legKey orderId time (item, legIndex) := by
  obtain ⟨symbol, effect, side, quantity, symbolEq, _, _, shape⟩ :=
    extract_leg_made activityLabel orderId time item legIndex fill made
  rw [shape]
  simp [FillWrite.key, legKey, legSymbol, symbolEq]

/-- The fill of one option leg, if it yields one. -/
def legFill (orderId : String) (time : Instant) (leg : TransferItem × Nat) : Option FillWrite :=
  (extractLeg "" orderId time leg.1 leg.2).toOption.bind Except.toOption

/-- The label is for the skip reasons alone. -/
theorem leg_fill_eq (activityLabel orderId : String) (time : Instant) (leg : TransferItem × Nat) :
    legFill orderId time leg =
      (extractLeg activityLabel orderId time leg.1 leg.2).toOption.bind Except.toOption := by
  unfold legFill extractLeg
  cases leg.1.instrument.bind Instrument.symbol with
  | none => rfl
  | some symbol =>
      cases leg.1.positionEffect with
      | none => rfl
      | some positionEffect =>
          cases direction leg.1.amount leg.1.cost with
          | error raised => rfl
          | ok signed => cases signed <;> rfl

theorem leg_fill_made (orderId : String) (time : Instant) (leg : TransferItem × Nat)
    (fill : FillWrite) (made : legFill orderId time leg = some fill) :
    extractLeg "" orderId time leg.1 leg.2 = .ok (.ok fill) := by
  unfold legFill at made
  cases outcome : extractLeg "" orderId time leg.1 leg.2 with
  | error raised => simp [outcome, Except.toOption] at made
  | ok extracted =>
      cases extracted with
      | error reason => simp [outcome, Except.toOption] at made
      | ok found =>
          simp only [outcome, Except.toOption, Option.bind_some, Option.some.injEq] at made
          rw [made]

theorem leg_fill_key (orderId : String) (time : Instant) (leg : TransferItem × Nat)
    (fill : FillWrite) (made : legFill orderId time leg = some fill) :
    fill.key = legKey orderId time leg :=
  extract_leg_key "" orderId time leg.1 leg.2 fill (leg_fill_made orderId time leg fill made)

theorem leg_fill_some_iff (orderId : String) (time : Instant) (leg : TransferItem × Nat)
    (fits : ¬Overflows leg.1) : (∃ fill, legFill orderId time leg = some fill) ↔ YieldsFill leg.1 := by
  obtain ⟨overflows, _⟩ | ⟨_, outcome, made, yields⟩ := extract_leg_spec "" orderId time leg.1 leg.2
  · exact absurd overflows fits
  · rw [← yields, legFill, made]
    cases outcome <;> simp [Except.toOption]

/-- The fills of legs that do not overflow have the keys of those that yield
one, in order. -/
theorem leg_fills_keys (orderId : String) (time : Instant) (legs : List (TransferItem × Nat))
    (fit : ∀ leg ∈ legs, ¬Overflows leg.1) :
    (legs.filterMap (legFill orderId time)).map FillWrite.key =
      (legs.filter fun leg => YieldsFill leg.1).map (legKey orderId time) := by
  induction legs with
  | nil => rfl
  | cons leg rest ih =>
      obtain ⟨here, later⟩ := List.forall_mem_cons.mp fit
      have yields := leg_fill_some_iff orderId time leg here
      cases made : legFill orderId time leg with
      | none =>
          have skipped : ¬YieldsFill leg.1 := by simpa [made] using yields.not
          simp [made, skipped, ih later]
      | some fill =>
          have found : YieldsFill leg.1 := yields.mp ⟨fill, made⟩
          simp [made, found, ih later, leg_fill_key orderId time leg fill made]

/-- The legs are extracted unless one overflows, each as a fill or as a skip
reason. -/
theorem extract_legs_spec (activityLabel orderId : String) (time : Instant)
    (legs : List (TransferItem × Nat)) :
    ((∃ leg ∈ legs, Overflows leg.1) ∧
        extractLegs activityLabel orderId time legs = .error .overflow) ∨
      (∀ leg ∈ legs, ¬Overflows leg.1) ∧ ∃ extracted,
        extractLegs activityLabel orderId time legs = .ok extracted ∧
        extracted.1 = legs.filterMap (legFill orderId time) ∧
        extracted.1.length + extracted.2.length = legs.length := by
  induction legs with
  | nil => exact Or.inr ⟨by simp, ([], []), rfl, rfl, rfl⟩
  | cons leg rest ih =>
      unfold extractLegs
      obtain ⟨overflows, raised⟩ | ⟨fits, outcome, made, _⟩ :=
        extract_leg_spec activityLabel orderId time leg.1 leg.2
      · exact Or.inl ⟨⟨leg, List.mem_cons_self, overflows⟩, by rw [raised]; rfl⟩
      · obtain ⟨⟨other, member, overflows⟩, raised⟩ | ⟨restFits, later, ran, fills, total⟩ := ih
        · exact Or.inl ⟨⟨other, List.mem_cons_of_mem _ member, overflows⟩, by rw [made, raised]; rfl⟩
        · have own := leg_fill_eq activityLabel orderId time leg
          rw [made] at own
          refine Or.inr ⟨List.forall_mem_cons.mpr ⟨fits, restFits⟩, withLeg outcome later,
            by rw [made, ran]; rfl, ?_, ?_⟩
          · cases outcome with
            | error reason =>
                rw [List.filterMap_cons_none own]
                exact fills
            | ok fill =>
                rw [List.filterMap_cons_some own, ← fills]
                rfl
          · cases outcome with
            | error reason =>
                simp only [withLeg, List.length_cons]
                omega
            | ok fill =>
                simp only [withLeg, List.length_cons]
                omega

/-- `extract_fills` returns for the element. -/
def ExtractionReturns (transaction : Transaction) : Prop :=
  transaction.type = "TRADE" → transaction.orderId ≠ none →
    ∀ item ∈ optionItems transaction, ¬Overflows item

instance (transaction : Transaction) : Decidable (ExtractionReturns transaction) :=
  inferInstanceAs (Decidable (_ → _ → ∀ item ∈ optionItems transaction, _))

/-- The keys an element's fills will have; an element that yields nothing has
none. -/
def elementKeys (transaction : Transaction) : List FillKey :=
  if transaction.type = "TRADE" then
    match transaction.orderId with
    | none => []
    | some orderId =>
        ((optionItems transaction).zipIdx.filter fun leg => YieldsFill leg.1).map
          (legKey orderId transaction.time)
  else []

/-- An element of which no leg is looked at. -/
def Unusable (transaction : Transaction) : Prop :=
  transaction.type ≠ "TRADE" ∨ transaction.orderId = none ∨ optionItems transaction = []

instance (transaction : Transaction) : Decidable (Unusable transaction) :=
  inferInstanceAs (Decidable (_ ∨ _ ∨ _))

theorem unusable_extracted (transaction : Transaction) (unusable : Unusable transaction) :
    ExtractionReturns transaction ∧ elementKeys transaction = [] ∧
      ∃ reason, extractFills transaction = .ok ([], [reason]) := by
  unfold extractFills elementKeys
  by_cases trade : transaction.type = "TRADE"
  · cases order : transaction.orderId with
    | none =>
        refine ⟨fun _ ordered => absurd order ordered, if_pos trade,
          "activity " ++ transaction.activityId.str ++ ": missing orderId", ?_⟩
        rw [if_neg (not_not.mpr trade)]
    | some orderId =>
        have empty : optionItems transaction = [] := by
          rcases unusable with other | missing | empty
          · exact absurd trade other
          · rw [order] at missing
            cases missing
          · exact empty
        refine ⟨fun _ _ item member => ?_, ?_,
          "activity " ++ transaction.activityId.str ++ ": no option transferItems", ?_⟩
        · rw [empty] at member
          cases member
        · rw [if_pos trade, empty]
          rfl
        · rw [if_neg (not_not.mpr trade)]
          exact if_pos empty
  · exact ⟨fun isTrade => absurd isTrade trade, if_neg trade, _, if_pos trade⟩

theorem usable_parts (transaction : Transaction) (usable : ¬Unusable transaction) :
    transaction.type = "TRADE" ∧ (∃ orderId, transaction.orderId = some orderId) ∧
      optionItems transaction ≠ [] := by
  simp only [Unusable, not_or, ne_eq, not_not] at usable
  exact ⟨usable.1, Option.ne_none_iff_exists'.mp usable.2.1, usable.2.2⟩

theorem usable_extracted (transaction : Transaction) (orderId : String)
    (usable : ¬Unusable transaction) (order : transaction.orderId = some orderId) :
    extractFills transaction = extractLegs transaction.activityId.str orderId transaction.time
      (optionItems transaction).zipIdx := by
  obtain ⟨trade, _, legs⟩ := usable_parts transaction usable
  simp only [extractFills, trade, order, legs, ne_eq, not_true_eq_false, if_false]

/-- The fills of an element's legs, whatever the element is. -/
def fillsOfLegs (transaction : Transaction) : List FillWrite :=
  if transaction.type = "TRADE" then
    match transaction.orderId with
    | none => []
    | some orderId =>
        (optionItems transaction).zipIdx.filterMap (legFill orderId transaction.time)
  else []

/-- An element is extracted unless one of its legs overflows. -/
theorem extract_fills_spec (transaction : Transaction) :
    (¬ExtractionReturns transaction ∧ extractFills transaction = .error .overflow) ∨
      ExtractionReturns transaction ∧ ∃ extracted, extractFills transaction = .ok extracted ∧
        extracted.1 = fillsOfLegs transaction ∧
        (¬Unusable transaction →
          extracted.1.length + extracted.2.length = (optionItems transaction).length) := by
  by_cases unusable : Unusable transaction
  · obtain ⟨returns, _, reason, ran⟩ := unusable_extracted transaction unusable
    refine Or.inr ⟨returns, _, ran, ?_, absurd unusable⟩
    unfold fillsOfLegs
    rcases unusable with other | missing | empty
    · rw [if_neg other]
    · rw [missing]
      split_ifs <;> rfl
    · rw [empty]
      cases transaction.orderId <;> split_ifs <;> rfl
  · obtain ⟨trade, ⟨orderId, order⟩, _⟩ := usable_parts transaction unusable
    rw [usable_extracted transaction orderId unusable order, fillsOfLegs, if_pos trade, order]
    obtain ⟨⟨leg, member, overflows⟩, raised⟩ | ⟨fits, extracted, ran, fills, total⟩ :=
      extract_legs_spec transaction.activityId.str orderId transaction.time
        (optionItems transaction).zipIdx
    · refine Or.inl ⟨fun returns => ?_, raised⟩
      exact returns trade (by simp [order]) leg.1 (List.fst_mem_of_mem_zipIdx member) overflows
    · rw [List.length_zipIdx] at total
      refine Or.inr ⟨fun _ _ item member => ?_, extracted, ran, fills, fun _ => total⟩
      obtain ⟨index, stored⟩ := List.mem_iff_getElem?.mp member
      exact fits (item, index) (List.mem_zipIdx_iff_getElem?.mpr stored)

theorem extract_fills_ok_iff (transaction : Transaction) :
    (∃ extracted, extractFills transaction = .ok extracted) ↔ ExtractionReturns transaction := by
  obtain ⟨fails, raised⟩ | ⟨returns, extracted, ran, _⟩ := extract_fills_spec transaction
  · simp [fails, raised]
  · simp [returns, ran]

theorem extract_fills_eq (transaction : Transaction) (extracted : List FillWrite × List String)
    (ran : extractFills transaction = .ok extracted) : extracted.1 = fillsOfLegs transaction := by
  obtain ⟨_, raised⟩ | ⟨_, other, same, fills, _⟩ := extract_fills_spec transaction
  · rw [ran] at raised
    cases raised
  · rw [ran] at same
    cases same
    exact fills

theorem fills_of_legs_keys (transaction : Transaction) (returns : ExtractionReturns transaction) :
    (fillsOfLegs transaction).map FillWrite.key = elementKeys transaction := by
  unfold fillsOfLegs elementKeys
  split_ifs with trade
  · cases order : transaction.orderId with
    | none => rfl
    | some orderId =>
        exact leg_fills_keys orderId transaction.time _ fun leg member =>
          returns trade (by simp [order]) leg.1 (List.fst_mem_of_mem_zipIdx member)
  · rfl

theorem extract_fills_keys (transaction : Transaction) (extracted : List FillWrite × List String)
    (ran : extractFills transaction = .ok extracted) :
    extracted.1.map FillWrite.key = elementKeys transaction := by
  have returns := (extract_fills_ok_iff transaction).mp ⟨extracted, ran⟩
  rw [extract_fills_eq transaction extracted ran, fills_of_legs_keys transaction returns]

/-- The fills of an element; where `extract_fills` raises there are none. -/
def fillsOf (transaction : Transaction) : List FillWrite :=
  ((extractFills transaction).toOption.map Prod.fst).getD []

theorem fills_of_extracted (transaction : Transaction) (extracted : List FillWrite × List String)
    (ran : extractFills transaction = .ok extracted) : fillsOf transaction = extracted.1 := by
  rw [fillsOf, ran]
  rfl

theorem fills_of_returned (transaction : Transaction) (returns : ExtractionReturns transaction) :
    fillsOf transaction = fillsOfLegs transaction := by
  obtain ⟨extracted, ran⟩ := (extract_fills_ok_iff transaction).mpr returns
  rw [fills_of_extracted transaction extracted ran, extract_fills_eq transaction extracted ran]

theorem fills_of_keys (transaction : Transaction) (returns : ExtractionReturns transaction) :
    (fillsOf transaction).map FillWrite.key = elementKeys transaction := by
  rw [fills_of_returned transaction returns, fills_of_legs_keys transaction returns]

theorem mem_fills_of_legs (transaction : Transaction) (fill : FillWrite) :
    fill ∈ fillsOfLegs transaction ↔
      transaction.type = "TRADE" ∧ ∃ orderId, transaction.orderId = some orderId ∧
        ∃ leg ∈ (optionItems transaction).zipIdx,
          legFill orderId transaction.time leg = some fill := by
  unfold fillsOfLegs
  by_cases trade : transaction.type = "TRADE"
  · cases transaction.orderId with
    | none => simp [trade]
    | some orderId =>
        simp only [trade, if_true, List.mem_filterMap, true_and, Option.some.injEq, exists_eq_left']
  · simp [trade]

/-- Every leg that yields a fill has it among those of an extracted element. -/
theorem yielding_leg_fill (transaction : Transaction) (returns : ExtractionReturns transaction)
    (trade : transaction.type = "TRADE") (orderId : String)
    (order : transaction.orderId = some orderId) (leg : TransferItem × Nat)
    (member : leg ∈ (optionItems transaction).zipIdx) (yields : YieldsFill leg.1) :
    ∃ fill ∈ fillsOf transaction, legFill orderId transaction.time leg = some fill := by
  have fits := returns trade (by simp [order]) leg.1 (List.fst_mem_of_mem_zipIdx member)
  obtain ⟨fill, made⟩ := (leg_fill_some_iff orderId transaction.time leg fits).mpr yields
  refine ⟨fill, ?_, made⟩
  rw [fills_of_returned transaction returns, mem_fills_of_legs]
  exact ⟨trade, orderId, order, leg, member, made⟩

/-- And there are no other fills. -/
theorem fill_of_yielding_leg (transaction : Transaction) (returns : ExtractionReturns transaction)
    (fill : FillWrite) (member : fill ∈ fillsOf transaction) :
    transaction.type = "TRADE" ∧ ∃ orderId, transaction.orderId = some orderId ∧
      ∃ leg ∈ (optionItems transaction).zipIdx,
        YieldsFill leg.1 ∧ legFill orderId transaction.time leg = some fill := by
  rw [fills_of_returned transaction returns, mem_fills_of_legs] at member
  obtain ⟨trade, orderId, order, leg, listed, made⟩ := member
  have fits := returns trade (by simp [order]) leg.1 (List.fst_mem_of_mem_zipIdx listed)
  exact ⟨trade, orderId, order, leg, listed,
    (leg_fill_some_iff orderId transaction.time leg fits).mp ⟨fill, made⟩, made⟩

/-- A window is extracted unless one of its elements overflows, element by
element. -/
theorem extract_all_spec (transactions : List Transaction) :
    ((∃ transaction ∈ transactions, ¬ExtractionReturns transaction) ∧
        extractAll transactions = .error .overflow) ∨
      (∀ transaction ∈ transactions, ExtractionReturns transaction) ∧ ∃ extracted,
        extractAll transactions = .ok extracted ∧ extracted.1 = transactions.flatMap fillsOf := by
  induction transactions with
  | nil => exact Or.inr ⟨by simp, ([], []), rfl, rfl⟩
  | cons transaction rest ih =>
      unfold extractAll
      obtain ⟨fails, raised⟩ | ⟨returns, first, ran, _⟩ := extract_fills_spec transaction
      · exact Or.inl ⟨⟨transaction, List.mem_cons_self, fails⟩, by rw [raised]; rfl⟩
      · obtain ⟨⟨other, member, fails⟩, raised⟩ | ⟨restReturn, later, laterRan, fills⟩ := ih
        · exact Or.inl ⟨⟨other, List.mem_cons_of_mem _ member, fails⟩, by rw [ran, raised]; rfl⟩
        · refine Or.inr ⟨List.forall_mem_cons.mpr ⟨returns, restReturn⟩,
            (first.1 ++ later.1, first.2 ++ later.2), by rw [ran, laterRan]; rfl, ?_⟩
          rw [List.flatMap_cons, fills_of_extracted transaction first ran, fills]

theorem extract_all_ok_iff (transactions : List Transaction) :
    (∃ extracted, extractAll transactions = .ok extracted) ↔
      ∀ transaction ∈ transactions, ExtractionReturns transaction := by
  obtain ⟨⟨transaction, member, fails⟩, raised⟩ | ⟨returns, extracted, ran, _⟩ :=
    extract_all_spec transactions
  · rw [raised]
    exact ⟨nofun, fun all => absurd (all transaction member) fails⟩
  · exact ⟨fun _ => returns, fun _ => ⟨extracted, ran⟩⟩

theorem extract_all_fills (transactions : List Transaction) (extracted : List FillWrite × List String)
    (ran : extractAll transactions = .ok extracted) :
    extracted.1 = transactions.flatMap fillsOf := by
  obtain ⟨_, raised⟩ | ⟨_, other, same, fills⟩ := extract_all_spec transactions
  · rw [ran] at raised
    cases raised
  · rw [ran] at same
    cases same
    exact fills

theorem extract_all_keys (transactions : List Transaction) (extracted : List FillWrite × List String)
    (ran : extractAll transactions = .ok extracted) :
    extracted.1.map FillWrite.key = transactions.flatMap elementKeys := by
  rw [extract_all_fills transactions extracted ran, List.map_flatMap]
  have returns := (extract_all_ok_iff transactions).mp ⟨extracted, ran⟩
  exact List.flatMap_congr fun transaction member =>
    fills_of_keys transaction (returns transaction member)

/-- Inside one element the leg index keeps the keys apart. -/
theorem element_keys_nodup (transaction : Transaction) : (elementKeys transaction).Nodup := by
  unfold elementKeys
  split_ifs
  · cases transaction.orderId with
    | none => exact List.nodup_nil
    | some orderId =>
        have indexes : ((optionItems transaction).zipIdx.map Prod.snd).Nodup := by
          rw [List.zipIdx_map_snd]
          exact List.nodup_range'
        apply List.Nodup.of_map fun key : FillKey => key.legIndex
        rw [List.map_map]
        have cast : ((fun key : FillKey => key.legIndex) ∘
            legKey orderId transaction.time) = Int.ofNat ∘ Prod.snd := rfl
        rw [cast, ← List.map_map]
        apply List.Nodup.map fun left right same => Int.ofNat.inj same
        exact indexes.sublist (List.filter_sublist.map _)
  · exact List.nodup_nil

/-! ## What fits the columns -/

structure LegFits (orderId : String) (time : Instant) (leg : TransferItem × Nat) : Prop where
  orderId : TextFits orderId
  symbol : TextFits (legSymbol leg.1)
  place : leg.2 ≤ 32767
  time : InstantFits time
  effect : ∀ positionEffect ∈ leg.1.positionEffect, TextFits positionEffect

instance (orderId : String) (time : Instant) (leg : TransferItem × Nat) :
    Decidable (LegFits orderId time leg) :=
  decidable_of_iff (TextFits orderId ∧ TextFits (legSymbol leg.1) ∧ leg.2 ≤ 32767 ∧
    InstantFits time ∧ ∀ positionEffect ∈ leg.1.positionEffect, TextFits positionEffect)
    ⟨fun fits => ⟨fits.1, fits.2.1, fits.2.2.1, fits.2.2.2.1, fits.2.2.2.2⟩,
      fun fits => ⟨fits.orderId, fits.symbol, fits.place, fits.time, fits.effect⟩⟩

/-- The columns take the fills of the element. -/
def FitsColumns (transaction : Transaction) : Prop :=
  transaction.type = "TRADE" → ∀ orderId ∈ transaction.orderId,
    ∀ leg ∈ (optionItems transaction).zipIdx, YieldsFill leg.1 → LegFits orderId transaction.time leg

instance (transaction : Transaction) : Decidable (FitsColumns transaction) :=
  inferInstanceAs (Decidable (_ → ∀ orderId ∈ transaction.orderId,
    ∀ leg ∈ (optionItems transaction).zipIdx, _ → _))

theorem direction_side (item : TransferItem) (side : String) (quantity : Decimal)
    (made : direction item.amount item.cost = .ok (some (side, quantity))) :
    side = "BUY" ∨ side = "SELL" := by
  have directed := direction_directed item
  rw [made] at directed
  cases directed with
  | asGiven value side known decides positive => exact known
  | turned value quantity side known decides negative made => exact known

theorem leg_fill_fits_iff (orderId : String) (time : Instant) (leg : TransferItem × Nat)
    (fill : FillWrite) (made : legFill orderId time leg = some fill) :
    fill.Fits ↔ LegFits orderId time leg := by
  obtain ⟨symbol, positionEffect, side, quantity, symbolEq, effectEq, signed, shape⟩ :=
    extract_leg_made "" orderId time leg.1 leg.2 fill (leg_fill_made orderId time leg fill made)
  have named : legSymbol leg.1 = withoutSpaces symbol := by simp [legSymbol, symbolEq]
  have sided : TextFits side := by
    cases direction_side leg.1 side quantity signed with
    | inl buy =>
        rw [buy]
        decide
    | inr sell =>
        rw [sell]
        decide
  rw [shape]
  constructor
  · rintro ⟨order, text, place, instant, effect, _⟩
    refine ⟨order, named ▸ text, ?_, instant, ?_⟩
    · have bounded := place.2
      dsimp only at bounded
      omega
    · intro other read
      rw [effectEq, Option.mem_some] at read
      exact read ▸ effect
  · rintro ⟨order, text, place, instant, effect⟩
    refine ⟨order, named ▸ text, ⟨?_, ?_⟩, instant, effect positionEffect effectEq, sided⟩
    · dsimp only
      omega
    · dsimp only
      omega

theorem fills_fit_iff (transaction : Transaction) (returns : ExtractionReturns transaction) :
    (∀ fill ∈ fillsOf transaction, fill.Fits) ↔ FitsColumns transaction := by
  constructor
  · intro fit trade orderId order leg member yields
    obtain ⟨fill, listed, made⟩ :=
      yielding_leg_fill transaction returns trade orderId order leg member yields
    exact (leg_fill_fits_iff orderId transaction.time leg fill made).mp (fit fill listed)
  · intro fit fill member
    obtain ⟨trade, orderId, order, leg, listed, yields, made⟩ :=
      fill_of_yielding_leg transaction returns fill member
    exact (leg_fill_fits_iff orderId transaction.time leg fill made).mpr
      (fit trade orderId order leg listed yields)

/-! ## An element of one leg -/

def executionOf (activityId : Int) (symbol : String) (amount : Int) : Transaction where
  activityId := .number activityId
  type := "TRADE"
  time := 1000
  orderId := some "7001"
  transferItems := [⟨some ⟨some symbol, some "OPTION"⟩, some ⟨amount, 0⟩, some ⟨1250, -2⟩, none,
    some "OPENING"⟩]

def provisionedUser : Database :=
  { Database.empty with userDataKeys := ⟨[⟨⟨1⟩, 1, [7], [3]⟩], by decide⟩ }

def plainDraw (index : Nat) : FillDraw := ⟨[UInt8.ofNat index], [UInt8.ofNat index]⟩

end Morai.Ingest.ExtractFills
