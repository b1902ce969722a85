import Morai.Ingest.FillCollisions
import Morai.Ledger.CashConservation

/-!
# From the vendor's signs to the ledger's cash

The sign of a vendor amount is taken off in `extract_fills`, kept as the text
of `side`, encrypted, read back and applied again under the convention of the
event type. These lemmas follow one leg through all of it, and the theorem
adds the legs up per position.
-/

namespace Morai.Ingest.VendorCash

open Morai.Crypto Morai.Db Morai.Python Morai.Ledger.Fills Morai.Ledger.Pairing
open Morai.Ledger.CashConservation Morai.Ingest.ExtractFills Morai.Ingest.FillCollisions

set_option autoImplicit false

/-- An option leg that says all a fill needs. -/
structure CompleteLeg (item : TransferItem) : Prop where
  symbol : item.instrument.bind Instrument.symbol ≠ none
  amount : ∃ amount, item.amount = some amount ∧ ¬amount.IsZero
  price : item.price ≠ none
  effect : item.positionEffect = some "OPENING" ∨ item.positionEffect = some "CLOSING"

instance (item : TransferItem) : Decidable (CompleteLeg item) :=
  decidable_of_iff (item.instrument.bind Instrument.symbol ≠ none ∧
    item.amount.any (fun amount => ¬amount.IsZero) = true ∧ item.price ≠ none ∧
    (item.positionEffect = some "OPENING" ∨ item.positionEffect = some "CLOSING"))
    ⟨fun found => ⟨found.1, by simpa [Option.any_eq_true] using found.2.1, found.2.2.1,
        found.2.2.2⟩,
      fun found => ⟨found.symbol, by simpa [Option.any_eq_true] using found.amount, found.price,
        found.effect⟩⟩

structure CompleteTrade (transaction : Transaction) : Prop where
  trade : transaction.type = "TRADE"
  ordered : transaction.orderId ≠ none
  legs : ∀ item ∈ optionItems transaction, CompleteLeg item

instance (transaction : Transaction) : Decidable (CompleteTrade transaction) :=
  decidable_of_iff (transaction.type = "TRADE" ∧ transaction.orderId ≠ none ∧
    ∀ item ∈ optionItems transaction, CompleteLeg item)
    ⟨fun found => ⟨found.1, found.2.1, found.2.2⟩,
      fun found => ⟨found.trade, found.ordered, found.legs⟩⟩

/-- The option legs of an element with the fill key of each. -/
def vendorLegs (transaction : Transaction) : List (FillKey × TransferItem) :=
  (optionItems transaction).zipIdx.map fun leg =>
    (legKey (transaction.orderId.getD "") transaction.time leg, leg.1)

/-- Price times the vendor's own signed amount. -/
def vendorCost (item : TransferItem) : ℚ :=
  (item.price.elim 0 Decimal.toRat) * (item.amount.elim 0 Decimal.toRat)

/-- Where a minus is taken of the amount, the context does not round it. -/
def ExactMinus (item : TransferItem) : Prop :=
  ∀ amount ∈ item.amount, ¬amount.IsPositive → ∃ quantity, amount.minus = some quantity ∧
    quantity.toRat = -amount.toRat

theorem exact_minus_of_context (item : TransferItem)
    (fits : ∀ amount ∈ item.amount, amount.InContext) : ExactMinus item :=
  fun amount read _ => ⟨amount.neg, amount.minus_in_context (fits amount read), amount.to_rat_neg⟩

/-- The quantity of a leg with the sign of its side is the vendor's amount. -/
theorem exact_direction (item : TransferItem) (amount : Decimal) (read : item.amount = some amount)
    (nonzero : ¬amount.IsZero) (unrounded : ExactMinus item) :
    ∃ side quantity, direction item.amount item.cost = .ok (some (side, quantity)) ∧
      (side = "BUY" ∧ quantity.toRat = amount.toRat ∨
        side = "SELL" ∧ quantity.toRat = -amount.toRat) := by
  rw [read, direction_of_amount amount item.cost nonzero]
  split_ifs with positive
  · exact ⟨"BUY", amount, rfl, Or.inl ⟨rfl, rfl⟩⟩
  · obtain ⟨quantity, made, value⟩ := unrounded amount read positive
    exact ⟨"SELL", quantity, by simp only [negated, made]; rfl, Or.inr ⟨rfl, value⟩⟩

/-- One leg, extracted: its record moves the cash the vendor's sign says. -/
theorem complete_leg_extracted (orderId : String) (time : Instant) (leg : TransferItem × Nat)
    (userId : Uuid) (keyVersion : Int) (complete : CompleteLeg leg.1) (unrounded : ExactMinus leg.1) :
    ∃ fill, legFill orderId time leg = some fill ∧
      fill.key = legKey orderId time leg ∧
      ¬IsGap (recordOf userId keyVersion fill) ∧
      classifyFill fill.positionEffect ≠ .unknown ∧
      cashFlow (recordOf userId keyVersion fill) = -vendorCost leg.1 := by
  rcases Option.ne_none_iff_exists'.mp complete.symbol with ⟨symbol, symbolEq⟩
  rcases Option.ne_none_iff_exists'.mp complete.price with ⟨price, priceEq⟩
  rcases complete.amount with ⟨amount, amountEq, nonzero⟩
  have effect : ∃ effect, leg.1.positionEffect = some effect ∧ classifyFill effect ≠ .unknown := by
    rcases complete.effect with opening | closing
    · exact ⟨_, opening, by decide⟩
    · exact ⟨_, closing, by decide⟩
  rcases effect with ⟨effect, effectEq, known⟩
  obtain ⟨side, quantity, signed, sided⟩ := exact_direction leg.1 amount amountEq nonzero unrounded
  have made : legFill orderId time leg =
      some ⟨orderId, withoutSpaces symbol, leg.2, time, effect, side, some quantity,
        leg.1.price⟩ := by
    simp only [legFill, extractLeg, symbolEq, effectEq, signed]
    rfl
  refine ⟨_, made, leg_fill_key orderId time leg _ made, ?_, known, ?_⟩
  · rcases sided with ⟨bought, _⟩ | ⟨sold, _⟩
    · simp [IsGap, recordOf, priceEq, bought]
    · simp [IsGap, recordOf, priceEq, sold]
  · rcases sided with ⟨bought, value⟩ | ⟨sold, value⟩
    · simp [cashFlow, recordOf, vendorCost, priceEq, amountEq, bought, value]
    · simp [cashFlow, recordOf, vendorCost, priceEq, amountEq, sold, value]

theorem complete_leg_fits (item : TransferItem) (complete : CompleteLeg item)
    (unrounded : ExactMinus item) : ¬Overflows item := by
  rintro ⟨_, value, decides, negative, overflow⟩
  rcases complete.amount with ⟨amount, read, nonzero⟩
  have same : amount = value := by
    simp only [decisive, read, Option.filter_some, nonzero, not_false_eq_true, decide_true, if_true,
      Option.some_or, Option.mem_some] at decides
    exact decides
  subst same
  obtain ⟨quantity, made, _⟩ := unrounded amount read negative
  rw [overflow] at made
  cases made

section Sums

variable (userId : Uuid) (keyVersion : Int) (wanted : FillKey → Bool)

/-- What the fills of the wanted keys move. -/
def wantedCash (fills : List FillWrite) : ℚ :=
  (fills.map fun fill =>
    if wanted fill.key then cashFlow (recordOf userId keyVersion fill) else 0).sum

def wantedCost (legs : List (FillKey × TransferItem)) : ℚ :=
  (legs.map fun leg => if wanted leg.1 then vendorCost leg.2 else 0).sum

theorem complete_legs_cash (orderId : String) (time : Instant)
    (legs : List (TransferItem × Nat))
    (complete : ∀ leg ∈ legs, CompleteLeg leg.1 ∧ ExactMinus leg.1) :
    wantedCash userId keyVersion wanted (legs.filterMap (legFill orderId time)) =
      -wantedCost wanted (legs.map fun leg => (legKey orderId time leg, leg.1)) := by
  induction legs with
  | nil => simp [wantedCash, wantedCost]
  | cons leg rest ih =>
      obtain ⟨here, unrounded⟩ := complete leg List.mem_cons_self
      rcases complete_leg_extracted orderId time leg userId keyVersion here unrounded with
        ⟨fill, made, key, _, _, cash⟩
      have later := ih fun other member => complete other (List.mem_cons_of_mem _ member)
      unfold wantedCash wantedCost at later ⊢
      simp only [List.filterMap_cons, made, List.map_cons, List.sum_cons, key, cash, later]
      split_ifs <;> ring

/-- A complete trade is extracted, and its fills are those of its legs, also
when it has none. -/
theorem complete_trade_fills (transaction : Transaction) (complete : CompleteTrade transaction)
    (unrounded : ∀ item ∈ optionItems transaction, ExactMinus item) :
    ExtractionReturns transaction ∧ fillsOf transaction =
      (optionItems transaction).zipIdx.filterMap
        (legFill (transaction.orderId.getD "") transaction.time) := by
  rcases Option.ne_none_iff_exists'.mp complete.ordered with ⟨orderId, order⟩
  have returns : ExtractionReturns transaction := by
    intro _ _ item member
    exact complete_leg_fits item (complete.legs item member) (unrounded item member)
  refine ⟨returns, ?_⟩
  rw [fills_of_returned transaction returns]
  simp only [fillsOfLegs, complete.trade, if_true, order, Option.getD_some]

theorem zip_idx_complete (transaction : Transaction) (complete : CompleteTrade transaction)
    (unrounded : ∀ item ∈ optionItems transaction, ExactMinus item) :
    ∀ leg ∈ (optionItems transaction).zipIdx, CompleteLeg leg.1 ∧ ExactMinus leg.1 := by
  intro leg member
  have listed := List.fst_mem_of_mem_zipIdx member
  exact ⟨complete.legs leg.1 listed, unrounded leg.1 listed⟩

theorem complete_trades_cash (transactions : List Transaction)
    (complete : ∀ transaction ∈ transactions, CompleteTrade transaction)
    (unrounded : ∀ transaction ∈ transactions, ∀ item ∈ optionItems transaction, ExactMinus item) :
    wantedCash userId keyVersion wanted (transactions.flatMap fillsOf) =
      -wantedCost wanted (transactions.flatMap vendorLegs) := by
  induction transactions with
  | nil => simp [wantedCash, wantedCost]
  | cons transaction rest ih =>
      have here := complete transaction List.mem_cons_self
      have exactHere := unrounded transaction List.mem_cons_self
      have first := complete_legs_cash userId keyVersion wanted (transaction.orderId.getD "")
        transaction.time _ (zip_idx_complete transaction here exactHere)
      have later := ih (fun other member => complete other (List.mem_cons_of_mem _ member))
        fun other member => unrounded other (List.mem_cons_of_mem _ member)
      rw [← (complete_trade_fills transaction here exactHere).2] at first
      unfold wantedCash wantedCost at first later ⊢
      simp only [List.flatMap_cons, List.map_append, List.sum_append, first, later, vendorLegs]
      ring

theorem complete_trades_sound (transactions : List Transaction)
    (complete : ∀ transaction ∈ transactions, CompleteTrade transaction)
    (unrounded : ∀ transaction ∈ transactions, ∀ item ∈ optionItems transaction, ExactMinus item) :
    ∀ fill ∈ transactions.flatMap fillsOf, ¬IsGap (recordOf userId keyVersion fill) ∧
      classifyFill fill.positionEffect ≠ .unknown := by
  intro fill member
  rcases List.mem_flatMap.mp member with ⟨transaction, listed, inside⟩
  have here := complete transaction listed
  have exactHere := unrounded transaction listed
  rw [(complete_trade_fills transaction here exactHere).2] at inside
  obtain ⟨leg, legMember, made⟩ := List.mem_filterMap.mp inside
  obtain ⟨legComplete, legExact⟩ := zip_idx_complete transaction here exactHere leg legMember
  rcases complete_leg_extracted (transaction.orderId.getD "") transaction.time leg userId keyVersion
    legComplete legExact with ⟨other, madeOther, _, gap, known, _⟩
  rw [made] at madeOther
  cases madeOther
  exact ⟨gap, known⟩

end Sums

variable (keys : KeyService) (sha256 : String → String)

/-- A stored batch reads back whole. -/
theorem stored_batch_reads_back (draws : Nat → FillDraw) (order : ScanOrder Fill)
    (userId : Uuid) (db : Database) (dek : Bytes) (keyVersion : Int) (fills : List FillWrite)
    (current : currentDek keys db userId = .ok (dek, keyVersion))
    (empty : fillRowsOf db userId = []) (distinct : (fills.map FillWrite.key).Nodup) :
    ∃ landed after records, insertFills keys draws userId fills db = .ok (landed, after) ∧
      readFills keys order userId after = .ok records ∧
      records.Perm (fills.map (recordOf userId keyVersion)) := by
  rcases insert_fills_spec keys draws userId fills db dek keyVersion current with
    ⟨after, inserted, frame, _, own⟩
  have sameRead : readFill keys after userId = readFill keys db userId := by
    rw [frame]
    rfl
  have landed := landed_records_all keys userId dek keyVersion draws fills db current distinct
    fun fill _ => no_fills_has db userId empty fill.key
  have reads : ∀ row ∈ order.arrange (fillRowsOf after userId),
      ∃ record, readFill keys after userId row = .ok record := by
    intro row member
    have stored := (order.perm _).mem_iff.mp member
    rw [own, empty, List.nil_append] at stored
    rcases landed_row_reads keys userId dek keyVersion draws fills db current row stored with
      ⟨fill, _, read⟩
    rw [sameRead]
    exact ⟨_, read⟩
  refine ⟨_, after, _, inserted, map_m_readable _ _ reads, ?_⟩
  rw [sameRead, ← landed.2, landedRecords]
  apply readable_perm
  apply (order.perm _).trans
  rw [own, empty, List.nil_append]

/-- End to end: per position, the events' cash is minus the vendor's price
times signed amount, summed over the legs assigned to it. -/
theorem vendor_cash_reaches_events (draws : Nat → FillDraw) (order : ScanOrder Fill)
    (userId : Uuid) (db : Database) (dek : Bytes) (keyVersion : Int)
    (current : currentDek keys db userId = .ok (dek, keyVersion))
    (empty : fillRowsOf db userId = []) (transactions : List Transaction)
    (complete : ∀ transaction ∈ transactions, CompleteTrade transaction)
    (unrounded : ∀ transaction ∈ transactions, ∀ item ∈ optionItems transaction, ExactMinus item)
    (distinct : ((transactions.flatMap fillsOf).map FillWrite.key).Nodup)
    (resolutions : Resolutions) :
    ∃ extracted landed after records, extractAll transactions = .ok extracted ∧
      insertFills keys draws userId extracted.1 db = .ok (landed, after) ∧
      readFills keys order userId after = .ok records ∧
      ∀ position : Uuid,
        (((deriveEvents sha256 records resolutions).events.filter fun event =>
            event.positionId = position).map fun event =>
              event.closeCreditUsd.elim 0 Decimal.toRat).sum -
          (((deriveEvents sha256 records resolutions).events.filter fun event =>
            event.positionId = position).map fun event =>
              event.openDebitUsd.elim 0 Decimal.toRat).sum =
        -(((transactions.flatMap vendorLegs).filter fun leg =>
            resolutions.get leg.1 = some position).map fun leg => vendorCost leg.2).sum := by
  have returns : ∀ transaction ∈ transactions, ExtractionReturns transaction :=
    fun transaction listed => (complete_trade_fills transaction (complete transaction listed)
      (unrounded transaction listed)).1
  obtain ⟨extracted, ran⟩ := (extract_all_ok_iff transactions).mpr returns
  have fills := extract_all_fills transactions extracted ran
  rcases stored_batch_reads_back keys draws order userId db dek keyVersion
    (transactions.flatMap fillsOf) current empty distinct with
    ⟨landed, after, records, inserted, read, perm⟩
  refine ⟨extracted, landed, after, records, ran, fills ▸ inserted, read, ?_⟩
  intro position
  have sound := complete_trades_sound userId keyVersion transactions complete unrounded
  have noGap : ∀ record ∈ records, CountsTowards resolutions position record →
      ¬IsGap record := by
    intro record member _
    rcases List.mem_map.mp (perm.mem_iff.mp member) with ⟨fill, inside, shape⟩
    exact shape ▸ (sound fill inside).1
  have law := position_cash sha256 resolutions records position noGap
  have split : ∀ events : List DerivedEvent, cashOf events =
      (events.map fun event => event.closeCreditUsd.elim 0 Decimal.toRat).sum -
        (events.map fun event => event.openDebitUsd.elim 0 Decimal.toRat).sum := by
    intro events
    induction events with
    | nil => simp [cashOf]
    | cons event rest ih =>
        simp only [cashOf, List.map_cons, List.sum_cons, DerivedEvent.cash] at ih ⊢
        rw [ih]
        ring
  rw [← split, law]
  calc ((records.filter fun fill => CountsTowards resolutions position fill).map cashFlow).sum
      = ((((transactions.flatMap fillsOf).map (recordOf userId keyVersion)).filter fun fill =>
          CountsTowards resolutions position fill).map cashFlow).sum :=
        ((perm.filter _).map _).sum_eq
    _ = wantedCash userId keyVersion (fun key => resolutions.get key = some position)
          (transactions.flatMap fillsOf) := by
        rw [sum_filter, List.map_map, wantedCash]
        apply congrArg
        apply List.map_congr_left
        intro fill member
        have counts : CountsTowards resolutions position (recordOf userId keyVersion fill) ↔
            resolutions.get fill.key = some position :=
          and_iff_left (sound fill member).2
        simp only [Function.comp_apply, decide_eq_true_eq, counts]
    _ = -wantedCost (fun key => resolutions.get key = some position)
          (transactions.flatMap vendorLegs) :=
        complete_trades_cash userId keyVersion _ transactions complete unrounded
    _ = _ := by
        rw [sum_filter, wantedCost]

def calendarLeg (symbol effect : String) (amount price : Int) : TransferItem :=
  ⟨some ⟨some symbol, some "OPTION"⟩, some ⟨amount, 0⟩, some ⟨price, -2⟩, none, some effect⟩

/-- Sold and bought to open in one order, bought and sold to close in
another. -/
def calendarTrades : List Transaction :=
  [⟨.number 1, "TRADE", 1000, some "7001",
      [calendarLeg "SPXW  260320C05000000" "OPENING" (-1) 5230,
        calendarLeg "SPXW  260420C05000000" "OPENING" 1 6250]⟩,
    ⟨.number 2, "TRADE", 9000, some "7002",
      [calendarLeg "SPXW  260320C05000000" "CLOSING" 1 1010,
        calendarLeg "SPXW  260420C05000000" "CLOSING" (-1) 4525]⟩]

/-- SHA-256 on the two digests taken. -/
def calendarSha256 (text : String) : String :=
  if text = "7001:SPXW260320C05000000:0:1000:7001:SPXW260420C05000000:1:1000" then
    "91893c1da690a549dbf8f6518dcb6a9ee05409b167d0e45390e2d5cb3dd73c9b"
  else if text = "7002:SPXW260320C05000000:0:9000:7002:SPXW260420C05000000:1:9000" then
    "5c1e49b9ebe2495819b1c7905c039294256ffb247fe5bae431d9c0379f8e28a8"
  else text

theorem vendor_cash_reaches_events_calendar :
    ∃ records,
      (((deriveEvents calendarSha256 records fun _ => some (some ⟨11⟩)).events.filter fun event =>
          event.positionId = ⟨11⟩).map fun event =>
            event.closeCreditUsd.elim 0 Decimal.toRat).sum -
        (((deriveEvents calendarSha256 records fun _ => some (some ⟨11⟩)).events.filter fun event =>
          event.positionId = ⟨11⟩).map fun event =>
            event.openDebitUsd.elim 0 Decimal.toRat).sum = 24.95 := by
  have inContext : ∀ transaction ∈ calendarTrades, ∀ item ∈ optionItems transaction,
      ∀ amount ∈ item.amount, amount.InContext := by decide +kernel
  have unrounded := fun transaction listed item inside =>
    exact_minus_of_context item (inContext transaction listed item inside)
  rcases vendor_cash_reaches_events plainKeys calendarSha256 plainDraw (.asStored _) ⟨1⟩ provisionedUser
      [7] 1 (by decide) (by decide) calendarTrades (by decide +kernel) unrounded (by decide +kernel)
      (fun _ => some (some ⟨11⟩)) with ⟨_, _, _, records, _, _, _, law⟩
  refine ⟨records, ?_⟩
  rw [law]
  simp [calendarTrades, vendorLegs, optionItems, isOption, calendarLeg, vendorCost, Resolutions.get,
    Decimal.toRat]
  norm_num

end Morai.Ingest.VendorCash
