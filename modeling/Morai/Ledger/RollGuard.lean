import Morai.Ledger.OccSymbol

/-!
# The roll guard

`detect_roll` compares two parsed contracts part by part. Among well-formed
symbols that is a comparison of the texts. The parser is asked only once the
orders and the roles fit, and what it rejects then is raised, not answered.
-/

namespace Morai.Ledger.RollGuard

open Morai.Db Morai.Python Morai.Ledger.Fills Morai.Ledger.Pairing Morai.Ledger.OccSymbol

set_option autoImplicit false

/-- Decimals are compared by their value. -/
def detectRoll (closing opening : FillRecord) : Except Raised Bool :=
  if closing.orderId ≠ opening.orderId then .ok false
  else if classifyFill closing.positionEffect ≠ .closeRole then .ok false
  else if classifyFill opening.positionEffect ≠ .openRole then .ok false
  else do
    let closingContract ← parseOccSymbol closing.occSymbol
    let openingContract ← parseOccSymbol opening.occSymbol
    if closingContract.root ≠ openingContract.root then .ok false
    else if closingContract.optionType ≠ openingContract.optionType then .ok false
    else if closingContract.strike.toRat ≠ openingContract.strike.toRat then .ok false
    else .ok (closingContract.expiry ≠ openingContract.expiry)

/-! ## The texts -/

/-- One order closes and opens. -/
structure ClosesAndOpens (closing opening : FillRecord) : Prop where
  order : closing.orderId = opening.orderId
  closes : closing.positionEffect = "CLOSING"
  opens : opening.positionEffect = "OPENING"

/-- The two differ in their date, and nowhere else. -/
structure OtherDate (left right : Symbol Char.isDigit) : Prop where
  root : left.root = right.root
  optionType : left.optionType = right.optionType
  strike : left.strike = right.strike
  date : left.date ≠ right.date

/-- Two well-formed symbols that differ in their date only. -/
def RollSymbols (closing opening : String) : Prop :=
  ∃ left right : Symbol Char.isDigit, closing.toList = left.chars ∧ left.ValidDate ∧
    opening.toList = right.chars ∧ right.ValidDate ∧ OtherDate left right

/-- What the comparisons of the guard ask of two contracts. -/
def SameButExpiry (closing opening : OccContract) : Prop :=
  closing.root = opening.root ∧ closing.optionType = opening.optionType ∧
    closing.strike.toRat = opening.strike.toRat ∧ closing.expiry ≠ opening.expiry

instance decidableSameButExpiry (closing opening : OccContract) :
    Decidable (SameButExpiry closing opening) :=
  inferInstanceAs (Decidable (_ ∧ _ ∧ _ ∧ _))

theorem symbol_unique (left right : Symbol Char.isDigit) (same : left.chars = right.chars) :
    left = right := by
  have leftMatch := match_symbol Char.isDigit (by decide) left [] (by decide)
  have rightMatch := match_symbol Char.isDigit (by decide) right [] (by decide)
  rw [same, rightMatch, Option.some.injEq] at leftMatch
  cases left
  cases right
  simp only [Symbol.parts, List.cons.injEq, and_true] at leftMatch
  obtain ⟨rfl, rfl, rfl, rfl, rfl, rfl⟩ := leftMatch
  rfl

section Contracts

variable (left right : Symbol Char.isDigit)

/-- `date(2000 + int(yy), int(mm), int(dd))`. -/
def expiryOf (symbol : Symbol Char.isDigit) : Option Date :=
  Date.of? (2000 + readDecimals symbol.yy) (readDecimals symbol.mm) (readDecimals symbol.dd)

theorem expiry_eq_iff (leftExpiry rightExpiry : Date) (leftDated : expiryOf left = some leftExpiry)
    (rightDated : expiryOf right = some rightExpiry) :
    leftExpiry = rightExpiry ↔ left.date = right.date := by
  have leftText := expiry_rendered left leftExpiry leftDated
  have rightText := expiry_rendered right rightExpiry rightDated
  constructor
  · intro same
    rw [← leftText, ← rightText, same]
  · intro same
    unfold Symbol.date at same
    have years := List.append_inj same (left.year.size.trans right.year.size.symm)
    have months := List.append_inj years.2 (left.month.size.trans right.month.size.symm)
    unfold expiryOf at leftDated rightDated
    rw [years.1, months.1, months.2, rightDated, Option.some.injEq] at leftDated
    exact leftDated.symm

theorem strike_eq_iff :
    (Decimal.ofThousandths (readDecimals left.strike)).toRat =
      (Decimal.ofThousandths (readDecimals right.strike)).toRat ↔ left.strike = right.strike := by
  constructor
  · intro same
    have number := Decimal.thousandths_injective _ _ same
    rw [← digits_rendered 8 left.strike (by decide) left.thousandths, number,
      digits_rendered 8 right.strike (by decide) right.thousandths]
  · intro same
    rw [same]

/-- The contracts of two symbols differ as their texts do. -/
theorem other_date_iff (leftExpiry rightExpiry : Date)
    (leftDated : expiryOf left = some leftExpiry) (rightDated : expiryOf right = some rightExpiry) :
    OtherDate left right ↔
      SameButExpiry (left.contract leftExpiry) (right.contract rightExpiry) := by
  have expiries := expiry_eq_iff left right leftExpiry rightExpiry leftDated rightDated
  have strikes := strike_eq_iff left right
  unfold SameButExpiry Symbol.contract
  simp only [String.ofList_inj, List.cons.injEq, and_true, strikes, ne_eq, expiries]
  constructor
  · intro other
    exact ⟨other.root, other.optionType, other.strike, other.date⟩
  · intro parts
    exact ⟨parts.1, parts.2.1, parts.2.2.1, parts.2.2.2⟩

end Contracts

/-- A parsed symbol, by its plain form. -/
theorem parsed_plain (occSymbol : String) (contract : OccContract)
    (parsed : parseOccSymbol occSymbol = .ok contract) :
    ∃ (symbol : Symbol Char.isDigit) (expiry : Date), (plain occSymbol).toList = symbol.chars ∧
      symbol.ValidDate ∧ expiryOf symbol = some expiry ∧ contract = symbol.contract expiry := by
  obtain ⟨symbol, tail, expiry, text, ends, dated, shape⟩ :=
    (parse_occ_symbol_ok_iff occSymbol contract).mp parsed
  have strictDated : expiryOf symbol.plain = some expiry := by
    unfold expiryOf Symbol.plain
    simp only [read_decimals_ascii]
    exact dated
  refine ⟨symbol.plain, expiry, plain_text occSymbol symbol tail text ends, ?_, strictDated,
    shape.trans (contract_plain symbol expiry).symm⟩
  unfold expiryOf Date.of? at strictDated
  split_ifs at strictDated with isDate
  exact isDate

theorem roll_symbols_parsed (closing opening : String) (closingContract openingContract : OccContract)
    (closingParsed : parseOccSymbol closing = .ok closingContract)
    (openingParsed : parseOccSymbol opening = .ok openingContract) :
    RollSymbols (plain closing) (plain opening) ↔
      SameButExpiry closingContract openingContract := by
  obtain ⟨left, leftExpiry, leftText, leftDate, leftDated, leftShape⟩ :=
    parsed_plain closing closingContract closingParsed
  obtain ⟨right, rightExpiry, rightText, rightDate, rightDated, rightShape⟩ :=
    parsed_plain opening openingContract openingParsed
  rw [leftShape, rightShape, ← other_date_iff left right leftExpiry rightExpiry leftDated rightDated]
  constructor
  · intro roll
    obtain ⟨first, second, firstText, _, secondText, _, other⟩ := roll
    have firstSame := symbol_unique first left (firstText.symm.trans leftText)
    have secondSame := symbol_unique second right (secondText.symm.trans rightText)
    rw [← firstSame, ← secondSame]
    exact other
  · intro other
    exact ⟨left, right, leftText, leftDate, rightText, rightDate, other⟩

/-! ## What the guard answers -/

section Guard

variable (closing opening : FillRecord)

theorem classify_closing (positionEffect : String) :
    classifyFill positionEffect = .closeRole ↔ positionEffect = "CLOSING" := by
  unfold classifyFill
  split_ifs with opens closes
  · simp [opens]
  · simp [closes]
  · simp [closes]

theorem classify_opening (positionEffect : String) :
    classifyFill positionEffect = .openRole ↔ positionEffect = "OPENING" := by
  unfold classifyFill
  split_ifs with opens closes <;> simp [opens]

theorem detect_roll_apart (apart : ¬ClosesAndOpens closing opening) :
    detectRoll closing opening = .ok false := by
  unfold detectRoll
  split_ifs with order closes opens
  · rfl
  · rfl
  · rfl
  · simp only [ne_eq, not_not, classify_closing, classify_opening] at order closes opens
    exact absurd ⟨order, closes, opens⟩ apart

theorem detect_roll_together (together : ClosesAndOpens closing opening) :
    detectRoll closing opening =
      (parseOccSymbol closing.occSymbol).bind fun closingContract =>
        (parseOccSymbol opening.occSymbol).bind fun openingContract =>
          .ok (decide (SameButExpiry closingContract openingContract)) := by
  have closes := (classify_closing closing.positionEffect).mpr together.closes
  have opens := (classify_opening opening.positionEffect).mpr together.opens
  unfold detectRoll
  rw [if_neg (not_not.mpr together.order), if_neg (not_not.mpr closes), if_neg (not_not.mpr opens)]
  apply congrArg
  funext closingContract
  apply congrArg
  funext openingContract
  unfold SameButExpiry
  split_ifs with root optionType strike
  · simp [root]
  · simp [optionType]
  · simp [strike]
  · simp only [ne_eq, not_not] at root optionType strike
    simp only [root, optionType, strike, true_and]

/-- Two accepted symbols are answered by their plain forms. -/
theorem detect_roll_accepted (together : ClosesAndOpens closing opening)
    (closingAccepted : WellFormed (plain closing.occSymbol))
    (openingAccepted : WellFormed (plain opening.occSymbol)) :
    ∃ roll, detectRoll closing opening = .ok roll ∧
      (roll = true ↔ RollSymbols (plain closing.occSymbol) (plain opening.occSymbol)) := by
  obtain ⟨closingContract, closingParsed⟩ := (accepted_iff closing.occSymbol).mpr closingAccepted
  obtain ⟨openingContract, openingParsed⟩ := (accepted_iff opening.occSymbol).mpr openingAccepted
  refine ⟨decide (SameButExpiry closingContract openingContract), ?_, ?_⟩
  · rw [detect_roll_together closing opening together, closingParsed, openingParsed]
    rfl
  · rw [decide_eq_true_iff, roll_symbols_parsed _ _ _ _ closingParsed openingParsed]

/-- Otherwise the parser raises, and so does the guard. -/
theorem detect_roll_rejected (together : ClosesAndOpens closing opening)
    (rejected : ¬(WellFormed (plain closing.occSymbol) ∧ WellFormed (plain opening.occSymbol)))
    (roll : Bool) : detectRoll closing opening ≠ .ok roll := by
  intro answered
  rw [detect_roll_together closing opening together] at answered
  obtain ⟨closingContract, closingParsed, later⟩ := bind_ok _ _ _ answered
  obtain ⟨openingContract, openingParsed, _⟩ := bind_ok _ _ _ later
  exact rejected ⟨(accepted_iff _).mp ⟨closingContract, closingParsed⟩,
    (accepted_iff _).mp ⟨openingContract, openingParsed⟩⟩

theorem roll_symbols_well_formed (first second : String) (roll : RollSymbols first second) :
    WellFormed first ∧ WellFormed second := by
  obtain ⟨left, right, leftText, leftDate, rightText, rightDate, _⟩ := roll
  exact ⟨⟨left, leftText, leftDate⟩, ⟨right, rightText, rightDate⟩⟩

/-- An answer for the pair, the one its texts call for. -/
def TotalGuard : Prop :=
  ∃ roll, detectRoll closing opening = .ok roll ∧
    (roll = true ↔ ClosesAndOpens closing opening ∧
      RollSymbols closing.occSymbol opening.occSymbol)

/-- **The guard answers as the texts call for exactly where, once the orders and
roles fit, both symbols are well formed, or both are in their plain form and
these do not differ in their date only.** -/
theorem detect_roll_total_guard_iff :
    TotalGuard closing opening ↔
      (ClosesAndOpens closing opening →
        (WellFormed closing.occSymbol ∧ WellFormed opening.occSymbol) ∨
          (WellFormed (plain closing.occSymbol) ∧ WellFormed (plain opening.occSymbol) ∧
            ¬RollSymbols (plain closing.occSymbol) (plain opening.occSymbol))) := by
  unfold TotalGuard
  by_cases together : ClosesAndOpens closing opening
  · by_cases accepted : WellFormed (plain closing.occSymbol) ∧ WellFormed (plain opening.occSymbol)
    · obtain ⟨roll, answered, rolls⟩ :=
        detect_roll_accepted closing opening together accepted.1 accepted.2
      by_cases formed : WellFormed closing.occSymbol ∧ WellFormed opening.occSymbol
      · rw [well_formed_plain _ formed.1, well_formed_plain _ formed.2] at rolls
        constructor
        · intro _ _
          exact Or.inl formed
        · intro _
          exact ⟨roll, answered, rolls.trans (and_iff_right together).symm⟩
      · have none : ¬RollSymbols closing.occSymbol opening.occSymbol :=
          fun roll => formed (roll_symbols_well_formed _ _ roll)
        constructor
        · intro total _
          obtain ⟨other, otherAnswered, texts⟩ := total
          rw [answered, Except.ok.injEq] at otherAnswered
          rw [← otherAnswered, rolls] at texts
          exact Or.inr ⟨accepted.1, accepted.2, fun plainRoll => none (texts.mp plainRoll).2⟩
        · intro fits
          have plainNone := ((fits together).resolve_left formed).2.2
          refine ⟨roll, answered, ?_⟩
          rw [rolls]
          exact iff_of_false plainNone fun both => none both.2
    · have rejected := detect_roll_rejected closing opening together accepted
      constructor
      · intro total
        obtain ⟨roll, answered, _⟩ := total
        exact absurd answered (rejected roll)
      · intro fits
        cases fits together with
        | inl formed =>
            rw [well_formed_plain _ formed.1, well_formed_plain _ formed.2] at accepted
            exact absurd formed accepted
        | inr others => exact absurd ⟨others.1, others.2.1⟩ accepted
  · constructor
    · intro _ fits
      exact absurd fits together
    · intro _
      refine ⟨false, detect_roll_apart closing opening together, ?_⟩
      simp only [Bool.false_eq_true, together, false_and]

end Guard

/-- A fill of one order with this symbol and position effect. -/
def rollFill (occSymbol positionEffect : String) : FillRecord :=
  ⟨⟨2⟩, "7001", occSymbol, 0, 1000, positionEffect, "BUY", some ⟨1, 0⟩, none, 1⟩

/-- A symbol of another root is raised, not answered. -/
theorem other_root_raises :
    ¬TotalGuard (rollFill "SPY260320C00500000" "CLOSING")
      (rollFill "SPY260417C00500000" "OPENING") := by
  intro total
  obtain ⟨roll, answered, _⟩ := total
  have raises : (detectRoll (rollFill "SPY260320C00500000" "CLOSING")
      (rollFill "SPY260417C00500000" "OPENING")).toOption = none := by decide +kernel
  rw [answered] at raises
  cases raises

end Morai.Ledger.RollGuard
