import Morai.Foundation.GroupPattern
import Morai.Ledger.Pairing
import Morai.Python.Digits

/-!
# OCC symbols

`parse_occ_symbol` matches a symbol against a pattern of six groups and reads
them. The pattern lets more through than the rendering can write: digits of
every script, and one newline at the end.
-/

namespace Morai.Ledger.OccSymbol

open Morai.Db Morai.Python Morai.Foundation.GroupPattern Morai.Ledger.Fills Morai.Ledger.Pairing

set_option autoImplicit false

/-- The groups of `_OCC_SYMBOL_RE`, over a class of digits. -/
def occSymbolGroups (digit : Char → Bool) : List (PatternGroup Char) :=
  [.oneOf ["SPXW".toList, "SPX".toList], .exactly 2 digit, .exactly 2 digit, .exactly 2 digit,
    .exactly 1 Char.isUpper, .exactly 8 digit]

/-- `_OCC_SYMBOL_RE`, with `\d` for the digits. -/
def occSymbolRe : List (PatternGroup Char) := occSymbolGroups isDecimal

/-- `$`: the end, or a newline before it. -/
def atEnd (rest : List Char) : Bool := rest = [] ∨ rest = ['\n']

structure OccContract where
  root : String
  expiry : Date
  optionType : String
  strike : Decimal
  deriving DecidableEq

def malformedOccSymbol (occSymbol : String) : Raised :=
  .valueError ("malformed OCC symbol: " ++ reprText occSymbol)

def parseOccSymbol (occSymbol : String) : Except Raised OccContract :=
  match matchGroups atEnd occSymbolRe occSymbol.toList with
  | some [root, yy, mm, dd, optionType, strike] =>
      match Date.of? (2000 + readDecimals yy) (readDecimals mm) (readDecimals dd) with
      | some expiry =>
          .ok { root := String.ofList root
                expiry := expiry
                optionType := String.ofList optionType
                strike := .ofThousandths (readDecimals strike) }
      | none => .error (malformedOccSymbol occSymbol)
  | _ => .error (malformedOccSymbol occSymbol)

/-- The rendering: root, `YYMMDD`, letter, and the strike in thousandths. -/
def renderOccSymbol (contract : OccContract) : String :=
  String.ofList (contract.root.toList ++ (contract.expiry.yymmdd ++ (contract.optionType.toList ++
    zeroPadded 8 (contract.strike.mul ⟨1000, 0⟩).truncated.toNat)))

/-! ## Symbols over a class of digits -/

structure Digits (digit : Char → Bool) (count : Nat) (part : List Char) : Prop where
  size : part.length = count
  all : ∀ char ∈ part, digit char = true

/-- The parts of a symbol whose digits are of one class. -/
structure Symbol (digit : Char → Bool) where
  root : List Char
  yy : List Char
  mm : List Char
  dd : List Char
  optionType : Char
  strike : List Char
  known : root = "SPXW".toList ∨ root = "SPX".toList
  year : Digits digit 2 yy
  month : Digits digit 2 mm
  day : Digits digit 2 dd
  letter : optionType.isUpper = true
  thousandths : Digits digit 8 strike

namespace Symbol

variable {digit : Char → Bool}

def parts (symbol : Symbol digit) : List (List Char) :=
  [symbol.root, symbol.yy, symbol.mm, symbol.dd, [symbol.optionType], symbol.strike]

def chars (symbol : Symbol digit) : List Char := symbol.parts.flatten

/-- The six date characters. -/
def date (symbol : Symbol digit) : List Char := symbol.yy ++ (symbol.mm ++ symbol.dd)

/-- The date is one of the years 2000 to 2099. -/
def ValidDate (symbol : Symbol digit) : Prop :=
  IsDate (2000 + readDecimals symbol.yy) (readDecimals symbol.mm) (readDecimals symbol.dd)

def contract (symbol : Symbol digit) (expiry : Date) : OccContract where
  root := String.ofList symbol.root
  expiry := expiry
  optionType := String.ofList [symbol.optionType]
  strike := .ofThousandths (readDecimals symbol.strike)

end Symbol

/-- Root `SPX` or `SPXW`, six ASCII digits that are a date, a letter, eight
ASCII digits, and nothing else. -/
def WellFormed (occSymbol : String) : Prop :=
  ∃ symbol : Symbol Char.isDigit, occSymbol.toList = symbol.chars ∧ symbol.ValidDate

/-! ## What the pattern matches -/

section Matching

variable (digit : Char → Bool)

theorem fits_symbol (parts : List (List Char))
    (fits : List.Forall₂ PatternGroup.Fits (occSymbolGroups digit) parts) :
    ∃ symbol : Symbol digit, parts = symbol.parts := by
  unfold occSymbolGroups at fits
  obtain _ | ⟨root, _ | ⟨yy, _ | ⟨mm, _ | ⟨dd, _ | ⟨letter, _ | ⟨strike, _ | _⟩⟩⟩⟩⟩⟩ := fits
  obtain ⟨single, upper⟩ := letter
  obtain ⟨optionType, shape⟩ := List.length_eq_one_iff.mp single
  rw [shape] at upper ⊢
  have known := List.mem_cons.mp root
  rw [List.mem_singleton] at known
  exact ⟨⟨_, _, _, _, optionType, _, known, ⟨yy.1, yy.2⟩, ⟨mm.1, mm.2⟩, ⟨dd.1, dd.2⟩,
    upper optionType List.mem_cons_self, ⟨strike.1, strike.2⟩⟩, rfl⟩

/-- Where `W` is no digit, a symbol is cut in one way. -/
theorem match_symbol (letterW : digit 'W' = false) (symbol : Symbol digit) (tail : List Char)
    (ends : atEnd tail = true) :
    matchGroups atEnd (occSymbolGroups digit) (symbol.chars ++ tail) = some symbol.parts := by
  have strike := match_groups_first atEnd (.exactly 8 digit) [] symbol.strike tail [] []
    (heads_exactly 8 digit symbol.strike tail
      ⟨symbol.thousandths.size, symbol.thousandths.all⟩) (by simp [matchGroups, ends])
  have letter := match_groups_first atEnd (.exactly 1 Char.isUpper) _ [symbol.optionType] _ [] _
    (heads_exactly 1 Char.isUpper [symbol.optionType] _
      ⟨rfl, List.forall_mem_singleton.mpr symbol.letter⟩) strike
  have day := match_groups_first atEnd (.exactly 2 digit) _ symbol.dd _ [] _
    (heads_exactly 2 digit symbol.dd _ ⟨symbol.day.size, symbol.day.all⟩) letter
  have month := match_groups_first atEnd (.exactly 2 digit) _ symbol.mm _ [] _
    (heads_exactly 2 digit symbol.mm _ ⟨symbol.month.size, symbol.month.all⟩) day
  have year := match_groups_first atEnd (.exactly 2 digit) _ symbol.yy _ [] _
    (heads_exactly 2 digit symbol.yy _ ⟨symbol.year.size, symbol.year.all⟩) month
  have cut : symbol.chars ++ tail = symbol.root ++ (symbol.yy ++ (symbol.mm ++ (symbol.dd ++
      ([symbol.optionType] ++ (symbol.strike ++ tail))))) := by
    simp [Symbol.chars, Symbol.parts]
  rw [cut]
  cases symbol.known with
  | inl longer =>
      apply match_groups_first atEnd _ _ symbol.root _ ["SPX".toList] _ _ year
      rw [longer]
      rfl
  | inr shorter =>
      apply match_groups_first atEnd _ _ symbol.root _ [] _ _ year
      obtain ⟨first, second, pair⟩ := List.length_eq_two.mp symbol.year.size
      have apart : 'W' ≠ first := by
        intro same
        have member := symbol.year.all first (by simp [pair])
        rw [← same, letterW] at member
        cases member
      rw [shorter, pair]
      simp [PatternGroup.heads, apart]

end Matching

/-! ## What is parsed -/

theorem is_decimal_w : isDecimal 'W' = false := by decide

theorem parse_occ_symbol_ok_iff (occSymbol : String) (contract : OccContract) :
    parseOccSymbol occSymbol = .ok contract ↔
      ∃ (symbol : Symbol isDecimal) (tail : List Char) (expiry : Date),
        occSymbol.toList = symbol.chars ++ tail ∧ atEnd tail = true ∧
          Date.of? (2000 + readDecimals symbol.yy) (readDecimals symbol.mm)
            (readDecimals symbol.dd) = some expiry ∧ contract = symbol.contract expiry := by
  constructor
  · intro parsed
    unfold parseOccSymbol at parsed
    cases matched : matchGroups atEnd occSymbolRe occSymbol.toList with
    | none => simp [matched] at parsed
    | some parts =>
        obtain ⟨fits, tail, text, ends⟩ := match_groups_sound atEnd _ _ parts matched
        obtain ⟨symbol, shape⟩ := fits_symbol isDecimal parts fits
        rw [matched, shape] at parsed
        simp only [Symbol.parts] at parsed
        rw [shape] at text
        cases dated : Date.of? (2000 + readDecimals symbol.yy) (readDecimals symbol.mm)
            (readDecimals symbol.dd) with
        | none => simp [dated] at parsed
        | some expiry =>
            simp only [dated, Except.ok.injEq] at parsed
            exact ⟨symbol, tail, expiry, text, ends, dated, parsed.symm⟩
  · intro found
    obtain ⟨symbol, tail, expiry, text, ends, dated, shape⟩ := found
    have matched := match_symbol isDecimal is_decimal_w symbol tail ends
    unfold parseOccSymbol occSymbolRe
    rw [text, matched, shape]
    simp only [Symbol.parts, dated]
    rfl

theorem parse_occ_symbol_error (occSymbol : String) (raised : Raised)
    (failed : parseOccSymbol occSymbol = .error raised) : raised = malformedOccSymbol occSymbol := by
  unfold parseOccSymbol at failed
  split at failed
  · split at failed
    · cases failed
    · cases failed
      rfl
  · cases failed
    rfl

/-! ## Plain symbols -/

def dropNewline (text : List Char) : List Char :=
  if text.getLast? = some '\n' then text.dropLast else text

/-- The symbol without a newline at its end and with its digits in ASCII. -/
def plain (occSymbol : String) : String :=
  String.ofList ((dropNewline occSymbol.toList).map asciiDigit)

theorem digits_plain (count : Nat) (part : List Char) (digits : Digits isDecimal count part) :
    Digits Char.isDigit count (part.map asciiDigit) := by
  constructor
  · rw [List.length_map, digits.size]
  · rw [List.forall_mem_map]
    intro char member
    exact ascii_digit_decimal char (digits.all char member)

theorem digits_of_plain (count : Nat) (part : List Char)
    (digits : Digits Char.isDigit count (part.map asciiDigit)) : Digits isDecimal count part := by
  obtain ⟨size, all⟩ := digits
  rw [List.length_map] at size
  rw [List.forall_mem_map] at all
  exact ⟨size, fun char member => is_decimal_of_ascii_digit char (all char member)⟩

theorem map_ascii_digit_eq (text other : List Char)
    (letters : ∀ char ∈ other, char.isDigit = false) (same : text.map asciiDigit = other) :
    text = other := by
  have each : ∀ char ∈ text, asciiDigit char = id char := by
    intro char member
    have kept := letters (asciiDigit char) (same ▸ List.mem_map_of_mem member)
    exact (ascii_digit_eq char _ kept rfl).symm
  rw [← same, List.map_congr_left each, List.map_id]

theorem letters_plain (text : List Char)
    (letters : ∀ char ∈ text, char.toNat < 48 ∨ 57 < char.toNat ∧ char.toNat < 1632) :
    text.map asciiDigit = text := by
  have each : ∀ char ∈ text, asciiDigit char = id char := by
    intro char member
    apply ascii_digit_other
    unfold isDecimal
    rw [decimal_value_none char (letters char member)]
    rfl
  rw [List.map_congr_left each, List.map_id]

theorem upper_range (char : Char) (upper : char.isUpper = true) :
    65 ≤ char.toNat ∧ char.toNat ≤ 90 :=
  of_decide_eq_true upper

theorem upper_not_digit (char : Char) (upper : char.isUpper = true) : char.isDigit = false := by
  have range := upper_range char upper
  by_contra digit
  have other := digit_range char (by simpa using digit)
  omega

/-- The same symbol with its digits in ASCII. -/
def Symbol.plain (symbol : Symbol isDecimal) : Symbol Char.isDigit where
  root := symbol.root
  yy := symbol.yy.map asciiDigit
  mm := symbol.mm.map asciiDigit
  dd := symbol.dd.map asciiDigit
  optionType := symbol.optionType
  strike := symbol.strike.map asciiDigit
  known := symbol.known
  year := digits_plain 2 symbol.yy symbol.year
  month := digits_plain 2 symbol.mm symbol.month
  day := digits_plain 2 symbol.dd symbol.day
  letter := symbol.letter
  thousandths := digits_plain 8 symbol.strike symbol.thousandths

theorem root_letters (root : List Char) (known : root = "SPXW".toList ∨ root = "SPX".toList) :
    ∀ char ∈ root, 65 ≤ char.toNat ∧ char.toNat ≤ 90 := by
  have table : root.all (fun char => 65 ≤ char.toNat ∧ char.toNat ≤ 90) = true := by
    cases known with
    | inl longer =>
        rw [longer]
        rfl
    | inr shorter =>
        rw [shorter]
        rfl
  intro char member
  exact of_decide_eq_true (List.all_eq_true.mp table char member)

theorem plain_chars (symbol : Symbol isDecimal) :
    symbol.plain.chars = symbol.chars.map asciiDigit := by
  have root : symbol.root.map asciiDigit = symbol.root := by
    apply letters_plain
    intro char member
    have range := root_letters symbol.root symbol.known char member
    omega
  have letter : [symbol.optionType].map asciiDigit = [symbol.optionType] := by
    apply letters_plain
    rw [List.forall_mem_singleton]
    have range := upper_range symbol.optionType symbol.letter
    omega
  simp only [Symbol.chars, Symbol.parts, Symbol.plain, List.flatten_cons, List.flatten_nil,
    List.map_append, List.append_nil, root, letter]

/-- A text that is a symbol once its digits are in ASCII was one before. -/
theorem symbol_of_plain (text : List Char) (symbol : Symbol Char.isDigit)
    (same : text.map asciiDigit = symbol.chars) :
    ∃ wide : Symbol isDecimal, text = wide.chars ∧ wide.plain = symbol := by
  simp only [Symbol.chars, Symbol.parts, List.flatten_cons, List.flatten_nil,
    List.append_nil] at same
  obtain ⟨root, rest, rfl, rootEq, same⟩ := List.map_eq_append_iff.mp same
  obtain ⟨yy, rest, rfl, yyEq, same⟩ := List.map_eq_append_iff.mp same
  obtain ⟨mm, rest, rfl, mmEq, same⟩ := List.map_eq_append_iff.mp same
  obtain ⟨dd, rest, rfl, ddEq, same⟩ := List.map_eq_append_iff.mp same
  obtain ⟨letter, strike, rfl, letterEq, strikeEq⟩ := List.map_eq_append_iff.mp same
  have rootSame : root = symbol.root := by
    apply map_ascii_digit_eq root symbol.root _ rootEq
    intro char member
    have range := root_letters symbol.root symbol.known char member
    exact upper_not_digit char (decide_eq_true range)
  have letterSame : letter = [symbol.optionType] := by
    apply map_ascii_digit_eq letter _ _ letterEq
    rw [List.forall_mem_singleton]
    exact upper_not_digit _ symbol.letter
  refine ⟨⟨root, yy, mm, dd, symbol.optionType, strike, rootSame ▸ symbol.known,
    digits_of_plain 2 yy (yyEq ▸ symbol.year), digits_of_plain 2 mm (mmEq ▸ symbol.month),
    digits_of_plain 2 dd (ddEq ▸ symbol.day), symbol.letter,
    digits_of_plain 8 strike (strikeEq ▸ symbol.thousandths)⟩, ?_, ?_⟩
  · simp [Symbol.chars, Symbol.parts, letterSame]
  · cases symbol
    simp only [Symbol.plain]
    congr

theorem chars_end (symbol : Symbol isDecimal) : symbol.chars.getLast? ≠ some '\n' := by
  have cut : symbol.chars = (symbol.root ++ (symbol.yy ++ (symbol.mm ++ (symbol.dd ++
      [symbol.optionType])))) ++ symbol.strike := by
    simp [Symbol.chars, Symbol.parts]
  have some : symbol.strike ≠ [] := by
    intro empty
    have size := symbol.thousandths.size
    rw [empty] at size
    cases size
  rw [cut, List.getLast?_append_of_ne_nil _ some]
  intro ends
  have digit := symbol.thousandths.all '\n' (List.mem_of_getLast? ends)
  revert digit
  decide

theorem drop_newline_symbol (symbol : Symbol isDecimal) (tail : List Char)
    (ends : atEnd tail = true) : dropNewline (symbol.chars ++ tail) = symbol.chars := by
  unfold atEnd at ends
  unfold dropNewline
  cases of_decide_eq_true ends with
  | inl none => rw [none, List.append_nil, if_neg (chars_end symbol)]
  | inr newline => rw [newline, List.getLast?_concat, if_pos rfl, List.dropLast_concat]

theorem drop_newline_split (text : List Char) :
    ∃ tail, text = dropNewline text ++ tail ∧ atEnd tail = true := by
  unfold dropNewline
  by_cases newline : text.getLast? = some '\n'
  · rw [if_pos newline]
    exact ⟨['\n'], (List.dropLast_append_getLast? _ newline).symm, by decide⟩
  · rw [if_neg newline]
    exact ⟨[], (List.append_nil text).symm, by decide⟩

theorem plain_text (occSymbol : String) (symbol : Symbol isDecimal) (tail : List Char)
    (text : occSymbol.toList = symbol.chars ++ tail) (ends : atEnd tail = true) :
    (plain occSymbol).toList = symbol.plain.chars := by
  unfold plain
  rw [String.toList_ofList, text, drop_newline_symbol symbol tail ends, plain_chars]

/-- What is accepted is well formed once it is plain, and nothing else is. -/
theorem accepted_iff (occSymbol : String) :
    (∃ contract, parseOccSymbol occSymbol = .ok contract) ↔ WellFormed (plain occSymbol) := by
  constructor
  · intro accepted
    obtain ⟨contract, parsed⟩ := accepted
    obtain ⟨symbol, tail, expiry, text, ends, dated, _⟩ :=
      (parse_occ_symbol_ok_iff occSymbol contract).mp parsed
    refine ⟨symbol.plain, plain_text occSymbol symbol tail text ends, ?_⟩
    unfold Symbol.ValidDate Symbol.plain
    simp only [read_decimals_ascii]
    unfold Date.of? at dated
    split_ifs at dated with isDate
    exact isDate
  · intro formed
    obtain ⟨strict, text, isDate⟩ := formed
    unfold plain at text
    rw [String.toList_ofList] at text
    obtain ⟨symbol, body, same⟩ := symbol_of_plain _ strict text
    obtain ⟨tail, cut, ends⟩ := drop_newline_split occSymbol.toList
    rw [body] at cut
    rw [← same] at isDate
    unfold Symbol.ValidDate Symbol.plain at isDate
    simp only [read_decimals_ascii] at isDate
    exact ⟨_, (parse_occ_symbol_ok_iff occSymbol _).mpr
      ⟨symbol, tail, ⟨_, _, _, isDate⟩, cut, ends, dif_pos isDate, rfl⟩⟩

theorem digits_ascii (count : Nat) (part : List Char) (digits : Digits Char.isDigit count part) :
    part.map asciiDigit = part := by
  have each : ∀ char ∈ part, asciiDigit char = id char :=
    fun char member => ascii_digit_digit char (digits.all char member)
  rw [List.map_congr_left each, List.map_id]

/-- A symbol of ASCII digits is one of decimal digits, its own plain form. -/
theorem symbol_widens (symbol : Symbol Char.isDigit) :
    ∃ wide : Symbol isDecimal, wide.plain = symbol ∧ wide.chars = symbol.chars := by
  have widen : ∀ count part, Digits Char.isDigit count part → Digits isDecimal count part :=
    fun count part digits => ⟨digits.size, fun char member =>
      digit_is_decimal char (digits.all char member)⟩
  refine ⟨⟨symbol.root, symbol.yy, symbol.mm, symbol.dd, symbol.optionType, symbol.strike,
    symbol.known, widen 2 _ symbol.year, widen 2 _ symbol.month, widen 2 _ symbol.day,
    symbol.letter, widen 8 _ symbol.thousandths⟩, ?_, rfl⟩
  have year := digits_ascii 2 symbol.yy symbol.year
  have month := digits_ascii 2 symbol.mm symbol.month
  have day := digits_ascii 2 symbol.dd symbol.day
  have strike := digits_ascii 8 symbol.strike symbol.thousandths
  cases symbol
  simp only at year month day strike
  simp only [Symbol.plain, year, month, day, strike]

theorem well_formed_plain (occSymbol : String) (formed : WellFormed occSymbol) :
    plain occSymbol = occSymbol := by
  obtain ⟨symbol, text, _⟩ := formed
  obtain ⟨wide, plainEq, charsEq⟩ := symbol_widens symbol
  have shown := plain_text occSymbol wide [] (by rw [text, charsEq, List.append_nil]) (by decide)
  rw [plainEq, ← text] at shown
  exact String.toList_inj.mp shown

/-! ## Rendering -/

theorem digits_rendered (count : Nat) (part : List Char) (some : 0 < count)
    (digits : Digits Char.isDigit count part) : zeroPadded count (readDecimals part) = part := by
  have nonempty : part ≠ [] := by
    apply List.ne_nil_of_length_pos
    rw [digits.size]
    exact some
  have padded := zero_padded_digits part nonempty digits.all
  rw [digits.size] at padded
  exact padded

theorem read_decimals_lt (count : Nat) (part : List Char) (digits : Digits isDecimal count part) :
    readDecimals part < 10 ^ count := by
  obtain ⟨size, all⟩ := digits
  rw [← size]
  clear size
  induction part using List.reverseRecOn with
  | nil => decide
  | append_singleton earlier last ih =>
      obtain ⟨value, read⟩ := Option.isSome_iff_exists.mp (all last (by simp))
      have small := decimal_value_lt last value read
      have inner := ih fun char member => all char (List.mem_append_left _ member)
      unfold readDecimals at inner ⊢
      rw [List.foldl_concat, read, Option.getD_some, List.length_append, List.length_singleton,
        pow_succ]
      omega

/-- The date of a symbol is written with its own six characters. -/
theorem expiry_rendered (symbol : Symbol Char.isDigit) (expiry : Date)
    (dated : Date.of? (2000 + readDecimals symbol.yy) (readDecimals symbol.mm)
      (readDecimals symbol.dd) = some expiry) : expiry.yymmdd = symbol.date := by
  obtain ⟨year, month, day⟩ := date_of_eq _ _ _ expiry dated
  have widened : Digits isDecimal 2 symbol.yy :=
    ⟨symbol.year.size, fun char member => digit_is_decimal char (symbol.year.all char member)⟩
  have small := read_decimals_lt 2 symbol.yy widened
  have century : (2000 + readDecimals symbol.yy) % 100 = readDecimals symbol.yy := by omega
  unfold Date.yymmdd Symbol.date
  rw [year, month, day, century, digits_rendered 2 symbol.yy (by decide) symbol.year,
    digits_rendered 2 symbol.mm (by decide) symbol.month,
    digits_rendered 2 symbol.dd (by decide) symbol.day]

theorem render_contract (symbol : Symbol Char.isDigit) (expiry : Date)
    (dated : Date.of? (2000 + readDecimals symbol.yy) (readDecimals symbol.mm)
      (readDecimals symbol.dd) = some expiry) :
    renderOccSymbol (symbol.contract expiry) = String.ofList symbol.chars := by
  unfold renderOccSymbol Symbol.contract
  simp only [String.toList_ofList, Decimal.truncated_thousandths, Int.toNat_natCast,
    expiry_rendered symbol expiry dated, Symbol.date,
    digits_rendered 8 symbol.strike (by decide) symbol.thousandths]
  simp [Symbol.chars, Symbol.parts]

theorem contract_plain (symbol : Symbol isDecimal) (expiry : Date) :
    symbol.plain.contract expiry = symbol.contract expiry := by
  simp only [Symbol.contract, Symbol.plain, read_decimals_ascii]

/-- A parsed contract renders as the plain form of its symbol. -/
theorem render_parsed (occSymbol : String) (contract : OccContract)
    (parsed : parseOccSymbol occSymbol = .ok contract) :
    renderOccSymbol contract = plain occSymbol := by
  obtain ⟨symbol, tail, expiry, text, ends, dated, shape⟩ :=
    (parse_occ_symbol_ok_iff occSymbol contract).mp parsed
  have shown := plain_text occSymbol symbol tail text ends
  have strictDated : Date.of? (2000 + readDecimals symbol.plain.yy) (readDecimals symbol.plain.mm)
      (readDecimals symbol.plain.dd) = some expiry := by
    simp only [Symbol.plain, read_decimals_ascii]
    exact dated
  rw [shape, ← contract_plain, render_contract symbol.plain expiry strictDated, ← shown,
    String.ofList_toList]

/-- Parsing accepts the well-formed symbols, undoes their rendering, and raises
`ValueError` on any other text. -/
structure InvertsRendering (occSymbol : String) : Prop where
  accepts : (∃ contract, parseOccSymbol occSymbol = .ok contract) ↔ WellFormed occSymbol
  renders : ∀ contract, parseOccSymbol occSymbol = .ok contract →
    renderOccSymbol contract = occSymbol
  raises : ¬WellFormed occSymbol → ∃ message,
    parseOccSymbol occSymbol = .error (.valueError message)

/-- **Parsing is the inverse of rendering exactly on the texts that are plain
or whose plain form is no symbol.** -/
theorem parse_occ_symbol_inverts_iff (occSymbol : String) :
    InvertsRendering occSymbol ↔ (WellFormed (plain occSymbol) → plain occSymbol = occSymbol) := by
  have accepted := accepted_iff occSymbol
  constructor
  · intro inverts formed
    obtain ⟨contract, parsed⟩ := accepted.mpr formed
    exact (render_parsed occSymbol contract parsed).symm.trans (inverts.renders contract parsed)
  · intro kept
    have same : WellFormed (plain occSymbol) ↔ WellFormed occSymbol := by
      constructor
      · intro formed
        rw [← kept formed]
        exact formed
      · intro formed
        rw [well_formed_plain occSymbol formed]
        exact formed
    refine ⟨accepted.trans same, ?_, ?_⟩
    · intro contract parsed
      rw [render_parsed occSymbol contract parsed]
      exact kept (accepted.mp ⟨contract, parsed⟩)
    · intro other
      cases outcome : parseOccSymbol occSymbol with
      | ok contract => exact absurd (same.mp (accepted.mp ⟨contract, outcome⟩)) other
      | error raised =>
          rw [parse_occ_symbol_error occSymbol raised outcome]
          exact ⟨_, rfl⟩

/-- A newline at the end is dropped in silence. -/
theorem newline_accepted : ¬InvertsRendering "SPXW260320C05000000\n" := by
  intro inverts
  have accepted : (parseOccSymbol "SPXW260320C05000000\n").toOption.isSome = true := by
    decide +kernel
  cases outcome : parseOccSymbol "SPXW260320C05000000\n" with
  | error raised =>
      rw [outcome] at accepted
      cases accepted
  | ok contract =>
      have shown := inverts.renders contract outcome
      rw [render_parsed _ contract outcome] at shown
      revert shown
      decide +kernel

end Morai.Ledger.OccSymbol
