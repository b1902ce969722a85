import Mathlib.Data.String.Basic

/-!
# Texts joined by a delimiter

What a joined text says about its fields: the last field is told apart when it
does not hold the delimiter, and a fixed first field always is. Records of one
width are told apart also when the delimiter of the fields joins the records
too. Decimal numerals never hold a colon.
-/

namespace Morai.Foundation.JoinedText

set_option autoImplicit false

variable {Item : Type*}

/-- The text after the last delimiter, and the text before it. -/
theorem last_field_unique (delimiter : Item) (left right last other : List Item)
    (free : delimiter ∉ last) (otherFree : delimiter ∉ other)
    (joined : left ++ delimiter :: last = right ++ delimiter :: other) :
    left = right ∧ last = other := by
  have splits := List.append_eq_append_iff.mp joined
  cases splits with
  | inl longer =>
      obtain ⟨between, rightShape, tail⟩ := longer
      cases between with
      | nil =>
          simp only [List.nil_append, List.cons.injEq, true_and] at tail
          exact ⟨by rw [rightShape, List.append_nil], tail⟩
      | cons first rest =>
          simp only [List.cons_append, List.cons.injEq] at tail
          exact absurd (tail.2 ▸ List.mem_append_right rest List.mem_cons_self) free
  | inr shorter =>
      obtain ⟨between, leftShape, tail⟩ := shorter
      cases between with
      | nil =>
          simp only [List.nil_append, List.cons.injEq, true_and] at tail
          exact ⟨by rw [leftShape, List.append_nil], tail.symm⟩
      | cons first rest =>
          simp only [List.cons_append, List.cons.injEq] at tail
          exact absurd (tail.2 ▸ List.mem_append_right rest List.mem_cons_self) otherFree

theorem last_text_iff (left right last other : String) (free : ':' ∉ last.toList)
    (otherFree : ':' ∉ other.toList) :
    left ++ ":" ++ last = right ++ ":" ++ other ↔ left = right ∧ last = other := by
  constructor
  · intro joined
    have chars := congrArg String.toList joined
    simp only [String.toList_append, List.append_assoc] at chars
    obtain ⟨fronts, lasts⟩ := last_field_unique ':' left.toList right.toList last.toList
      other.toList free otherFree chars
    exact ⟨String.toList_injective fronts, String.toList_injective lasts⟩
  · intro same
    rw [same.1, same.2]

theorem append_left_iff (front left right : String) : front ++ left = front ++ right ↔ left = right := by
  constructor
  · intro joined
    have chars := congrArg String.toList joined
    simp only [String.toList_append] at chars
    exact String.toList_injective (List.append_cancel_left chars)
  · intro same
    rw [same]

/-! ## Records of one width -/

/-- Lists of one width are where the flattened list says. -/
theorem flatten_unique (width : Nat) (positive : 0 < width) (left right : List (List Item))
    (leftWidth : ∀ part ∈ left, part.length = width)
    (rightWidth : ∀ part ∈ right, part.length = width)
    (same : left.flatten = right.flatten) : left = right := by
  have lengths : ∀ parts : List (List Item), (∀ part ∈ parts, part.length = width) →
      parts.map List.length = List.replicate parts.length width := by
    intro parts widths
    rw [← List.map_const']
    exact List.map_congr_left widths
  have total : left.length * width = right.length * width := by
    have flat := congrArg List.length same
    rw [List.length_flatten, List.length_flatten, lengths left leftWidth,
      lengths right rightWidth, List.sum_replicate_nat, List.sum_replicate_nat] at flat
    exact flat
  have counts : left.length = right.length := Nat.eq_of_mul_eq_mul_right positive total
  apply List.eq_iff_flatten_eq.mpr
  exact ⟨same, by rw [lengths left leftWidth, lengths right rightWidth, counts]⟩

theorem map_unique {Key : Type*} (render : Key → Item) (left right : List Key)
    (apart : ∀ key ∈ left, ∀ other ∈ right, render key = render other → key = other)
    (same : left.map render = right.map render) : left = right := by
  induction left generalizing right with
  | nil => exact (List.map_eq_nil_iff.mp same.symm).symm
  | cons key rest ih =>
      cases right with
      | nil => cases same
      | cons other others =>
          injection same with heads tails
          have first := apart key List.mem_cons_self other List.mem_cons_self heads
          have later := ih others (fun key member other among =>
            apart key (List.mem_cons_of_mem _ member) other (List.mem_cons_of_mem _ among)) tails
          rw [first, later]

section Records

variable [DecidableEq Item] (delimiter : Item)

theorem joined_fields_unique (left right : List (List Item)) (leftSome : left ≠ [])
    (rightSome : right ≠ []) (leftFree : ∀ field ∈ left, delimiter ∉ field)
    (rightFree : ∀ field ∈ right, delimiter ∉ field)
    (joined : [delimiter].intercalate left = [delimiter].intercalate right) : left = right := by
  have fields := List.splitOn_intercalate delimiter leftFree leftSome
  rw [joined, List.splitOn_intercalate delimiter rightFree rightSome] at fields
  exact fields.symm

omit [DecidableEq Item] in
theorem join_append (left right : List (List Item)) (leftSome : left ≠ []) (rightSome : right ≠ []) :
    [delimiter].intercalate (left ++ right) =
      [delimiter].intercalate left ++ delimiter :: [delimiter].intercalate right := by
  induction left with
  | nil => exact absurd rfl leftSome
  | cons field rest ih =>
      cases rest with
      | nil => rw [List.singleton_append, List.intercalate_cons_of_ne_nil rightSome,
          List.intercalate_singleton, List.append_assoc, List.singleton_append]
      | cons next others =>
          have tail := ih (List.cons_ne_nil _ _)
          rw [List.cons_append, List.cons_append, List.intercalate_cons_cons,
            ← List.cons_append, tail, List.intercalate_cons_cons]
          simp only [List.append_assoc]

omit [DecidableEq Item] in
/-- Joining the joined records is joining all their fields. -/
theorem join_records (records : List (List (List Item))) (some : ∀ record ∈ records, record ≠ []) :
    [delimiter].intercalate (records.map [delimiter].intercalate) =
      [delimiter].intercalate records.flatten := by
  induction records with
  | nil => rfl
  | cons record rest ih =>
      have tail := ih fun other member => some other (List.mem_cons_of_mem _ member)
      cases rest with
      | nil => simp
      | cons next others =>
          have nextSome := some next (List.mem_cons_of_mem _ List.mem_cons_self)
          have flatSome : (next :: others).flatten ≠ [] := by
            rw [List.flatten_cons]
            exact List.append_ne_nil_of_left_ne_nil nextSome _
          have mapSome : (next :: others).map [delimiter].intercalate ≠ [] := List.cons_ne_nil _ _
          have flat : (record :: next :: others).flatten = record ++ (next :: others).flatten :=
            List.flatten_cons
          rw [flat, join_append delimiter record _ (some record List.mem_cons_self) flatSome,
            List.map_cons, List.intercalate_cons_of_ne_nil mapSome, tail, List.append_assoc,
            List.singleton_append]

omit [DecidableEq Item] in
/-- A delimiter stands between two fields, so no record joins to nothing. -/
theorem joined_records_nil_iff (width : Nat) (several : 1 < width)
    (records : List (List (List Item))) (widths : ∀ record ∈ records, record.length = width) :
    [delimiter].intercalate (records.map [delimiter].intercalate) = [] ↔ records = [] := by
  constructor
  · intro joined
    cases records with
    | nil => rfl
    | cons record rest =>
        have wide := widths record List.mem_cons_self
        match record with
        | [] | [_] => simp only [List.length_nil, List.length_singleton] at wide; omega
        | first :: second :: others =>
            exfalso
            cases rest <;> simp at joined
  · intro none
    rw [none]
    rfl

/-- One delimiter for the fields and for the records is enough. -/
theorem joined_records_unique (width : Nat) (several : 1 < width)
    (left right : List (List (List Item)))
    (leftWidth : ∀ record ∈ left, record.length = width)
    (rightWidth : ∀ record ∈ right, record.length = width)
    (leftFree : ∀ record ∈ left, ∀ field ∈ record, delimiter ∉ field)
    (rightFree : ∀ record ∈ right, ∀ field ∈ record, delimiter ∉ field)
    (joined : [delimiter].intercalate (left.map [delimiter].intercalate) =
      [delimiter].intercalate (right.map [delimiter].intercalate)) : left = right := by
  have leftNil := joined_records_nil_iff delimiter width several left leftWidth
  have rightNil := joined_records_nil_iff delimiter width several right rightWidth
  rw [joined, rightNil] at leftNil
  by_cases empty : left = []
  · rw [empty, leftNil.mpr empty]
  · have recordSome : ∀ records : List (List (List Item)),
        (∀ record ∈ records, record.length = width) → ∀ record ∈ records, record ≠ [] := by
      intro records widths record member
      apply List.ne_nil_of_length_pos
      rw [widths record member]
      exact Nat.zero_lt_of_lt several
    have flatSome : ∀ records : List (List (List Item)), records ≠ [] →
        (∀ record ∈ records, record.length = width) → records.flatten ≠ [] := by
      intro records some widths none
      apply some
      exact flatten_unique width (Nat.zero_lt_of_lt several) records [] widths (by simp) none
    rw [join_records delimiter left (recordSome left leftWidth),
      join_records delimiter right (recordSome right rightWidth)] at joined
    apply flatten_unique width (Nat.zero_lt_of_lt several) left right leftWidth rightWidth
    apply joined_fields_unique delimiter left.flatten right.flatten
      (flatSome left empty leftWidth) (flatSome right (mt leftNil.mp empty) rightWidth) _ _ joined
    · intro field member
      obtain ⟨record, among, inside⟩ := List.mem_flatten.mp member
      exact leftFree record among field inside
    · intro field member
      obtain ⟨record, among, inside⟩ := List.mem_flatten.mp member
      exact rightFree record among field inside

end Records

theorem text_records_unique (width : Nat) (several : 1 < width) (left right : List (List String))
    (leftWidth : ∀ record ∈ left, record.length = width)
    (rightWidth : ∀ record ∈ right, record.length = width)
    (leftFree : ∀ record ∈ left, ∀ field ∈ record, ':' ∉ field.toList)
    (rightFree : ∀ record ∈ right, ∀ field ∈ record, ':' ∉ field.toList)
    (joined : ":".intercalate (left.map ":".intercalate) =
      ":".intercalate (right.map ":".intercalate)) : left = right := by
  have chars : ∀ records : List (List String),
      (":".intercalate (records.map ":".intercalate)).toList =
        [':'].intercalate ((records.map (List.map String.toList)).map [':'].intercalate) := by
    intro records
    rw [String.toList_intercalate, List.map_map, List.map_map]
    apply congrArg
    apply List.map_congr_left
    intro record _
    exact String.toList_intercalate
  have wide : ∀ records : List (List String), (∀ record ∈ records, record.length = width) →
      ∀ record ∈ records.map (List.map String.toList), record.length = width := by
    intro records widths record member
    obtain ⟨fields, among, shape⟩ := List.mem_map.mp member
    rw [← shape, List.length_map, widths fields among]
  have free : ∀ records : List (List String),
      (∀ record ∈ records, ∀ field ∈ record, ':' ∉ field.toList) →
        ∀ record ∈ records.map (List.map String.toList), ∀ field ∈ record, ':' ∉ field := by
    intro records fits record member field inside
    obtain ⟨fields, among, shape⟩ := List.mem_map.mp member
    rw [← shape] at inside
    obtain ⟨text, part, same⟩ := List.mem_map.mp inside
    rw [← same]
    exact fits fields among text part
  have same := joined_records_unique ':' width several _ _ (wide left leftWidth)
    (wide right rightWidth) (free left leftFree) (free right rightFree)
    (by rw [← chars, ← chars, joined])
  have charsInjective : Function.Injective String.toList := fun _ _ => String.toList_injective
  exact List.map_injective_iff.mpr (List.map_injective_iff.mpr charsInjective) same

/-! ## Decimal numerals -/

theorem nat_text_digits (value : Nat) (char : Char) (member : char ∈ (Nat.repr value).toList) :
    char.isDigit = true := by
  rw [Nat.toList_repr] at member
  exact Nat.isDigit_of_mem_toDigits (by decide) (by decide) member

theorem neg_text (value : Nat) :
    (toString (Int.negSucc value)).toList = '-' :: (Nat.repr (value + 1)).toList := by
  have shape : toString (Int.negSucc value) = "-" ++ Nat.repr (value + 1) := rfl
  rw [shape, String.toList_append]
  rfl

theorem int_text_colon_free (value : Int) : ':' ∉ (toString value).toList := by
  intro member
  cases value with
  | ofNat value => exact absurd (nat_text_digits value ':' member) (by decide)
  | negSucc value =>
      rw [neg_text, List.mem_cons] at member
      cases member with
      | inl sign => exact absurd sign (by decide)
      | inr digit => exact absurd (nat_text_digits _ ':' digit) (by decide)

theorem nat_text_injective (left right : Nat)
    (same : (Nat.repr left).toList = (Nat.repr right).toList) : left = right := by
  rw [Nat.toList_repr, Nat.toList_repr] at same
  have values := congrArg (fun digits => Nat.ofDigitChars 10 digits 0) same
  simpa only [Nat.ofDigitChars_ten_toDigits] using values

theorem nat_text_not_negative (left right : Nat) :
    (Nat.repr left).toList ≠ '-' :: (Nat.repr right).toList := by
  intro same
  have digit := nat_text_digits left '-' (same ▸ List.mem_cons_self)
  exact absurd digit (by decide)

theorem int_text_iff (left right : Int) : toString left = toString right ↔ left = right := by
  constructor
  · intro same
    have chars := congrArg String.toList same
    cases left with
    | ofNat left =>
        cases right with
        | ofNat right => exact congrArg Int.ofNat (nat_text_injective left right chars)
        | negSucc right =>
            rw [neg_text] at chars
            exact absurd chars (nat_text_not_negative left _)
    | negSucc left =>
        cases right with
        | ofNat right =>
            rw [neg_text] at chars
            exact absurd chars.symm (nat_text_not_negative right _)
        | negSucc right =>
            rw [neg_text, neg_text] at chars
            have digits := nat_text_injective _ _ (List.cons.inj chars).2
            exact congrArg Int.negSucc (Nat.succ.inj digits)
  · exact congrArg toString

end Morai.Foundation.JoinedText
