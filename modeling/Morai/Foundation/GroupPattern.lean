import Mathlib.Data.List.Forall2
import Mathlib.Data.List.Infix

/-!
# Patterns of groups

A pattern is a list of groups and a condition on what follows the last one. A
group is a choice between fixed texts or a number of symbols of one class.
Matching tries the texts of a choice in their order and goes on to the next
one where the groups after it do not match.
-/

namespace Morai.Foundation.GroupPattern

set_option autoImplicit false

variable {Symbol : Type*} [DecidableEq Symbol]

inductive PatternGroup (Symbol : Type*) where
  | oneOf (texts : List (List Symbol))
  | exactly (count : Nat) (allowed : Symbol → Bool)

def PatternGroup.Fits : PatternGroup Symbol → List Symbol → Prop
  | .oneOf texts, part => part ∈ texts
  | .exactly count allowed, part => part.length = count ∧ ∀ symbol ∈ part, allowed symbol = true

/-- The parts a text can start with, in the order they are tried. -/
def PatternGroup.heads : PatternGroup Symbol → List Symbol → List (List Symbol)
  | .oneOf texts, text => texts.filter fun part => part.isPrefixOf text
  | .exactly count allowed, text =>
      if (text.take count).length = count ∧ (text.take count).all allowed = true then
        [text.take count]
      else []

def matchGroups (atEnd : List Symbol → Bool) :
    List (PatternGroup Symbol) → List Symbol → Option (List (List Symbol))
  | [], text => if atEnd text = true then some [] else none
  | group :: rest, text =>
      (group.heads text).findSome? fun part =>
        (matchGroups atEnd rest (text.drop part.length)).map (part :: ·)

theorem heads_fit (group : PatternGroup Symbol) (text part : List Symbol)
    (head : part ∈ group.heads text) : group.Fits part ∧ ∃ rest, text = part ++ rest := by
  cases group with
  | oneOf texts =>
      obtain ⟨choice, found⟩ := List.mem_filter.mp head
      obtain ⟨rest, split⟩ := List.isPrefixOf_iff_prefix.mp found
      exact ⟨choice, rest, split.symm⟩
  | exactly count allowed =>
      simp only [PatternGroup.heads] at head
      split_ifs at head with fits
      · rw [List.mem_singleton.mp head]
        exact ⟨⟨fits.1, List.all_eq_true.mp fits.2⟩, text.drop count,
          (List.take_append_drop count text).symm⟩
      · cases head

/-- A match cuts the text into parts that fit. -/
theorem match_groups_sound (atEnd : List Symbol → Bool) (groups : List (PatternGroup Symbol))
    (text : List Symbol) (parts : List (List Symbol))
    (matched : matchGroups atEnd groups text = some parts) :
    List.Forall₂ PatternGroup.Fits groups parts ∧
      ∃ tail, text = parts.flatten ++ tail ∧ atEnd tail = true := by
  induction groups generalizing text parts with
  | nil =>
      unfold matchGroups at matched
      split_ifs at matched with ends
      cases matched
      exact ⟨List.Forall₂.nil, text, rfl, ends⟩
  | cons group rest ih =>
      obtain ⟨part, head, later⟩ := List.exists_of_findSome?_eq_some matched
      obtain ⟨parts', inner, shape⟩ := Option.map_eq_some_iff.mp later
      obtain ⟨fits, remaining, split⟩ := heads_fit group text part head
      rw [split, List.drop_left] at inner
      obtain ⟨others, tail, text', ends⟩ := ih remaining parts' inner
      rw [← shape]
      refine ⟨List.Forall₂.cons fits others, tail, ?_, ends⟩
      rw [split, text', List.flatten_cons, List.append_assoc]

/-- The first part tried is taken where the groups after it match. -/
theorem match_groups_first (atEnd : List Symbol → Bool) (group : PatternGroup Symbol)
    (rest : List (PatternGroup Symbol)) (part text : List Symbol) (others parts : List (List Symbol))
    (heads : group.heads (part ++ text) = part :: others)
    (later : matchGroups atEnd rest text = some parts) :
    matchGroups atEnd (group :: rest) (part ++ text) = some (part :: parts) := by
  unfold matchGroups
  rw [heads, List.findSome?_cons, List.drop_left, later]
  rfl

theorem heads_exactly (count : Nat) (allowed : Symbol → Bool) (part text : List Symbol)
    (fits : (PatternGroup.exactly count allowed).Fits part) :
    (PatternGroup.exactly count allowed).heads (part ++ text) = [part] := by
  have taken : (part ++ text).take count = part := List.take_left' fits.1
  rw [PatternGroup.heads, taken, if_pos ⟨fits.1, List.all_eq_true.mpr fits.2⟩]

end Morai.Foundation.GroupPattern
