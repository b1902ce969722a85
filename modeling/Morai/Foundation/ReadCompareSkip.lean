import Mathlib.Data.List.Perm.Basic
import Mathlib.Data.List.Nodup

/-!
# Read, compare, skip

An append-only store that takes from each batch what it does not hold yet,
compared by a tag. When every batch is a selection from one fixed catalogue
whose items have different tags, the store after any sequence of batches
holds the union of the selections, whatever their order and overlaps.
-/

namespace Morai.Foundation.ReadCompareSkip

set_option autoImplicit false

variable {Item Tag Key : Type*} [DecidableEq Tag] (tag : Item → Tag)

def missing (stored incoming : List Item) : List Item :=
  incoming.filter fun item => tag item ∉ stored.map tag

def absorb (stored incoming : List Item) : List Item :=
  stored ++ missing tag stored incoming

theorem missing_nil_iff (stored incoming : List Item) :
    missing tag stored incoming = [] ↔ ∀ item ∈ incoming, tag item ∈ stored.map tag := by
  unfold missing
  rw [List.filter_eq_nil_iff]
  simp

theorem missing_congr_stored (stored stored' incoming : List Item)
    (same : stored.Perm stored') :
    missing tag stored incoming = missing tag stored' incoming := by
  unfold missing
  apply List.filter_congr
  intro item _
  apply decide_eq_decide.mpr
  rw [(same.map tag).mem_iff]

theorem missing_perm (stored stored' incoming incoming' : List Item)
    (sameStored : stored.Perm stored') (sameIncoming : incoming.Perm incoming') :
    (missing tag stored incoming).Perm (missing tag stored' incoming') := by
  rw [missing_congr_stored tag stored stored' incoming sameStored]
  apply sameIncoming.filter

/-- What is missing never meets what is held: beside it, only what is held
twice or missing twice is there twice. -/
theorem append_missing_nodup_iff (held : List Tag) (stored incoming : List Item)
    (same : (stored.map tag).Perm held) :
    (held ++ (missing tag stored incoming).map tag).Nodup ↔
      held.Nodup ∧ ((missing tag stored incoming).map tag).Nodup := by
  rw [List.nodup_append]
  constructor
  · intro apart
    exact ⟨apart.1, apart.2.1⟩
  · intro each
    refine ⟨each.1, each.2, ?_⟩
    intro heldTag heldMember missingTag missingMember equal
    rcases List.mem_map.mp missingMember with ⟨item, itemMember, itemTag⟩
    have absent : tag item ∉ stored.map tag := of_decide_eq_true (List.mem_filter.mp itemMember).2
    apply absent
    rw [itemTag, ← equal, same.mem_iff]
    exact heldMember

/-- A batch made of a catalogue adds no tag twice exactly when no two of the
catalogue's keys share a tag that is not held yet. -/
theorem missing_nodup_iff (catalogue : List Key) (nodup : catalogue.Nodup) (render : Key → Item)
    (stored incoming : List Item) (batch : incoming.Perm (catalogue.map render)) :
    ((missing tag stored incoming).map tag).Nodup ↔
      ∀ left ∈ catalogue, ∀ right ∈ catalogue, tag (render left) = tag (render right) →
        tag (render left) ∈ stored.map tag ∨ left = right := by
  have perm := missing_perm tag stored stored incoming _ (List.Perm.refl stored) batch
  have rendered : (missing tag stored (catalogue.map render)).map tag =
      (catalogue.filter fun key => tag (render key) ∉ stored.map tag).map
        (tag ∘ render) := by
    unfold missing
    rw [List.filter_map, List.map_map]
    rfl
  rw [(perm.map tag).nodup_iff, rendered, List.nodup_map_iff_inj_on (nodup.filter _)]
  simp only [List.mem_filter, decide_eq_true_eq, Function.comp_apply]
  constructor
  · intro injective left leftMember right rightMember same
    by_cases held : tag (render left) ∈ stored.map tag
    · exact Or.inl held
    · apply Or.inr
      exact injective left ⟨leftMember, held⟩ right ⟨rightMember, same ▸ held⟩ same
  · intro apart left leftFresh right rightFresh same
    exact (apart left leftFresh.1 right rightFresh.1 same).resolve_left leftFresh.2

/-- Taking one selection and then what a second adds to it is taking both. -/
theorem filter_append_rest_perm (catalogue : List Key) (before next : Key → Bool) :
    (catalogue.filter before ++ catalogue.filter fun key => next key && !before key).Perm
      (catalogue.filter fun key => before key || next key) := by
  induction catalogue with
  | nil => apply List.Perm.refl
  | cons key rest ih =>
      cases inBefore : before key with
      | true => simpa [inBefore] using ih
      | false =>
          cases inNext : next key with
          | true =>
              simp only [List.filter_cons, inBefore, inNext, Bool.false_or, Bool.not_false,
                Bool.and_self, if_true]
              apply List.perm_middle.trans
              apply List.Perm.cons
              exact ih
          | false => simpa [inBefore, inNext] using ih

section Catalogue

variable (catalogue : List Key) (render : Key → Item) (start : List Item)

def isFresh (key : Key) : Bool := tag (render key) ∉ start.map tag

/-- The covered part of the catalogue that the store did not start with. -/
def selected (covered : Key → Bool) : List Item :=
  (catalogue.filter fun key => covered key && isFresh tag render start key).map render

theorem tag_held_iff (covered : Key → Bool) (key : Key) (member : key ∈ catalogue)
    (injective : ∀ left ∈ catalogue, ∀ right ∈ catalogue,
      tag (render left) = tag (render right) → left = right) :
    tag (render key) ∈ (start ++ selected tag catalogue render start covered).map tag ↔
      (!isFresh tag render start key || covered key) = true := by
  rw [List.map_append, List.mem_append, Bool.or_eq_true, Bool.not_eq_true', isFresh,
    decide_eq_false_iff_not, not_not]
  by_cases old : tag (render key) ∈ start.map tag
  · exact ⟨fun _ => Or.inl old, fun _ => Or.inl old⟩
  · rw [or_iff_right old, or_iff_right old, selected, List.map_map, List.mem_map]
    constructor
    · intro found
      rcases found with ⟨other, otherMember, same⟩
      rcases List.mem_filter.mp otherMember with ⟨listed, passes⟩
      rw [← injective other listed key member same]
      exact (Bool.and_eq_true_iff.mp passes).1
    · intro inCovered
      refine ⟨key, List.mem_filter.mpr ⟨member, ?_⟩, rfl⟩
      rw [inCovered, Bool.true_and, isFresh, decide_eq_true_eq]
      exact old

/-- One batch: the covered part grows by the batch's selection. -/
theorem absorb_selection (before scope : Key → Bool) (stored incoming : List Item)
    (injective : ∀ left ∈ catalogue, ∀ right ∈ catalogue,
      tag (render left) = tag (render right) → left = right)
    (covered : stored.Perm (start ++ selected tag catalogue render start before))
    (batch : incoming.Perm ((catalogue.filter scope).map render)) :
    (absorb tag stored incoming).Perm
      (start ++ selected tag catalogue render start fun key => before key || scope key) := by
  have added : (missing tag stored incoming).Perm
      ((catalogue.filter fun key => (scope key && isFresh tag render start key) &&
        !(before key && isFresh tag render start key)).map render) := by
    apply (missing_perm tag _ _ _ _ covered batch).trans
    unfold missing
    rw [List.filter_map, List.filter_filter]
    apply List.Perm.of_eq
    apply congrArg (List.map render)
    apply List.filter_congr
    intro key member
    have held : decide (tag (render key) ∈
        (start ++ selected tag catalogue render start before).map tag) =
        (!isFresh tag render start key || before key) := by
      rw [Bool.eq_iff_iff, decide_eq_true_eq]
      exact tag_held_iff tag catalogue render start before key member injective
    rw [Function.comp_apply, decide_not, held]
    cases isFresh tag render start key <;> cases before key <;> cases scope key <;> rfl
  have grown := (filter_append_rest_perm catalogue
    (fun key => before key && isFresh tag render start key)
    fun key => scope key && isFresh tag render start key).map render
  have merged : (fun key => (before key && isFresh tag render start key) ||
      (scope key && isFresh tag render start key)) =
      fun key => (before key || scope key) && isFresh tag render start key := by
    funext key
    rw [Bool.and_or_distrib_right]
  rw [List.map_append, merged] at grown
  unfold absorb
  apply (covered.append added).trans
  rw [List.append_assoc]
  apply grown.append_left

/-- A catalogue that is covered has nothing left to add. -/
theorem missing_covered (covered scope : Key → Bool) (stored incoming : List Item)
    (whole : ∀ key ∈ catalogue, covered key = true)
    (held : stored.Perm (start ++ selected tag catalogue render start covered))
    (batch : incoming.Perm ((catalogue.filter scope).map render)) :
    missing tag stored incoming = [] := by
  rw [missing_nil_iff]
  intro item member
  rcases List.mem_map.mp (batch.mem_iff.mp member) with ⟨key, keyMember, shape⟩
  have inCatalogue := (List.mem_filter.mp keyMember).1
  rw [(held.map tag).mem_iff, List.map_append, List.mem_append, ← shape]
  by_cases old : tag (render key) ∈ start.map tag
  · exact Or.inl old
  · apply Or.inr
    apply List.mem_map_of_mem
    apply List.mem_map_of_mem
    apply List.mem_filter.mpr
    refine ⟨inCatalogue, ?_⟩
    rw [whole key inCatalogue, Bool.true_and, isFresh, decide_eq_true_eq]
    exact old

theorem selected_nodup (covered : Key → Bool) (nodup : catalogue.Nodup)
    (injective : ∀ left ∈ catalogue, ∀ right ∈ catalogue,
      tag (render left) = tag (render right) → left = right) :
    ((selected tag catalogue render start covered).map tag).Nodup := by
  unfold selected
  rw [List.map_map]
  apply (nodup.filter _).map_on
  intro left leftMember right rightMember same
  exact injective left (List.mem_filter.mp leftMember).1 right (List.mem_filter.mp rightMember).1
    same

end Catalogue

end Morai.Foundation.ReadCompareSkip
