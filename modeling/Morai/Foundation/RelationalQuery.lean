import Mathlib.Data.List.Dedup
import Mathlib.Data.Set.Insert
import Morai.Foundation.OrderedGroups

/-!
# Relational queries over lists

A table expression is the list of its rows, duplicates included. Joins
multiply rows, `GROUP BY` is `groupBy`, `DISTINCT` is `List.dedup`, and a
subquery used as a value may hold at most one row. The lemmas give each
operator its set-theoretic reading, which is what survives the duplicates.
-/

namespace Morai.Foundation.RelationalQuery

open Morai.Foundation.OrderedGroups

set_option autoImplicit false

section Rows

variable {Left Right Row Value : Type*}

def innerJoin (on : Left → Right → Bool) (left : List Left) (right : List Right) :
    List (Left × Right) :=
  left.flatMap fun row => (right.filter (on row)).map (Prod.mk row)

theorem mem_inner_join (on : Left → Right → Bool) (left : List Left) (right : List Right)
    (pair : Left × Right) :
    pair ∈ innerJoin on left right ↔
      pair.1 ∈ left ∧ pair.2 ∈ right ∧ on pair.1 pair.2 = true := by
  unfold innerJoin
  rw [List.mem_flatMap]
  constructor
  · intro found
    rcases found with ⟨row, member, inner⟩
    rcases List.mem_map.mp inner with ⟨other, kept, same⟩
    rcases List.mem_filter.mp kept with ⟨otherMember, joined⟩
    cases same
    exact ⟨member, otherMember, joined⟩
  · intro found
    exact ⟨pair.1, found.1, List.mem_map.mpr ⟨pair.2, List.mem_filter.mpr found.2, rfl⟩⟩

/-- A subquery in the place of a value: `NULL` without rows, an error with
more than one. -/
def scalarSubquery : List (Option Value) → Option (Option Value)
  | [] => some none
  | [value] => some value
  | _ :: _ :: _ => none

variable [DecidableEq Value]

def countDistinct (values : List Value) : Nat := values.dedup.length

/-- `COUNT(DISTINCT x) = 1` holds exactly when the column is one repeated
value. -/
theorem count_distinct_one (values : List Value) :
    countDistinct values = 1 ↔ ∃ value, ∀ other, other ∈ values ↔ other = value := by
  unfold countDistinct
  rw [List.length_eq_one_iff]
  constructor
  · intro single
    rcases single with ⟨value, shape⟩
    refine ⟨value, fun other => ?_⟩
    rw [← List.mem_dedup, shape, List.mem_singleton]
  · intro constant
    rcases constant with ⟨value, same⟩
    refine ⟨value, List.perm_singleton.mp ?_⟩
    apply (List.perm_ext_iff_of_nodup (List.nodup_dedup values) (List.nodup_singleton value)).mpr
    intro other
    rw [List.mem_dedup, same, List.mem_singleton]

end Rows

section Aggregates

variable {Value : Type*} [Min Value] [Std.MinEqOr Value]

/-- `MIN` of a column that holds one repeated value is that value. -/
theorem min_of_constant (values : List Value) (value : Value)
    (same : ∀ other, other ∈ values ↔ other = value) : values.min? = some value := by
  cases least : values.min? with
  | none =>
      have member := (same value).mpr rfl
      rw [List.min?_eq_none_iff.mp least] at member
      cases member
  | some found => rw [(same found).mp (List.min?_mem least)]

end Aggregates

section Singletons

variable {Row Value : Type*}

/-- Distinct rows made of the values of a set are one row exactly when the set
is that value. -/
theorem rows_singleton_iff (rows : List Row) (row : Value → Row) (values : Set Value)
    (nodup : rows.Nodup) (injective : Function.Injective row)
    (made : ∀ other ∈ rows, ∃ value, other = row value)
    (holds : ∀ value, row value ∈ rows ↔ value ∈ values) (value : Value) :
    rows = [row value] ↔ values = {value} := by
  constructor
  · intro single
    ext other
    rw [← holds, single, List.mem_singleton, Set.mem_singleton_iff]
    exact injective.eq_iff
  · intro single
    apply List.perm_singleton.mp
    apply (List.perm_ext_iff_of_nodup nodup (List.nodup_singleton _)).mpr
    intro other
    rw [List.mem_singleton]
    constructor
    · intro member
      rcases made other member with ⟨found, shape⟩
      have inside := (holds found).mp (shape ▸ member)
      rw [single, Set.mem_singleton_iff] at inside
      rw [shape, inside]
    · intro shape
      rw [shape, holds, single]
      exact Set.mem_singleton value

end Singletons

section Grouping

variable {Key Row : Type*} [DecidableEq Key]

theorem group_by_keys_nodup (keyOf : Row → Key) (rows : List Row) :
    ((groupBy keyOf rows).map Prod.fst).Nodup :=
  group_pairs_keys_nodup _

/-- A group's key tells its members. -/
theorem group_by_members (keyOf : Row → Key) (rows : List Row) (group : Key × List Row)
    (member : group ∈ groupBy keyOf rows) (row : Row) :
    row ∈ group.2 ↔ row ∈ rows ∧ keyOf row = group.1 := by
  rw [((mem_group_by keyOf rows group.1 group.2).mp member).1, List.mem_filter,
    decide_eq_true_eq]

theorem mem_group_by_keys (keyOf : Row → Key) (rows : List Row) (key : Key) :
    key ∈ (groupBy keyOf rows).map Prod.fst ↔ ∃ row ∈ rows, keyOf row = key := by
  constructor
  · intro found
    rcases List.mem_map.mp found with ⟨group, member, same⟩
    rw [← same]
    exact ((mem_group_by keyOf rows group.1 group.2).mp member).2
  · intro found
    exact List.mem_map.mpr ⟨(key, rows.filter fun row => keyOf row = key),
      (mem_group_by keyOf rows key _).mpr ⟨rfl, found⟩, rfl⟩

end Grouping

end Morai.Foundation.RelationalQuery
