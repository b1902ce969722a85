import Mathlib.Data.List.Nodup
import Mathlib.Data.List.Pairwise

/-!
# Tables numbered by a sequence, and partial unique indexes

The key of such a table is drawn from a sequence. Transactions that insert do
not overlap, so the order of the keys is the order of the commits and a new row
comes last; with overlaps a lower key can be committed after a higher one, which
these tables leave out. A transaction that is rolled back leaves no row but
keeps what it drew. A unique index gives a row a value or,
where the row is outside its `WHERE` or the value is NULL, none; no two rows
have one value.
-/

namespace Morai.Foundation.Serial

set_option autoImplicit false

variable {Row : Type*}

structure SerialTable (id : Row → Nat) where
  rows : List Row
  lastValue : Nat
  ordered : rows.Pairwise fun earlier later => id earlier < id later
  drawn : ∀ row ∈ rows, id row ≤ lastValue

namespace SerialTable

variable {id : Row → Nat}

def empty : SerialTable id := ⟨[], 0, List.Pairwise.nil, by simp⟩

def get? (table : SerialTable id) (wanted : Nat) : Option Row :=
  table.rows.find? fun row => id row = wanted

/-- `nextval`, so many times, for rows that did not stay. -/
def draw (table : SerialTable id) (count : Nat) : SerialTable id where
  rows := table.rows
  lastValue := table.lastValue + count
  ordered := table.ordered
  drawn row member := Nat.le_add_right_of_le (table.drawn row member)

/-- `INSERT` of a row that takes its key from the sequence. -/
def insert (table : SerialTable id) (make : Nat → Row) (numbered : ∀ value, id (make value) = value) :
    SerialTable id where
  rows := table.rows ++ [make (table.lastValue + 1)]
  lastValue := table.lastValue + 1
  ordered := by
    refine List.pairwise_append.mpr ⟨table.ordered, by simp, ?_⟩
    intro earlier member later last
    rw [List.mem_singleton.mp last, numbered]
    exact Nat.lt_succ_of_le (table.drawn earlier member)
  drawn := by
    intro row member
    cases List.mem_append.mp member with
    | inl old => exact Nat.le_succ_of_le (table.drawn row old)
    | inr new =>
        have keyed : id row = table.lastValue + 1 := by rw [List.mem_singleton.mp new, numbered]
        exact Nat.le_of_eq keyed

/-- `UPDATE ... SET ... WHERE`, of columns other than the key. -/
def update (table : SerialTable id) (chosen : Row → Bool) (set : Row → Row)
    (keeps : ∀ row, id (set row) = id row) : SerialTable id where
  rows := table.rows.map fun row => if chosen row then set row else row
  lastValue := table.lastValue
  ordered := by
    rw [List.pairwise_map]
    refine table.ordered.imp fun {earlier later} before => ?_
    split_ifs <;> simpa only [keeps] using before
  drawn := by
    intro row member
    obtain ⟨old, oldMember, made⟩ := List.mem_map.mp member
    have bound := table.drawn old oldMember
    rw [← made]
    split_ifs
    · rwa [keeps]
    · exact bound

/-- `DELETE ... WHERE`. -/
def delete (table : SerialTable id) (gone : Row → Bool) : SerialTable id where
  rows := table.rows.filter fun row => !gone row
  lastValue := table.lastValue
  ordered := table.ordered.sublist List.filter_sublist
  drawn row member := table.drawn row (List.mem_of_mem_filter member)

@[simp] theorem draw_rows (table : SerialTable id) (count : Nat) :
    (table.draw count).rows = table.rows := rfl

@[simp] theorem insert_rows (table : SerialTable id) (make : Nat → Row)
    (numbered : ∀ value, id (make value) = value) :
    (table.insert make numbered).rows = table.rows ++ [make (table.lastValue + 1)] := rfl

@[simp] theorem update_rows (table : SerialTable id) (chosen : Row → Bool) (set : Row → Row)
    (keeps : ∀ row, id (set row) = id row) :
    (table.update chosen set keeps).rows =
      table.rows.map fun row => if chosen row then set row else row := rfl

@[simp] theorem delete_rows (table : SerialTable id) (gone : Row → Bool) :
    (table.delete gone).rows = table.rows.filter fun row => !gone row := rfl

theorem eq_of_id (table : SerialTable id) (left right : Row) (leftMember : left ∈ table.rows)
    (rightMember : right ∈ table.rows) (same : id left = id right) : left = right := by
  have nodup : (table.rows.map id).Nodup := by
    rw [List.Nodup, List.pairwise_map]
    exact table.ordered.imp fun before => Nat.ne_of_lt before
  exact List.inj_on_of_nodup_map nodup leftMember rightMember same

theorem get_eq_some_iff (table : SerialTable id) (wanted : Nat) (row : Row) :
    table.get? wanted = some row ↔ row ∈ table.rows ∧ id row = wanted := by
  constructor
  · intro found
    exact ⟨List.mem_of_find?_eq_some found, by simpa using List.find?_some found⟩
  · rintro ⟨member, same⟩
    cases found : table.get? wanted with
    | none =>
        have absent := List.find?_eq_none.mp found row member
        simp [same] at absent
    | some other =>
        have otherId : id other = wanted := by simpa using List.find?_some found
        have otherMember := List.mem_of_find?_eq_some found
        rw [table.eq_of_id other row otherMember member (otherId.trans same.symm)]

theorem get_of_mem (table : SerialTable id) (row : Row) (member : row ∈ table.rows) :
    table.get? (id row) = some row :=
  (table.get_eq_some_iff (id row) row).mpr ⟨member, rfl⟩

theorem get_eq_none_iff (table : SerialTable id) (wanted : Nat) :
    table.get? wanted = none ↔ ∀ row ∈ table.rows, id row ≠ wanted := by
  simp [get?, List.find?_eq_none]

theorem filter_eq_find (rows : List Row) (wanted : Nat)
    (ordered : rows.Pairwise fun earlier later => id earlier < id later) :
    (rows.filter fun row => id row = wanted) = (rows.find? fun row => id row = wanted).toList := by
  induction rows with
  | nil => rfl
  | cons row rest ih =>
      obtain ⟨first, restOrdered⟩ := List.pairwise_cons.mp ordered
      by_cases same : id row = wanted
      · have none : (rest.filter fun later => id later = wanted) = [] := by
          rw [List.filter_eq_nil_iff]
          intro later member
          have after := first later member
          simp only [decide_eq_true_eq]
          omega
        rw [List.filter_cons_of_pos (by simpa using same), none,
          List.find?_cons_of_pos (by simpa using same), Option.toList_some]
      · rw [List.filter_cons_of_neg (by simpa using same),
          List.find?_cons_of_neg (by simpa using same), ih restOrdered]

/-- A number picks out one row. -/
theorem filter_eq_get (table : SerialTable id) (wanted : Nat) :
    (table.rows.filter fun row => id row = wanted) = (table.get? wanted).toList :=
  filter_eq_find table.rows wanted table.ordered

theorem get_undrawn (table : SerialTable id) (wanted : Nat) (beyond : table.lastValue < wanted) :
    table.get? wanted = none := by
  rw [get_eq_none_iff]
  intro row member same
  have bound := table.drawn row member
  omega

@[simp] theorem draw_get (table : SerialTable id) (count wanted : Nat) :
    (table.draw count).get? wanted = table.get? wanted := rfl

theorem insert_get (table : SerialTable id) (make : Nat → Row)
    (numbered : ∀ value, id (make value) = value) (wanted : Nat) :
    (table.insert make numbered).get? wanted =
      if wanted = table.lastValue + 1 then some (make wanted) else table.get? wanted := by
  apply Option.ext
  intro row
  rw [get_eq_some_iff, insert_rows, List.mem_append, List.mem_singleton]
  split_ifs with new
  · subst new
    constructor
    · rintro ⟨old | last, same⟩
      · have bound := table.drawn row old
        omega
      · rw [last]
    · intro made
      cases made
      exact ⟨Or.inr rfl, numbered _⟩
  · rw [get_eq_some_iff]
    constructor
    · rintro ⟨old | last, same⟩
      · exact ⟨old, same⟩
      · rw [last, numbered] at same
        exact absurd same.symm new
    · rintro ⟨old, same⟩
      exact ⟨Or.inl old, same⟩

theorem update_get (table : SerialTable id) (chosen : Row → Bool) (set : Row → Row)
    (keeps : ∀ row, id (set row) = id row) (wanted : Nat) :
    (table.update chosen set keeps).get? wanted =
      (table.get? wanted).map fun row => if chosen row then set row else row := by
  have image : ∀ row, id (if chosen row then set row else row) = id row := by
    intro row
    split_ifs
    · exact keeps row
    · rfl
  apply Option.ext
  intro row
  rw [get_eq_some_iff, update_rows, List.mem_map, Option.map_eq_some_iff]
  constructor
  · rintro ⟨⟨old, member, made⟩, same⟩
    rw [← made, image] at same
    exact ⟨old, (table.get_eq_some_iff wanted old).mpr ⟨member, same⟩, made⟩
  · rintro ⟨old, found, made⟩
    obtain ⟨member, same⟩ := (table.get_eq_some_iff wanted old).mp found
    exact ⟨⟨old, member, made⟩, by rw [← made, image, same]⟩

theorem delete_get (table : SerialTable id) (gone : Row → Bool) (wanted : Nat) :
    (table.delete gone).get? wanted = (table.get? wanted).filter fun row => !gone row := by
  apply Option.ext
  intro row
  rw [get_eq_some_iff, delete_rows, List.mem_filter, Option.filter_eq_some_iff, get_eq_some_iff]
  constructor
  · rintro ⟨⟨member, stays⟩, same⟩
    exact ⟨⟨member, same⟩, stays⟩
  · rintro ⟨⟨member, same⟩, stays⟩
    exact ⟨⟨member, stays⟩, same⟩

end SerialTable

/-! ## Unique indexes -/

section Indexes

variable {Key : Type*}

/-- No two rows have one value in the index. -/
def Indexed (index : Row → Option Key) (rows : List Row) : Prop :=
  (rows.filterMap index).Nodup

instance [DecidableEq Key] (index : Row → Option Key) (rows : List Row) :
    Decidable (Indexed index rows) :=
  inferInstanceAs (Decidable (rows.filterMap index).Nodup)

variable {id : Row → Nat}

/-- On a numbered table an index tells rows apart by their numbers. -/
theorem indexed_iff (table : SerialTable id) (index : Row → Option Key) :
    Indexed index table.rows ↔ ∀ left ∈ table.rows, ∀ right ∈ table.rows, ∀ value,
      index left = some value → index right = some value → id left = id right := by
  rw [Indexed, List.Nodup, List.pairwise_filterMap]
  constructor
  · intro apart
    let alike : Row → Row → Prop := fun left right =>
      ∀ value, index left = some value → index right = some value → id left = id right
    have symmetric : Std.Symm alike :=
      ⟨fun _ _ same value rightValue leftValue => (same value leftValue rightValue).symm⟩
    refine List.Pairwise.forall_of_forall (R := alike) ?_ ?_
    · intro row _ value _ _
      rfl
    · refine apart.imp fun {left right} told value leftValue rightValue => ?_
      exact absurd rfl (told value leftValue value rightValue)
  · intro told
    refine table.ordered.imp_of_mem fun {left right} leftMember rightMember before => ?_
    intro leftValue leftHas rightValue rightHas same
    subst same
    have sameId := told left leftMember right rightMember leftValue leftHas rightHas
    omega

/-- A row is let in where no other has its value. -/
theorem indexed_concat_iff (index : Row → Option Key) (rows : List Row) (row : Row) :
    Indexed index (rows ++ [row]) ↔ Indexed index rows ∧
      ∀ value, index row = some value → ∀ other ∈ rows, index other ≠ some value := by
  unfold Indexed
  rw [List.filterMap_append, List.nodup_append]
  cases valued : index row with
  | none => simp [valued]
  | some value =>
      rw [List.filterMap_cons_some valued, List.filterMap_nil]
      constructor
      · rintro ⟨nodup, _, apart⟩
        refine ⟨nodup, ?_⟩
        intro taken has other member same
        cases has
        exact apart value (List.mem_filterMap.mpr ⟨other, member, same⟩) value List.mem_cons_self rfl
      · rintro ⟨nodup, apart⟩
        refine ⟨nodup, List.nodup_singleton value, ?_⟩
        intro taken there only member same
        obtain ⟨other, otherMember, has⟩ := List.mem_filterMap.mp there
        rw [List.mem_singleton] at member
        exact apart value rfl other otherMember (by rw [has, same, member])

end Indexes

end Morai.Foundation.Serial
