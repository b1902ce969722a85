import Mathlib.Data.List.Nodup

/-!
# Tables with a primary key

A table carries the proof that no two of its rows share a key, so a table
that violates its primary key cannot be built. The main write modelled here
is `INSERT ... ON CONFLICT DO NOTHING RETURNING`: rows are tried in order, a
row whose key is already present (in the table or earlier in the same
statement) is skipped, and the rows that landed are returned.
-/

namespace Morai.Foundation.PrimaryKey

set_option autoImplicit false

variable {Row Key : Type*} [DecidableEq Key]

structure KeyedTable (key : Row → Key) where
  rows : List Row
  unique : (rows.map key).Nodup

variable {key : Row → Key}

omit [DecidableEq Key] in
theorem table_eq_of_rows (left right : KeyedTable key) (same : left.rows = right.rows) :
    left = right := by
  cases left
  cases right
  cases same
  rfl

def KeyedTable.empty : KeyedTable key := ⟨[], by simp⟩

def KeyedTable.Has (table : KeyedTable key) (wanted : Key) : Prop :=
  wanted ∈ table.rows.map key

instance (table : KeyedTable key) (wanted : Key) : Decidable (table.Has wanted) :=
  inferInstanceAs (Decidable (wanted ∈ table.rows.map key))

/-- The row stored under a key, at most one by the primary key. -/
def KeyedTable.get? (table : KeyedTable key) (wanted : Key) : Option Row :=
  table.rows.find? fun row => key row = wanted

def KeyedTable.push (table : KeyedTable key) (row : Row) (fresh : ¬table.Has (key row)) :
    KeyedTable key where
  rows := table.rows ++ [row]
  unique := by
    rw [List.map_append]
    refine List.nodup_append.mpr ⟨table.unique, by simp, ?_⟩
    intro left leftMember right rightMember equal
    simp only [List.map_cons, List.map_nil, List.mem_singleton] at rightMember
    exact fresh (rightMember ▸ equal ▸ leftMember)

def insertOne (table : KeyedTable key) (row : Row) : KeyedTable key × List Row :=
  if fresh : table.Has (key row) then (table, []) else (table.push row fresh, [row])

/-- One multi-row statement; the second component is its `RETURNING` list. -/
def insertOrSkip (table : KeyedTable key) : List Row → KeyedTable key × List Row
  | [] => (table, [])
  | row :: rest =>
      let first := insertOne table row
      let later := insertOrSkip first.1 rest
      (later.1, first.2 ++ later.2)

theorem insert_one_rows (table : KeyedTable key) (row : Row) :
    (insertOne table row).1.rows = table.rows ++ (insertOne table row).2 := by
  unfold insertOne
  split_ifs <;> simp [KeyedTable.push]

theorem insert_or_skip_rows (table : KeyedTable key) (incoming : List Row) :
    (insertOrSkip table incoming).1.rows = table.rows ++ (insertOrSkip table incoming).2 := by
  induction incoming generalizing table with
  | nil => simp [insertOrSkip]
  | cons row rest ih =>
      simp only [insertOrSkip]
      rw [ih, insert_one_rows, List.append_assoc]

/-- Splitting one statement in two changes neither the table nor what is
returned, so the place of a chunk boundary is invisible. -/
theorem insert_or_skip_append (table : KeyedTable key) (left right : List Row) :
    insertOrSkip table (left ++ right) =
      ((insertOrSkip (insertOrSkip table left).1 right).1,
        (insertOrSkip table left).2 ++ (insertOrSkip (insertOrSkip table left).1 right).2) := by
  induction left generalizing table with
  | nil => simp [insertOrSkip]
  | cons row rest ih => simp only [List.cons_append, insertOrSkip, ih, List.append_assoc]

theorem insert_one_has (table : KeyedTable key) (row : Row) (wanted : Key) :
    (insertOne table row).1.Has wanted ↔ table.Has wanted ∨ key row = wanted := by
  unfold insertOne
  split_ifs with present
  · constructor
    · exact Or.inl
    · rintro (old | same)
      · exact old
      · exact same ▸ present
  · simp [KeyedTable.Has, KeyedTable.push, eq_comm]

theorem insert_or_skip_has (table : KeyedTable key) (incoming : List Row) (wanted : Key) :
    (insertOrSkip table incoming).1.Has wanted ↔
      table.Has wanted ∨ wanted ∈ incoming.map key := by
  induction incoming generalizing table with
  | nil => simp [insertOrSkip]
  | cons row rest ih =>
      simp only [insertOrSkip, ih, insert_one_has, List.map_cons, List.mem_cons]
      rw [or_assoc, eq_comm (a := wanted)]

theorem insert_or_skip_returned_mem (table : KeyedTable key) (incoming : List Row) (row : Row)
    (returned : row ∈ (insertOrSkip table incoming).2) :
    row ∈ incoming ∧ ¬table.Has (key row) := by
  induction incoming generalizing table with
  | nil => simp [insertOrSkip] at returned
  | cons head rest ih =>
      simp only [insertOrSkip, List.mem_append] at returned
      rcases returned with now | later
      · unfold insertOne at now
        split_ifs at now with present
        · simp at now
        · rw [List.mem_singleton] at now
          subst now
          exact ⟨List.mem_cons_self, present⟩
      · obtain ⟨member, absent⟩ := ih _ later
        rw [insert_one_has, not_or] at absent
        exact ⟨List.mem_cons_of_mem _ member, absent.1⟩

/-- What holds of every row added so far and of every incoming row holds of
every row added after the statement. -/
theorem insert_or_skip_added (table : KeyedTable key) (start incoming : List Row)
    (shaped : Row → Prop)
    (before : ∃ added, table.rows = start ++ added ∧ ∀ row ∈ added, shaped row)
    (new : ∀ row ∈ incoming, shaped row) :
    ∃ added, (insertOrSkip table incoming).1.rows = start ++ added ∧ ∀ row ∈ added, shaped row := by
  obtain ⟨added, rows, shapes⟩ := before
  refine ⟨added ++ (insertOrSkip table incoming).2, ?_, ?_⟩
  · rw [insert_or_skip_rows, rows, List.append_assoc]
  · intro row member
    cases List.mem_append.mp member with
    | inl old => exact shapes row old
    | inr returned => exact new row (insert_or_skip_returned_mem table incoming row returned).1

/-- Rows whose keys are all there bring nothing. -/
theorem insert_or_skip_settled (table : KeyedTable key) (incoming : List Row)
    (present : ∀ row ∈ incoming, table.Has (key row)) : (insertOrSkip table incoming).2 = [] := by
  by_contra some
  obtain ⟨row, returned⟩ := List.exists_mem_of_ne_nil _ some
  obtain ⟨member, absent⟩ := insert_or_skip_returned_mem table incoming row returned
  exact absent (present row member)

/-- A statement changes nothing exactly when all its keys are there. -/
theorem insert_or_skip_same_iff (table : KeyedTable key) (incoming : List Row) :
    insertOrSkip table incoming = (table, []) ↔ ∀ row ∈ incoming, table.Has (key row) := by
  constructor
  · intro same row member
    have offered : key row ∈ incoming.map key := List.mem_map.mpr ⟨row, member, rfl⟩
    have present := (insert_or_skip_has table incoming (key row)).mpr (Or.inr offered)
    rw [same] at present
    exact present
  · intro present
    have nothing := insert_or_skip_settled table incoming present
    have rows := insert_or_skip_rows table incoming
    rw [nothing, List.append_nil] at rows
    exact Prod.ext (table_eq_of_rows _ _ rows) nothing

theorem insert_or_skip_length_le (table : KeyedTable key) (incoming : List Row) :
    (insertOrSkip table incoming).2.length ≤ incoming.length := by
  induction incoming generalizing table with
  | nil => simp [insertOrSkip]
  | cons row rest ih =>
      have later := ih (insertOne table row).1
      have first : (insertOne table row).2.length ≤ 1 := by
        unfold insertOne
        split_ifs <;> simp
      simp only [insertOrSkip, List.length_append, List.length_cons]
      omega

/-- Every row lands exactly when the incoming keys are new and pairwise
different. -/
theorem insert_or_skip_all_iff (table : KeyedTable key) (incoming : List Row) :
    (insertOrSkip table incoming).2.length = incoming.length ↔
      (incoming.map key).Nodup ∧ ∀ row ∈ incoming, ¬table.Has (key row) := by
  induction incoming generalizing table with
  | nil => simp [insertOrSkip]
  | cons row rest ih =>
      have restBound := insert_or_skip_length_le (insertOne table row).1 rest
      simp only [insertOrSkip, List.length_append, List.length_cons, List.map_cons,
        List.nodup_cons, List.forall_mem_cons]
      by_cases present : table.Has (key row)
      · have none : (insertOne table row).2 = [] := by simp [insertOne, present]
        rw [none, List.length_nil]
        constructor
        · intro count
          omega
        · rintro ⟨_, absent, _⟩
          exact absurd present absent
      · have one : (insertOne table row).2 = [row] := by simp [insertOne, present]
        rw [one, List.length_singleton]
        have shifted : 1 + (insertOrSkip (insertOne table row).1 rest).2.length =
            rest.length + 1 ↔
            (insertOrSkip (insertOne table row).1 rest).2.length = rest.length := by omega
        rw [shifted, ih]
        simp only [insert_one_has, not_or, present, not_false_eq_true, true_and]
        constructor
        · rintro ⟨nodup, absent⟩
          refine ⟨⟨?_, nodup⟩, fun other member => (absent other member).1⟩
          intro repeated
          obtain ⟨other, member, same⟩ := List.mem_map.mp repeated
          exact (absent other member).2 same.symm
        · rintro ⟨⟨notRepeated, nodup⟩, absent⟩
          refine ⟨nodup, fun other member => ⟨absent other member, ?_⟩⟩
          intro same
          exact notRepeated (List.mem_map.mpr ⟨other, member, same.symm⟩)

/-- When every key is new and different, the statement appends its rows as
they are. -/
theorem insert_or_skip_all (table : KeyedTable key) (incoming : List Row)
    (nodup : (incoming.map key).Nodup) (absent : ∀ row ∈ incoming, ¬table.Has (key row)) :
    (insertOrSkip table incoming).2 = incoming := by
  induction incoming generalizing table with
  | nil => rfl
  | cons row rest ih =>
      simp only [List.map_cons, List.nodup_cons] at nodup
      have fresh := absent row List.mem_cons_self
      have one : (insertOne table row).2 = [row] := by simp [insertOne, fresh]
      have laterAbsent : ∀ other ∈ rest, ¬(insertOne table row).1.Has (key other) := by
        intro other member
        rw [insert_one_has, not_or]
        refine ⟨absent other (List.mem_cons_of_mem _ member), ?_⟩
        intro same
        exact nodup.1 (List.mem_map.mpr ⟨other, member, same.symm⟩)
      simp only [insertOrSkip, one, ih _ nodup.2 laterAbsent, List.singleton_append]

theorem get_eq_some_iff (table : KeyedTable key) (wanted : Key) (row : Row) :
    table.get? wanted = some row ↔ row ∈ table.rows ∧ key row = wanted := by
  constructor
  · intro found
    exact ⟨List.mem_of_find?_eq_some found, by simpa using List.find?_some found⟩
  · rintro ⟨member, same⟩
    cases found : table.get? wanted with
    | none =>
        have absent := List.find?_eq_none.mp found row member
        simp [same] at absent
    | some other =>
        have otherMember := List.mem_of_find?_eq_some found
        have otherKey : key other = wanted := by simpa using List.find?_some found
        exact congrArg some
          (List.inj_on_of_nodup_map table.unique otherMember member (otherKey.trans same.symm))

theorem get_eq_none_iff (table : KeyedTable key) (wanted : Key) :
    table.get? wanted = none ↔ ¬table.Has wanted := by
  simp [KeyedTable.get?, KeyedTable.Has, List.find?_eq_none]

theorem push_get (table : KeyedTable key) (row : Row) (fresh : ¬table.Has (key row))
    (wanted : Key) :
    (table.push row fresh).get? wanted =
      (table.get? wanted).or (if key row = wanted then some row else none) := by
  have split : (table.rows ++ [row]).find? (fun old => key old = wanted) =
      (table.rows.find? fun old => key old = wanted).or
        ([row].find? fun old => key old = wanted) := List.find?_append
  unfold KeyedTable.get? KeyedTable.push
  rw [split, List.find?_singleton]
  simp only [decide_eq_true_eq]

/-- First write wins: under each key stands the row that was there, else the
first incoming one. -/
theorem insert_or_skip_get (table : KeyedTable key) (incoming : List Row) (wanted : Key) :
    (insertOrSkip table incoming).1.get? wanted =
      (table.get? wanted).or (incoming.find? fun row => key row = wanted) := by
  induction incoming generalizing table with
  | nil => simp [insertOrSkip]
  | cons row rest ih =>
      simp only [insertOrSkip, ih, insertOne]
      split_ifs with present
      · by_cases same : key row = wanted
        · have stored : table.get? wanted ≠ none := by
            rw [Ne, get_eq_none_iff, not_not, ← same]
            exact present
          obtain ⟨old, found⟩ := Option.ne_none_iff_exists'.mp stored
          rw [found, Option.some_or, Option.some_or]
        · rw [List.find?_cons_of_neg (by simpa using same)]
      · rw [push_get, Option.or_assoc]
        by_cases same : key row = wanted
        · rw [if_pos same, List.find?_cons_of_pos (by simpa using same), Option.some_or]
        · rw [if_neg same, List.find?_cons_of_neg (by simpa using same), Option.none_or]

/-- Under the key of an incoming row stands, after the statement, the row that
was there or an incoming one. -/
theorem insert_or_skip_stored (table : KeyedTable key) (incoming : List Row) (wanted : Key)
    (offered : wanted ∈ incoming.map key) :
    ∃ stored, (insertOrSkip table incoming).1.get? wanted = some stored ∧
      (table.get? wanted = some stored ∨ stored ∈ incoming ∧ key stored = wanted) := by
  obtain ⟨row, member, rowKey⟩ := List.mem_map.mp offered
  rw [insert_or_skip_get]
  cases old : table.get? wanted with
  | some stored => exact ⟨stored, rfl, Or.inl rfl⟩
  | none =>
      cases found : incoming.find? fun row => key row = wanted with
      | none =>
          have absent := List.find?_eq_none.mp found row member
          simp [rowKey] at absent
      | some stored =>
          refine ⟨stored, rfl, Or.inr ⟨List.mem_of_find?_eq_some found, ?_⟩⟩
          simpa using List.find?_some found

/-- `INSERT ... ON CONFLICT DO UPDATE`, and an `UPDATE` by key, once the new
version of the row is known. -/
def KeyedTable.put (table : KeyedTable key) (row : Row) : KeyedTable key :=
  if present : table.Has (key row) then
    { rows := table.rows.map fun old => if key old = key row then row else old
      unique := by
        have kept : (table.rows.map fun old => if key old = key row then row else old).map key =
            table.rows.map key := by
          rw [List.map_map]
          apply List.map_congr_left
          intro old _
          simp only [Function.comp_apply]
          split_ifs with same
          · exact same.symm
          · rfl
        rw [kept]
        exact table.unique }
  else table.push row present

theorem put_get (table : KeyedTable key) (row : Row) (wanted : Key) :
    (table.put row).get? wanted = if key row = wanted then some row else table.get? wanted := by
  unfold KeyedTable.put
  split_ifs with present same other
  · rw [get_eq_some_iff]
    obtain ⟨old, member, oldKey⟩ := List.mem_map.mp present
    exact ⟨List.mem_map.mpr ⟨old, member, if_pos oldKey⟩, same⟩
  · apply Option.ext
    intro found
    rw [get_eq_some_iff, get_eq_some_iff]
    constructor
    · intro stored
      obtain ⟨old, member, shape⟩ := List.mem_map.mp stored.1
      split_ifs at shape with replaced
      · exact absurd (shape ▸ stored.2) same
      · exact ⟨shape ▸ member, stored.2⟩
    · intro stored
      refine ⟨List.mem_map.mpr ⟨found, stored.1, if_neg ?_⟩, stored.2⟩
      intro replaced
      exact same (replaced.symm.trans stored.2)
  · have absent : table.get? wanted = none := by
      rw [get_eq_none_iff, ← other]
      exact present
    rw [push_get, absent, if_pos other, Option.none_or]
  · rw [push_get, if_neg other, Option.or_none]

/-- `DELETE ... WHERE`: the rows that stay. -/
def KeyedTable.filter (table : KeyedTable key) (stays : Row → Bool) : KeyedTable key where
  rows := table.rows.filter stays
  unique := table.unique.sublist (List.filter_sublist.map _)

theorem fold_put_other (table : KeyedTable key) (updates : List Row) (wanted : Key)
    (untouched : wanted ∉ updates.map key) :
    (updates.foldl KeyedTable.put table).get? wanted = table.get? wanted := by
  induction updates generalizing table with
  | nil => rfl
  | cons row rest ih =>
      simp only [List.map_cons, List.mem_cons, not_or] at untouched
      rw [List.foldl_cons, ih _ untouched.2, put_get, if_neg (Ne.symm untouched.1)]

/-- After a batch of updates with different keys each of them is what its key
holds. -/
theorem fold_put_member (table : KeyedTable key) (updates : List Row)
    (nodup : (updates.map key).Nodup) (row : Row) (member : row ∈ updates) :
    (updates.foldl KeyedTable.put table).get? (key row) = some row := by
  induction updates generalizing table with
  | nil => cases member
  | cons head rest ih =>
      rw [List.map_cons, List.nodup_cons] at nodup
      rw [List.foldl_cons]
      cases List.mem_cons.mp member with
      | inl first => rw [first, fold_put_other _ _ _ nodup.1, put_get, if_pos rfl]
      | inr later => exact ih _ nodup.2 later

/-! ## Two tables in lock-step -/

section Related

variable {Image : Type*} {imageKey : Image → Key} (related : Row → Image → Prop)

omit [DecidableEq Key] in
theorem related_keys (keysAgree : ∀ row image, related row image → key row = imageKey image)
    (rows : List Row) (images : List Image) (all : List.Forall₂ related rows images) :
    rows.map key = images.map imageKey := by
  induction all with
  | nil => rfl
  | cons head _ ih => rw [List.map_cons, List.map_cons, keysAgree _ _ head, ih]

/-- Where related rows have equal keys, a statement of related rows keeps two
tables related: the same rows land in both. -/
theorem insert_or_skip_related
    (keysAgree : ∀ row image, related row image → key row = imageKey image)
    (table : KeyedTable key) (imageTable : KeyedTable imageKey) (incoming : List Row)
    (images : List Image) (stored : List.Forall₂ related table.rows imageTable.rows)
    (offered : List.Forall₂ related incoming images) :
    List.Forall₂ related (insertOrSkip table incoming).1.rows
      (insertOrSkip imageTable images).1.rows := by
  induction offered generalizing table imageTable with
  | nil => exact stored
  | @cons row image rest restImages head tail ih =>
      simp only [insertOrSkip]
      apply ih
      have sameKeys := related_keys related keysAgree _ _ stored
      have sameKey := keysAgree _ _ head
      have samePresence : table.Has (key row) ↔ imageTable.Has (imageKey image) := by
        rw [KeyedTable.Has, KeyedTable.Has, sameKeys, sameKey]
      unfold insertOne
      by_cases present : table.Has (key row)
      · rw [dif_pos present, dif_pos (samePresence.mp present)]
        exact stored
      · rw [dif_neg present, dif_neg fun has => present (samePresence.mpr has)]
        exact List.rel_append stored (List.Forall₂.cons head List.Forall₂.nil)

omit [DecidableEq Key] in
theorem related_left (rows : List Row) (images : List Image)
    (all : List.Forall₂ related rows images) (row : Row) (member : row ∈ rows) :
    ∃ image ∈ images, related row image := by
  induction all with
  | nil => cases member
  | cons head _ ih =>
      cases List.mem_cons.mp member with
      | inl first => exact ⟨_, List.mem_cons_self, first ▸ head⟩
      | inr later =>
          rcases ih later with ⟨image, imageMember, holds⟩
          exact ⟨image, List.mem_cons_of_mem _ imageMember, holds⟩

/-- Related tables answer a lookup with related rows. -/
theorem related_find (keysAgree : ∀ row image, related row image → key row = imageKey image)
    (rows : List Row) (images : List Image) (all : List.Forall₂ related rows images)
    (wanted : Key) :
    Option.Rel related (rows.find? fun row => key row = wanted)
      (images.find? fun image => imageKey image = wanted) := by
  induction all with
  | nil => exact Option.Rel.none
  | @cons row image rest restImages head tail ih =>
      have sameKey := keysAgree _ _ head
      by_cases found : key row = wanted
      · rw [List.find?_cons_of_pos (by simpa using found),
          List.find?_cons_of_pos (by simpa using sameKey ▸ found)]
        exact Option.Rel.some head
      · rw [List.find?_cons_of_neg (by simpa using found),
          List.find?_cons_of_neg (by simpa using sameKey ▸ found)]
        exact ih

end Related

/-- Cut a list into consecutive pieces of the given size, the last possibly
shorter. The fuel is the length of the list, so it never runs out. -/
def chunksWithin {Item : Type*} (size : Nat) : Nat → List Item → List (List Item)
  | 0, _ => []
  | _ + 1, [] => []
  | fuel + 1, items => items.take size :: chunksWithin size fuel (items.drop size)

def chunksOf {Item : Type*} (size : Nat) (items : List Item) : List (List Item) :=
  chunksWithin size items.length items

theorem chunks_within_flatten {Item : Type*} (size fuel : Nat) (items : List Item)
    (positive : 0 < size) (enough : items.length ≤ fuel) :
    (chunksWithin size fuel items).flatten = items := by
  induction fuel generalizing items with
  | zero =>
      have empty : items = [] := List.eq_nil_of_length_eq_zero (by omega)
      simp [chunksWithin, empty]
  | succ fuel ih =>
      cases items with
      | nil => simp [chunksWithin]
      | cons item rest =>
          have shorter : ((item :: rest).drop size).length ≤ fuel := by
            simp only [List.length_drop, List.length_cons] at enough ⊢
            omega
          simp only [chunksWithin, List.flatten_cons, ih _ shorter, List.take_append_drop]

theorem chunks_of_flatten {Item : Type*} (size : Nat) (items : List Item)
    (positive : 0 < size) : (chunksOf size items).flatten = items :=
  chunks_within_flatten size items.length items positive (Nat.le_refl _)

/-- One statement per chunk, the table handed from each to the next. -/
def insertChunked (table : KeyedTable key) : List (List Row) → KeyedTable key × List Row
  | [] => (table, [])
  | chunk :: rest =>
      let first := insertOrSkip table chunk
      let later := insertChunked first.1 rest
      (later.1, first.2 ++ later.2)

theorem insert_chunked_flatten (table : KeyedTable key) (chunks : List (List Row)) :
    insertChunked table chunks = insertOrSkip table chunks.flatten := by
  induction chunks generalizing table with
  | nil => rfl
  | cons chunk rest ih =>
      simp only [insertChunked, List.flatten_cons, insert_or_skip_append, ih]

/-- What a first-wins insert of the rows leaves and reports: stored rows stay
as they are, each new key holds the first row offered under it, and the count
is how much the table grew. -/
structure FirstWins (before after : KeyedTable key) (incoming : List Row) (landed : Nat) : Prop where
  grown : ∃ added, after.rows = before.rows ++ added ∧ added.length = landed
  rows : ∀ wanted, after.get? wanted =
    (before.get? wanted).or (incoming.find? fun row => key row = wanted)

theorem insert_or_skip_first_wins (table : KeyedTable key) (incoming : List Row) :
    FirstWins table (insertOrSkip table incoming).1 incoming
      (insertOrSkip table incoming).2.length where
  grown := ⟨_, insert_or_skip_rows table incoming, rfl⟩
  rows := insert_or_skip_get table incoming

/-- However the items are cut into statements, it is one statement of all. -/
theorem insert_chunked_pieces {Item : Type*} (table : KeyedTable key) (rowOf : Item → Row)
    (pieces : List (List Item)) :
    insertChunked table (pieces.map (List.map rowOf)) =
      insertOrSkip table (pieces.flatten.map rowOf) := by
  rw [insert_chunked_flatten, List.map_flatten]

end Morai.Foundation.PrimaryKey
