import Mathlib.Data.List.Perm.Basic
import Mathlib.Data.List.Nodup
import Mathlib.Algebra.BigOperators.Group.List.Basic

/-!
# Insertion-ordered grouping

A dictionary of lists that remembers the order in which its keys first
appeared, filled by appending one value at a time under its key. Both a
Python `dict.setdefault(key, []).append(value)` loop and a SQL `GROUP BY`
partition a list in this way; the lemmas here say that nothing is lost,
duplicated or moved to a foreign group.
-/

namespace Morai.Foundation.OrderedGroups

set_option autoImplicit false

variable {Key Value : Type*} [DecidableEq Key]

def pushGroup (key : Key) (value : Value) :
    List (Key × List Value) → List (Key × List Value)
  | [] => [(key, [value])]
  | (other, members) :: rest =>
      if other = key then (other, members ++ [value]) :: rest
      else (other, members) :: pushGroup key value rest

def groupOnto (start : List (Key × List Value)) (pairs : List (Key × Value)) :
    List (Key × List Value) :=
  pairs.foldl (fun groups pair => pushGroup pair.1 pair.2 groups) start

def groupPairs (pairs : List (Key × Value)) : List (Key × List Value) := groupOnto [] pairs

def groupBy (keyOf : Value → Key) (values : List Value) : List (Key × List Value) :=
  groupPairs (values.map fun value => (keyOf value, value))

theorem push_group_keys (key : Key) (value : Value) (groups : List (Key × List Value)) :
    (pushGroup key value groups).map Prod.fst =
      if key ∈ groups.map Prod.fst then groups.map Prod.fst
      else groups.map Prod.fst ++ [key] := by
  induction groups with
  | nil => simp [pushGroup]
  | cons group rest ih =>
      rcases group with ⟨other, members⟩
      by_cases same : other = key
      · simp [pushGroup, same]
      · have different : key ≠ other := fun equal => same equal.symm
        simp only [pushGroup, if_neg same, List.map_cons, ih, List.mem_cons, different,
          false_or]
        split_ifs <;> simp

theorem push_group_keys_nodup (key : Key) (value : Value) (groups : List (Key × List Value))
    (nodup : (groups.map Prod.fst).Nodup) :
    ((pushGroup key value groups).map Prod.fst).Nodup := by
  rw [push_group_keys]
  split_ifs with present
  · exact nodup
  · exact List.nodup_append.mpr ⟨nodup, List.nodup_singleton _, by
      intro left leftMember right rightMember equal
      rw [List.mem_singleton] at rightMember
      exact present (rightMember ▸ equal ▸ leftMember)⟩

/-- The members of a key's group; a key that never appeared has none. -/
def membersAt (groups : List (Key × List Value)) (key : Key) : List Value :=
  match groups with
  | [] => []
  | (other, members) :: rest => if other = key then members else membersAt rest key

theorem members_at_push (key other : Key) (value : Value) (groups : List (Key × List Value)) :
    membersAt (pushGroup key value groups) other =
      membersAt groups other ++ (if key = other then [value] else []) := by
  induction groups with
  | nil => by_cases same : key = other <;> simp [pushGroup, membersAt, same]
  | cons group rest ih =>
      rcases group with ⟨head, members⟩
      by_cases headKey : head = key
      · subst headKey
        by_cases same : head = other <;> simp [pushGroup, membersAt, same]
      · by_cases headOther : head = other
        · have different : key ≠ other := fun equal => headKey (headOther.trans equal.symm)
          subst headOther
          simp [pushGroup, membersAt, headKey, different]
        · simp [pushGroup, membersAt, headKey, headOther, ih]

theorem members_at_eq_of_mem (groups : List (Key × List Value)) (key : Key)
    (members : List Value) (nodup : (groups.map Prod.fst).Nodup)
    (member : (key, members) ∈ groups) : membersAt groups key = members := by
  induction groups with
  | nil => simp at member
  | cons group rest ih =>
      rcases group with ⟨head, headMembers⟩
      simp only [List.map_cons, List.nodup_cons] at nodup
      rcases List.mem_cons.mp member with equal | later
      · cases equal
        simp [membersAt]
      · have different : head ≠ key := by
          intro equal
          exact nodup.1 (List.mem_map.mpr ⟨(key, members), later, equal.symm⟩)
        simpa [membersAt, different] using ih nodup.2 later

/-- The accumulation invariant: keys stay distinct, each group holds exactly
the values filed so far under its key, in order, and a key is present exactly
when it has a value or was there at the start. -/
theorem group_onto_invariant (start : List (Key × List Value)) (pairs : List (Key × Value))
    (nodup : (start.map Prod.fst).Nodup) :
    ((groupOnto start pairs).map Prod.fst).Nodup ∧
      (∀ key, membersAt (groupOnto start pairs) key =
        membersAt start key ++ (pairs.filter fun pair => pair.1 = key).map Prod.snd) ∧
      (∀ key, key ∈ (groupOnto start pairs).map Prod.fst ↔
        key ∈ start.map Prod.fst ∨ key ∈ pairs.map Prod.fst) := by
  induction pairs generalizing start with
  | nil => simp [groupOnto, nodup]
  | cons pair rest ih =>
      rcases pair with ⟨head, value⟩
      have step := ih (pushGroup head value start) (push_group_keys_nodup _ _ _ nodup)
      have unfolded : groupOnto start ((head, value) :: rest) =
          groupOnto (pushGroup head value start) rest := rfl
      rw [unfolded]
      refine ⟨step.1, ?_, ?_⟩
      · intro key
        rw [step.2.1 key, members_at_push]
        by_cases same : head = key <;> simp [same]
      · intro key
        rw [step.2.2 key, push_group_keys, List.map_cons, List.mem_cons]
        by_cases known : head ∈ start.map Prod.fst
        · rw [if_pos known]
          constructor
          · intro present
            rcases present with old | later
            · exact Or.inl old
            · exact Or.inr (Or.inr later)
          · intro present
            rcases present with old | same | later
            · exact Or.inl old
            · exact Or.inl (same ▸ known)
            · exact Or.inr later
        · rw [if_neg known, List.mem_append, List.mem_singleton, or_assoc]

theorem group_pairs_keys_nodup (pairs : List (Key × Value)) :
    ((groupPairs pairs).map Prod.fst).Nodup :=
  (group_onto_invariant [] pairs (by simp)).1

theorem group_pairs_keys_mem (pairs : List (Key × Value)) (key : Key) :
    key ∈ (groupPairs pairs).map Prod.fst ↔ key ∈ pairs.map Prod.fst := by
  have present := (group_onto_invariant [] pairs (by simp)).2.2 key
  rw [List.map_nil] at present
  exact present.trans (or_iff_right List.not_mem_nil)

/-- A group of the partition holds exactly the values filed under its key, and
it is there because at least one value was. -/
theorem mem_group_pairs (pairs : List (Key × Value)) (key : Key) (members : List Value) :
    (key, members) ∈ groupPairs pairs ↔
      members = (pairs.filter fun pair => pair.1 = key).map Prod.snd ∧
        key ∈ pairs.map Prod.fst := by
  have filed : membersAt (groupPairs pairs) key =
      (pairs.filter fun pair => pair.1 = key).map Prod.snd := by
    simpa [groupPairs, membersAt] using (group_onto_invariant [] pairs (by simp)).2.1 key
  constructor
  · intro member
    refine ⟨?_, (group_pairs_keys_mem pairs key).mp (List.mem_map.mpr ⟨_, member, rfl⟩)⟩
    rw [← filed]
    exact (members_at_eq_of_mem _ key members (group_pairs_keys_nodup pairs) member).symm
  · intro shape
    rcases List.mem_map.mp ((group_pairs_keys_mem pairs key).mpr shape.2) with
      ⟨⟨found, foundMembers⟩, member, foundEq⟩
    cases foundEq
    have same := members_at_eq_of_mem _ found foundMembers (group_pairs_keys_nodup pairs) member
    rw [filed] at same
    rw [shape.1, same]
    exact member

/-- The pairs a dictionary of groups stands for. -/
def flatPairs (groups : List (Key × List Value)) : List (Key × Value) :=
  groups.flatMap fun group => group.2.map (Prod.mk group.1)

theorem flat_pairs_push_perm (key : Key) (value : Value) (groups : List (Key × List Value)) :
    (flatPairs (pushGroup key value groups)).Perm (flatPairs groups ++ [(key, value)]) := by
  induction groups with
  | nil => simp [pushGroup, flatPairs]
  | cons group rest ih =>
      rcases group with ⟨other, members⟩
      by_cases same : other = key
      · subst same
        have moved : ([(other, value)] ++ flatPairs rest).Perm
            (flatPairs rest ++ [(other, value)]) := List.perm_append_comm
        simpa [pushGroup, flatPairs] using moved.append_left (members.map (Prod.mk other))
      · simpa [pushGroup, same, flatPairs] using ih.append_left (members.map (Prod.mk other))

theorem flat_pairs_group_onto_perm (start : List (Key × List Value))
    (pairs : List (Key × Value)) :
    (flatPairs (groupOnto start pairs)).Perm (flatPairs start ++ pairs) := by
  induction pairs generalizing start with
  | nil => simp [groupOnto]
  | cons pair rest ih =>
      have pushed := flat_pairs_push_perm pair.1 pair.2 start
      apply (ih (pushGroup pair.1 pair.2 start)).trans
      simpa using pushed.append_right rest

/-- Grouping only rearranges: reading the groups one after the other gives
back every pair exactly as often as it was filed. -/
theorem flat_pairs_group_pairs_perm (pairs : List (Key × Value)) :
    (flatPairs (groupPairs pairs)).Perm pairs := by
  simpa [groupPairs, flatPairs] using flat_pairs_group_onto_perm [] pairs

/-- A sum over all pairs may be taken group by group. -/
theorem sum_group_pairs {Amount : Type*} [AddCommMonoid Amount] (pairs : List (Key × Value))
    (amount : Key → Value → Amount) :
    ((groupPairs pairs).map fun group => (group.2.map (amount group.1)).sum).sum =
      (pairs.map fun pair => amount pair.1 pair.2).sum := by
  have flattened : ∀ groups : List (Key × List Value),
      (groups.map fun group => (group.2.map (amount group.1)).sum).sum =
        ((flatPairs groups).map fun pair => amount pair.1 pair.2).sum := by
    intro groups
    induction groups with
    | nil => rfl
    | cons group rest ih =>
        have unfolded : flatPairs (group :: rest) =
            group.2.map (Prod.mk group.1) ++ flatPairs rest := rfl
        rw [List.map_cons, List.sum_cons, ih, unfolded, List.map_append, List.sum_append,
          List.map_map]
        rfl
  rw [flattened]
  exact ((flat_pairs_group_pairs_perm pairs).map _).sum_eq

theorem mem_group_by (keyOf : Value → Key) (values : List Value) (key : Key)
    (members : List Value) :
    (key, members) ∈ groupBy keyOf values ↔
      members = values.filter (fun value => keyOf value = key) ∧
        ∃ value ∈ values, keyOf value = key := by
  have members_eq : ((values.map fun value => (keyOf value, value)).filter
      fun pair => pair.1 = key).map Prod.snd = values.filter fun value => keyOf value = key := by
    rw [List.filter_map, List.map_map]
    exact List.map_id _
  rw [groupBy, mem_group_pairs, members_eq, List.map_map, List.mem_map]
  rfl

end Morai.Foundation.OrderedGroups
