import Mathlib.Logic.Function.Basic

/-!
# Transactions and the row locks they hold

A transaction holds row locks of several strengths, each until it ends, and a
statement waits while another transaction holds a lock that clashes with one
of its own. Transactions are numbered in the order they were opened; a number
is not used again.
-/

namespace Morai.Foundation.RowLocks

set_option autoImplicit false

/-- `FOR KEY SHARE`, which a foreign key check takes, `FOR NO KEY UPDATE` of
an `UPDATE`, and `FOR UPDATE` of a `DELETE`. A row just inserted, a unique key
and an advisory lock are held as the last. -/
inductive Mode where
  | keyShare
  | noKeyUpdate
  | update
  deriving DecidableEq, Repr

def Mode.clashes : Mode → Mode → Bool
  | .keyShare, .update => true
  | .update, .keyShare => true
  | .keyShare, _ => false
  | _, .keyShare => false
  | _, _ => true

structure Hold (Resource : Type*) where
  resource : Resource
  mode : Mode

variable {Resource Txn : Type*} [DecidableEq Resource]

def Hold.clashes (left right : Hold Resource) : Bool :=
  decide (left.resource = right.resource) && left.mode.clashes right.mode

def clash (left right : List (Hold Resource)) : Bool :=
  left.any fun hold => right.any hold.clashes

/-- The transactions opened so far; one that has ended is `none` again. -/
structure Opened (Txn : Type*) where
  count : Nat
  txns : Nat → Option Txn
  bounded : ∀ id, count ≤ id → txns id = none

namespace Opened

def empty : Opened Txn := ⟨0, fun _ => none, fun _ _ => rfl⟩

def enter (opened : Opened Txn) (txn : Txn) : Opened Txn where
  count := opened.count + 1
  txns := Function.update opened.txns opened.count (some txn)
  bounded := by
    intro id beyond
    rw [Function.update_of_ne (by omega)]
    exact opened.bounded id (by omega)

def close (opened : Opened Txn) (id : Nat) : Opened Txn where
  count := opened.count
  txns := Function.update opened.txns id none
  bounded := by
    intro other beyond
    by_cases same : other = id
    · rw [same, Function.update_self]
    · rw [Function.update_of_ne same]
      exact opened.bounded other beyond

/-- An open transaction moves on. -/
def replace (opened : Opened Txn) (id : Nat) (txn : Txn) (present : (opened.txns id).isSome) :
    Opened Txn where
  count := opened.count
  txns := Function.update opened.txns id (some txn)
  bounded := by
    intro other beyond
    by_cases same : other = id
    · subst same
      rw [opened.bounded other beyond] at present
      cases present
    · rw [Function.update_of_ne same]
      exact opened.bounded other beyond

variable (holds : Txn → List (Hold Resource))

/-- Nobody else holds a lock that clashes with these. -/
def Free (opened : Opened Txn) (id : Nat) (wanted : List (Hold Resource)) : Prop :=
  ∀ other < opened.count, other ≠ id → ∀ txn ∈ opened.txns other, clash wanted (holds txn) = false

instance decidableFree (opened : Opened Txn) (id : Nat) (wanted : List (Hold Resource)) :
    Decidable (opened.Free holds id wanted) :=
  inferInstanceAs (Decidable (∀ other < opened.count, other ≠ id →
    ∀ txn ∈ opened.txns other, clash wanted (holds txn) = false))

/-- No two open transactions hold clashing locks. -/
def Apart (opened : Opened Txn) : Prop :=
  ∀ left right leftTxn rightTxn, opened.txns left = some leftTxn →
    opened.txns right = some rightTxn → left ≠ right →
    clash (holds leftTxn) (holds rightTxn) = false

end Opened

theorem clash_iff (left right : List (Hold Resource)) :
    clash left right = true ↔ ∃ mine ∈ left, ∃ theirs ∈ right,
      mine.resource = theirs.resource ∧ mine.mode.clashes theirs.mode = true := by
  simp [clash, Hold.clashes]

theorem mode_clashes_comm (left right : Mode) : left.clashes right = right.clashes left := by
  cases left <;> cases right <;> rfl

theorem clash_comm (left right : List (Hold Resource)) : clash left right = clash right left := by
  apply Bool.eq_iff_iff.mpr
  rw [clash_iff, clash_iff]
  constructor
  · rintro ⟨mine, held, theirs, wanted, same, modes⟩
    exact ⟨theirs, wanted, mine, held, same.symm, mode_clashes_comm _ _ ▸ modes⟩
  · rintro ⟨mine, held, theirs, wanted, same, modes⟩
    exact ⟨theirs, wanted, mine, held, same.symm, mode_clashes_comm _ _ ▸ modes⟩

/-- Two locks on one thing that clash are not both held. -/
theorem no_clash (left right : List (Hold Resource)) (apart : clash left right = false)
    (resource : Resource) (mine theirs : Mode) (held : ⟨resource, mine⟩ ∈ left)
    (wanted : ⟨resource, theirs⟩ ∈ right) (modes : mine.clashes theirs = true) : False := by
  have clashing := (clash_iff left right).mpr
    ⟨⟨resource, mine⟩, held, ⟨resource, theirs⟩, wanted, rfl, modes⟩
  rw [apart] at clashing
  cases clashing

namespace Opened

variable (opened : Opened Txn) (holds : Txn → List (Hold Resource))

theorem enter_txns (txn found : Txn) (id : Nat) (present : (opened.enter txn).txns id = some found) :
    (id = opened.count ∧ found = txn) ∨ opened.txns id = some found := by
  by_cases same : id = opened.count
  · subst same
    simp only [enter, Function.update_self] at present
    exact Or.inl ⟨rfl, (Option.some.inj present).symm⟩
  · simp only [enter, ne_eq, same, not_false_eq_true, Function.update_of_ne] at present
    exact Or.inr present

theorem close_txns (id other : Nat) (found : Txn) (present : (opened.close id).txns other = some found) :
    other ≠ id ∧ opened.txns other = some found := by
  by_cases same : other = id
  · subst same
    simp only [close, Function.update_self] at present
    cases present
  · simp only [close, ne_eq, same, not_false_eq_true, Function.update_of_ne] at present
    exact ⟨same, present⟩

theorem replace_txns (id other : Nat) (txn found : Txn) (open_ : (opened.txns id).isSome)
    (present : (opened.replace id txn open_).txns other = some found) :
    (other = id ∧ found = txn) ∨ (other ≠ id ∧ opened.txns other = some found) := by
  by_cases same : other = id
  · subst same
    simp only [replace, Function.update_self] at present
    exact Or.inl ⟨rfl, (Option.some.inj present).symm⟩
  · simp only [replace, ne_eq, same, not_false_eq_true, Function.update_of_ne] at present
    exact Or.inr ⟨same, present⟩

theorem count_of_open (id : Nat) (txn : Txn) (present : opened.txns id = some txn) :
    id < opened.count := by
  by_contra beyond
  rw [opened.bounded id (Nat.le_of_not_lt beyond)] at present
  cases present

theorem apart_empty : (empty : Opened Txn).Apart holds := by
  intro left right leftTxn rightTxn leftOpen
  cases leftOpen

/-- A transaction begins without locks. -/
theorem apart_enter (txn : Txn) (none : holds txn = []) (apart : opened.Apart holds) :
    (opened.enter txn).Apart holds := by
  intro left right leftTxn rightTxn leftOpen rightOpen differ
  cases opened.enter_txns txn leftTxn left leftOpen with
  | inl new =>
      rw [new.2, none]
      rfl
  | inr leftOld =>
      cases opened.enter_txns txn rightTxn right rightOpen with
      | inl new =>
          rw [new.2, none, clash_comm]
          rfl
      | inr rightOld => exact apart left right leftTxn rightTxn leftOld rightOld differ

theorem apart_close (id : Nat) (apart : opened.Apart holds) : (opened.close id).Apart holds := by
  intro left right leftTxn rightTxn leftOpen rightOpen differ
  have leftOld := (opened.close_txns id left leftTxn leftOpen).2
  have rightOld := (opened.close_txns id right rightTxn rightOpen).2
  exact apart left right leftTxn rightTxn leftOld rightOld differ

theorem apart_replace (id : Nat) (txn : Txn) (open_ : (opened.txns id).isSome)
    (free : opened.Free holds id (holds txn)) (apart : opened.Apart holds) :
    (opened.replace id txn open_).Apart holds := by
  intro left right leftTxn rightTxn leftOpen rightOpen differ
  cases opened.replace_txns id left txn leftTxn open_ leftOpen with
  | inl mine =>
      cases opened.replace_txns id right txn rightTxn open_ rightOpen with
      | inl theirs => exact absurd (mine.1.trans theirs.1.symm) differ
      | inr theirs =>
          rw [mine.2]
          exact free right (opened.count_of_open right rightTxn theirs.2) theirs.1 rightTxn theirs.2
  | inr leftOld =>
      cases opened.replace_txns id right txn rightTxn open_ rightOpen with
      | inl theirs =>
          rw [theirs.2, clash_comm]
          exact free left (opened.count_of_open left leftTxn leftOld.2) leftOld.1 leftTxn leftOld.2
      | inr rightOld => exact apart left right leftTxn rightTxn leftOld.2 rightOld.2 differ

end Opened

end Morai.Foundation.RowLocks
