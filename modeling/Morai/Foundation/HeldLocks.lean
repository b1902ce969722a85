import Mathlib.Data.Fintype.Basic
import Mathlib.Logic.Function.Basic

/-!
# Transactions and the locks they hold

Transactions take locks as they go and keep every lock until they end. A
statement that needs a lock another transaction holds is not possible until
that transaction has ended. What a transaction holds is a function of where it
stands.
-/

namespace Morai.Foundation.HeldLocks

set_option autoImplicit false

variable {Lock Txn : Type*}

structure Locking (Lock Txn : Type*) where
  holder : Lock → Option Nat
  txns : Nat → Option Txn

/-- No lock taken and no transaction open. -/
def Locking.idle : Locking Lock Txn := ⟨fun _ => none, fun _ => none⟩

variable (holds : Txn → Lock → Bool)

/-- The transaction moves on to `txn`, if the locks it then holds are free or
its own. -/
def advance [Fintype Lock] (state : Locking Lock Txn) (id : Nat) (txn : Txn) : Option (Locking Lock Txn) :=
  if ∀ lock, holds txn lock = true → state.holder lock = none ∨ state.holder lock = some id then
    some { holder := fun lock => if holds txn lock then some id else state.holder lock
           txns := Function.update state.txns id (some txn) }
  else none

/-- The transaction ends and its locks are free. -/
def finish (state : Locking Lock Txn) (id : Nat) : Locking Lock Txn where
  holder lock := if state.holder lock = some id then none else state.holder lock
  txns := Function.update state.txns id none

def mapTxns (change : Txn → Txn) (state : Locking Lock Txn) : Locking Lock Txn :=
  { state with txns := fun id => (state.txns id).map change }

/-- What a transaction holds is granted to it. -/
def Granted (state : Locking Lock Txn) : Prop :=
  ∀ id txn lock, state.txns id = some txn → holds txn lock = true → state.holder lock = some id

theorem granted_idle : Granted holds (Locking.idle : Locking Lock Txn) := by
  intro id txn lock found
  cases found

theorem advance_eq [Fintype Lock] (state next : Locking Lock Txn) (id : Nat) (txn : Txn)
    (advanced : advance holds state id txn = some next) :
    (∀ lock, holds txn lock = true → state.holder lock = none ∨ state.holder lock = some id) ∧
      next.txns = Function.update state.txns id (some txn) ∧
      ∀ lock, next.holder lock = if holds txn lock then some id else state.holder lock := by
  unfold advance at advanced
  split_ifs at advanced with free
  cases advanced
  exact ⟨free, rfl, fun _ => rfl⟩

theorem granted_advance [Fintype Lock] (state next : Locking Lock Txn) (id : Nat) (txn : Txn)
    (granted : Granted holds state) (advanced : advance holds state id txn = some next) :
    Granted holds next := by
  obtain ⟨free, txns, holder⟩ := advance_eq holds state next id txn advanced
  intro other found lock present held
  rw [txns] at present
  rw [holder]
  by_cases same : other = id
  · subst same
    rw [Function.update_self] at present
    cases present
    exact if_pos held
  · rw [Function.update_of_ne same] at present
    have owned := granted other found lock present held
    split_ifs with taken
    · cases free lock taken with
      | inl unowned => exact absurd (owned.symm.trans unowned) (by simp)
      | inr mine => exact absurd (Option.some.inj (owned.symm.trans mine)) same
    · exact owned

theorem granted_finish (state : Locking Lock Txn) (id : Nat) (granted : Granted holds state) :
    Granted holds (finish state id) := by
  intro other txn lock present held
  by_cases same : other = id
  · subst same
    simp [finish] at present
  · simp only [finish, Function.update_of_ne same] at present
    have owned := granted other txn lock present held
    simp only [finish, owned, Option.some.injEq, same, if_false]

theorem granted_map (change : Txn → Txn) (state : Locking Lock Txn)
    (keeps : ∀ txn, holds (change txn) = holds txn) (granted : Granted holds state) :
    Granted holds (mapTxns change state) := by
  intro id txn lock present held
  obtain ⟨old, found, changed⟩ := Option.map_eq_some_iff.mp present
  rw [← changed, keeps] at held
  exact granted id old lock found held

/-- A transaction still open after another one ended was open before. -/
theorem finish_txns (state : Locking Lock Txn) (id other : Nat) (txn : Txn)
    (found : (finish state id).txns other = some txn) :
    other ≠ id ∧ state.txns other = some txn := by
  by_cases same : other = id
  · subst same
    simp [finish] at found
  · simp only [finish, Function.update_of_ne same] at found
    exact ⟨same, found⟩

/-- After a statement a transaction is the one that moved or is where it
was. -/
theorem advance_txns [Fintype Lock] (state next : Locking Lock Txn) (id other : Nat)
    (txn found : Txn) (advanced : advance holds state id txn = some next)
    (present : next.txns other = some found) :
    (other = id ∧ found = txn) ∨ (other ≠ id ∧ state.txns other = some found) := by
  obtain ⟨_, txns, _⟩ := advance_eq holds state next id txn advanced
  rw [txns] at present
  by_cases same : other = id
  · subst same
    rw [Function.update_self] at present
    exact Or.inl ⟨rfl, (Option.some.inj present).symm⟩
  · rw [Function.update_of_ne same] at present
    exact Or.inr ⟨same, present⟩

/-- Two transactions that hold one lock are the same. -/
theorem granted_exclusive (state : Locking Lock Txn) (granted : Granted holds state)
    (left right : Nat) (leftTxn rightTxn : Txn) (lock : Lock)
    (leftFound : state.txns left = some leftTxn) (leftHolds : holds leftTxn lock = true)
    (rightFound : state.txns right = some rightTxn) (rightHolds : holds rightTxn lock = true) :
    left = right := by
  have first := granted left leftTxn lock leftFound leftHolds
  have second := granted right rightTxn lock rightFound rightHolds
  exact Option.some.inj (first.symm.trans second)

end Morai.Foundation.HeldLocks
