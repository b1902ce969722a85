import Morai.Identity.Tables
import Mathlib.Data.Multiset.AddSub

/-!
# `delete_account`, statement by statement

The deletion runs inside one transaction. What its next statement sees is what
is committed by then, less the rows its own statements removed; other
transactions still see those until it commits. Only `DELETE FROM positions`
and `DELETE FROM users` remove rows that others refer to, so only these check
foreign keys.
-/

namespace Morai.Identity.Deletion

open Morai.Db Morai.Python Morai.Foundation.PrimaryKey Morai.Identity.Tables

set_option autoImplicit false

/-- The deletions of `delete_account` before that of the user row, in its
order. -/
def deletionOrder : List Table :=
  [.userDataKeys, .events, .legs, .positions, .fills, .brokerTransactions, .sessions,
    .setupTokens, .schwabConnections, .syncRuns]

structure AccountDeletion where
  userId : Uuid
  remaining : List Table
  removed : List Row

namespace AccountDeletion

def begin (userId : Uuid) : AccountDeletion := ⟨userId, deletionOrder, []⟩

def seen (deletion : AccountDeletion) (committed : System) : List Row :=
  committed.rows.diff deletion.removed

/-- The rows `DELETE FROM table WHERE user_id = :user_id` removes. -/
def matching (deletion : AccountDeletion) (committed : System) (table : Table) : List Row :=
  (deletion.seen committed).filter fun row => row.table = table ∧ row.Refers deletion.userId

/-- The row refers to a position among those just removed. -/
def Dangles (gone : List Row) (row : Row) : Prop :=
  row.positionColumn ≠ none ∧ row.positionColumn ∈ gone.map Row.positionId

instance decidableDangles (gone : List Row) (row : Row) : Decidable (Dangles gone row) :=
  inferInstanceAs (Decidable (_ ∧ _))

def statement (deletion : AccountDeletion) (committed : System) (table : Table)
    (rest : List Table) : Except Failure AccountDeletion :=
  let gone := deletion.matching committed table
  let next : AccountDeletion :=
    { deletion with remaining := rest, removed := deletion.removed ++ gone }
  match (next.seen committed).find? fun row => Dangles gone row with
  | some row => .error (.raised (.integrityError (row.foreignKey "position_id")))
  | none => .ok next

/-- The first column of the row that refers to the user. -/
def referringColumn (row : Row) (userId : Uuid) : String :=
  ((row.userColumns.find? fun column => column.2 = userId).map Prod.fst).getD ""

/-- `DELETE FROM users`, and `COMMIT`. -/
def finish (deletion : AccountDeletion) (committed : System) : Except Failure System :=
  match (deletion.seen committed).find? fun row => row.Refers deletion.userId with
  | some row =>
      .error (.raised (.integrityError (row.foreignKey (referringColumn row deletion.userId))))
  | none =>
      .ok { committed.without deletion.removed with
            users := committed.users.filter fun user => user.id ≠ deletion.userId }

end AccountDeletion

/-- The statements before the last while nobody else commits; `faults` says
which of them something outside the code makes raise. -/
def runStatements (faults : Table → Option Failure) (committed : System) :
    List Table → AccountDeletion → Except Failure AccountDeletion
  | [], deletion => .ok deletion
  | table :: rest, deletion =>
      match faults table with
      | some failure => .error failure
      | none =>
          match deletion.statement committed table rest with
          | .error failure => .error failure
          | .ok next => runStatements faults committed rest next

def deleteAccount (faults : Table → Option Failure) (userId : Uuid) (system : System) :
    Except Failure System :=
  match runStatements faults system deletionOrder (.begin userId) with
  | .error failure => .error failure
  | .ok deletion => deletion.finish system

/-! ## What a statement removes -/

namespace AccountDeletion

/-- The deletion has removed rows of its user only. -/
def OwnRows (deletion : AccountDeletion) : Prop :=
  ∀ row ∈ deletion.removed, row.Refers deletion.userId

theorem begin_own_rows (userId : Uuid) : (begin userId).OwnRows := by
  intro row member
  cases member

theorem statement_ok (deletion next : AccountDeletion) (committed : System) (table : Table)
    (rest : List Table) (ran : deletion.statement committed table rest = .ok next) :
    next = { deletion with
      remaining := rest, removed := deletion.removed ++ deletion.matching committed table } := by
  simp only [statement] at ran
  split at ran
  · cases ran
  · cases ran
    rfl

theorem statement_own_rows (deletion next : AccountDeletion) (committed : System) (table : Table)
    (rest : List Table) (own : deletion.OwnRows)
    (ran : deletion.statement committed table rest = .ok next) :
    next.userId = deletion.userId ∧ next.OwnRows := by
  rw [statement_ok deletion next committed table rest ran]
  refine ⟨rfl, ?_⟩
  intro row member
  cases List.mem_append.mp member with
  | inl old => exact own row old
  | inr new => exact (of_decide_eq_true (List.mem_filter.mp new).2).2

theorem mem_removed_of_not_seen (deletion : AccountDeletion) (committed : System) (row : Row)
    (stored : row ∈ committed.rows) (unseen : row ∉ deletion.seen committed) :
    row ∈ deletion.removed := by
  by_contra kept
  exact unseen (List.mem_diff_of_mem stored kept)

/-- After its statement no row of the user is left in the table. -/
theorem statement_empties (deletion next : AccountDeletion) (committed : System) (table : Table)
    (rest : List Table) (ran : deletion.statement committed table rest = .ok next) (row : Row)
    (member : row ∈ next.seen committed) :
    row ∈ deletion.seen committed ∧ ¬(row.table = table ∧ row.Refers deletion.userId) := by
  rw [statement_ok deletion next committed table rest ran] at member
  simp only [seen, List.diff_append] at member
  have before : row ∈ deletion.seen committed := List.diff_subset _ _ member
  refine ⟨before, ?_⟩
  intro matches_
  have counted : 0 < List.count row ((deletion.seen committed).diff
      (deletion.matching committed table)) := List.count_pos_iff.mpr member
  have whole : List.count row (deletion.matching committed table) =
      List.count row (deletion.seen committed) := by
    apply List.count_filter
    simpa using matches_
  have less := Multiset.count_sub row (deletion.seen committed : Multiset Row)
    (deletion.matching committed table)
  rw [Multiset.coe_sub, Multiset.coe_count, Multiset.coe_count, Multiset.coe_count, whole] at less
  omega

/-- A deletion that returns has removed exactly what referred to its user. -/
theorem removed_iff (deletion : AccountDeletion) (committed after : System)
    (own : deletion.OwnRows) (ran : deletion.finish committed = .ok after) (row : Row)
    (stored : row ∈ committed.rows) : row ∈ deletion.removed ↔ row.Refers deletion.userId := by
  unfold finish at ran
  split at ran
  · cases ran
  · rename_i clear
    constructor
    · exact own row
    · intro refers
      apply mem_removed_of_not_seen deletion committed row stored
      intro seen
      exact absurd refers (by simpa using List.find?_eq_none.mp clear row seen)

/-- The user row goes only when no row is left that refers to it, and then all
that did are gone with it. -/
theorem finish_ok (deletion : AccountDeletion) (committed after : System)
    (own : deletion.OwnRows) (ran : deletion.finish committed = .ok after) :
    after.users = committed.users.filter (fun user => user.id ≠ deletion.userId) ∧
      after.ledger.userDataKeys.rows = committed.ledger.userDataKeys.rows.filter
        (fun row => row.userId ≠ deletion.userId) ∧
      ∀ row, row ∈ after.rows ↔ row ∈ committed.rows ∧ ¬row.Refers deletion.userId := by
  have removedIff := removed_iff deletion committed after own ran
  unfold finish at ran
  split at ran
  · cases ran
  · cases ran
    refine ⟨rfl, ?_, ?_⟩
    · apply List.filter_congr
      intro row stored
      have iff := removedIff (.userDataKey row) ((mem_rows_user_data_key committed row).mpr stored)
      simp only [Row.Refers, Row.userColumns, List.map_cons, List.map_nil,
        List.mem_singleton, eq_comm (a := deletion.userId)] at iff
      simp only [iff, ne_eq]
    · intro row
      have same : ({ committed.without deletion.removed with
          users := committed.users.filter fun user => user.id ≠ deletion.userId } : System).rows =
          (committed.without deletion.removed).rows := rfl
      rw [same, mem_without_rows]
      constructor
      · intro kept
        exact ⟨kept.1, fun refers => kept.2 ((removedIff row kept.1).mpr refers)⟩
      · intro kept
        exact ⟨kept.1, fun removed => kept.2 ((removedIff row kept.1).mp removed)⟩

end AccountDeletion

theorem run_statements_own_rows (faults : Table → Option Failure) (committed : System)
    (tables : List Table) (deletion after : AccountDeletion) (own : deletion.OwnRows)
    (ran : runStatements faults committed tables deletion = .ok after) :
    after.userId = deletion.userId ∧ after.OwnRows := by
  induction tables generalizing deletion with
  | nil =>
      cases ran
      exact ⟨rfl, own⟩
  | cons table rest ih =>
      simp only [runStatements] at ran
      split at ran
      · cases ran
      · split at ran
        · cases ran
        · rename_i next stepped
          have kept := AccountDeletion.statement_own_rows deletion next committed table rest own
            stepped
          rcases ih next kept.2 ran with ⟨same, afterOwn⟩
          exact ⟨same.trans kept.1, afterOwn⟩

/-- A deletion that returned took the user, the user's keys and every row that
referred to the user, and nothing else. -/
theorem delete_account_ok (faults : Table → Option Failure) (userId : Uuid)
    (system after : System) (ran : deleteAccount faults userId system = .ok after) :
    after.users = system.users.filter (fun user => user.id ≠ userId) ∧
      after.ledger.userDataKeys.rows = system.ledger.userDataKeys.rows.filter
        (fun row => row.userId ≠ userId) ∧
      ∀ row, row ∈ after.rows ↔ row ∈ system.rows ∧ ¬row.Refers userId := by
  unfold deleteAccount at ran
  split at ran
  · cases ran
  · rename_i deletion stepped
    rcases run_statements_own_rows faults system deletionOrder _ deletion
      (AccountDeletion.begin_own_rows userId) stepped with ⟨same, own⟩
    have finished := AccountDeletion.finish_ok deletion system after own ran
    rw [same] at finished
    exact finished

end Morai.Identity.Deletion
