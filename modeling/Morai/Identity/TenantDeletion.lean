import Morai.Identity.DeletionRuns
import Morai.Identity.TenantSessions

/-!
# `DELETE /me` under the policies

Of the rows its statements see, a deletion leaves what does not name its user,
whatever else those rows hold. What they do not see is left to the foreign
keys.
-/

namespace Morai.Identity.TenantDeletion

open Morai.Db Morai.Python Morai.Foundation.PrimaryKey
open Morai.Identity.Tables Morai.Identity.Deletion Morai.Identity.DeletionRuns
open Morai.Identity.RowSecurity Morai.Identity.TenantSessions

set_option autoImplicit false

/-- What is left of the rows when nothing names the user any more. -/
def gone (userId : Uuid) (system : System) : System :=
  withTenantData
    { system with
      users := system.users.filter fun user => user.id ≠ userId
      sessions := system.sessions.filter fun row => row.userId ≠ userId
      setupTokens := system.setupTokens.filter fun row => row.userId ≠ userId
      auditLog := system.auditLog.filter fun entry => ¬(Row.auditEntry entry).Refers userId }
    ((tenantData system).filter fun owner => owner ≠ userId)

theorem filter_keeps {Stored Key : Type} [DecidableEq Key] {key : Stored → Key}
    (table : KeyedTable key) (left right : Stored → Bool)
    (same : ∀ row ∈ table.rows, left row = right row) : table.filter left = table.filter right :=
  table_eq_of_rows _ _ (List.filter_congr same)

/-- A deletion that returned left exactly that. -/
theorem delete_account_eq (faults : Table → Option Failure) (userId : Uuid)
    (system after : System) (ran : deleteAccount faults userId system = .ok after) :
    after = gone userId system := by
  unfold deleteAccount at ran
  split at ran
  · cases ran
  · rename_i deletion stepped
    obtain ⟨sameUser, own⟩ := run_statements_own_rows faults system deletionOrder _ deletion
      (AccountDeletion.begin_own_rows userId) stepped
    have removed := AccountDeletion.removed_iff deletion system after own ran
    rw [sameUser] at removed
    have stays : ∀ row ∈ system.rows,
        decide (row ∉ deletion.removed) = decide ¬row.Refers userId := by
      intro row stored
      exact decide_eq_decide.mpr (not_congr (removed row stored))
    unfold AccountDeletion.finish at ran
    split at ran
    · cases ran
    · cases ran
      have shape (row : Row) (stored : row ∈ system.rows) (owner : Uuid)
          (columns : row.userColumns = [("user_id", owner)]) :
          decide (row ∉ deletion.removed) = decide (owner ≠ userId) := by
        rw [stays row stored]
        apply decide_eq_decide.mpr
        simp [Row.Refers, columns, eq_comm]
      have data : tenantData (system.without deletion.removed) =
          (tenantData system).filter fun owner => owner ≠ userId := by
        apply TenantData.eq_of_rows <;> apply List.filter_congr <;> intro row member
        · exact shape (.position row) (by simp [System.rows, member]) row.userId rfl
        · exact shape (.userDataKey row) (by simp [System.rows, member]) row.userId rfl
        · exact shape (.fill row) (by simp [System.rows, member]) row.userId rfl
        · exact shape (.leg row) (by simp [System.rows, member]) row.userId rfl
        · exact shape (.event row) (by simp [System.rows, member]) row.userId rfl
        · exact shape (.schwabConnection row) (by simp [System.rows, member]) row.userId rfl
        · exact shape (.brokerTransaction row) (by simp [System.rows, member]) row.userId rfl
        · exact shape (.syncRun row) (by simp [System.rows, member]) row.userId rfl
      have sessions : (system.without deletion.removed).sessions =
          system.sessions.filter fun row => row.userId ≠ userId := by
        apply filter_keeps
        intro row member
        exact shape (.session row) (by simp [System.rows, member]) row.userId rfl
      have setupTokens : (system.without deletion.removed).setupTokens =
          system.setupTokens.filter fun row => row.userId ≠ userId := by
        apply filter_keeps
        intro row member
        exact shape (.setupToken row) (by simp [System.rows, member]) row.userId rfl
      have auditLog : (system.without deletion.removed).auditLog =
          system.auditLog.filter fun entry => ¬(Row.auditEntry entry).Refers userId := by
        apply List.filter_congr
        intro entry member
        exact stays (.auditEntry entry) (by simp [System.rows, member])
      rw [sameUser]
      unfold gone
      rw [← data, ← sessions, ← setupTokens, ← auditLog]
      rfl

/-- With nobody else about, a deletion that is clear to go on goes on. -/
theorem run_statements_returns (system : System) (tables : List Table)
    (deletion : AccountDeletion) (underway : Underway system deletion)
    (remaining : deletion.remaining = tables) :
    ∃ done, runStatements (fun _ => none) system tables deletion = .ok done ∧
      Underway system done ∧ done.remaining = [] := by
  induction tables generalizing deletion with
  | nil => exact ⟨deletion, rfl, underway, remaining⟩
  | cons table rest ih =>
      obtain ⟨next, stepped⟩ := statement_returns system deletion underway table rest remaining
      obtain ⟨_, nextRemaining, nextUnderway⟩ :=
        statement_underway system deletion next underway table rest remaining stepped
      obtain ⟨done, ran, facts⟩ := ih next nextUnderway nextRemaining
      refine ⟨done, ?_, facts⟩
      simp only [runStatements, stepped]
      exact ran

theorem delete_account_returns (userId : Uuid) (system : System)
    (clear : Clear (.begin userId) system) :
    deleteAccount (fun _ => none) userId system = .ok (gone userId system) := by
  have underway : Underway system (.begin userId) :=
    ⟨AccountDeletion.begin_own_rows userId, ⟨0, rfl⟩, clear⟩
  obtain ⟨done, ran, doneUnderway, remaining⟩ :=
    run_statements_returns system deletionOrder (.begin userId) underway rfl
  obtain ⟨after, finished, _⟩ := finish_completes system done doneUnderway remaining
  have deleted : deleteAccount (fun _ => none) userId system = .ok after := by
    simp only [deleteAccount, ran, finished]
  rw [deleted, delete_account_eq _ userId system after deleted]

section Seen

variable (context : Context) (userId : Uuid) (owns : context.Owns userId) (system : System)

include owns

/-- Nothing a session sees stands in the way of its user's deletion: the rows
that would, it does not see. -/
theorem clear_visible : Clear (.begin userId) (context.visible system) := by
  intro row seen
  have stored : row ∈ (context.visible system).rows := seen
  constructor
  · intro _
    have logged : row.table ≠ .auditLog := by
      cases row <;> simp_all [System.rows, Row.table, Context.visible]
    cases row <;> simp_all [AccountDeletion.begin, deletionOrder, Row.table]
  · intro position _ _ column
    have tenant : row.table ≠ .sessions ∧ row.table ≠ .setupTokens ∧ row.table ≠ .auditLog := by
      cases row <;> simp_all [Row.positionColumn, Row.table]
    obtain ⟨owner, member, columns, _⟩ := tenant_row _ row stored tenant
    rw [visible_tenant_data] at member
    have owned := ((filter_owners _ _ owner).mp member).2
    have same := owns_same context owner userId (of_decide_eq_true owned) owns
    simp [Row.Refers, columns, same, AccountDeletion.begin]

theorem delete_visible :
    deleteAccount (fun _ => none) userId (context.visible system) =
      .ok (gone userId (context.visible system)) :=
  delete_account_returns userId _ (clear_visible context userId owns system)

/-- Nothing of a tenant is left, so what is left is the same whatever the
tenant owned. -/
theorem gone_visible (other : System) (agree : system.users = other.users ∧
    system.sessions = other.sessions ∧ system.setupTokens = other.setupTokens) :
    gone userId (context.visible system) = gone userId (context.visible other) := by
  have nothing (each : System) :
      ((tenantData (context.visible each)).filter fun owner => owner ≠ userId) =
        ⟨.empty, .empty⟩ := by
    have none {Stored : Type} (owner : Stored → Uuid) (rows : List Stored) :
        (rows.filter fun row => context.Owns (owner row)).filter
          (fun row => owner row ≠ userId) = [] := by
      rw [List.filter_eq_nil_iff]
      intro row member different
      have owned : context.Owns (owner row) := by simpa using (List.mem_filter.mp member).2
      exact of_decide_eq_true different (owns_same context _ _ owned owns)
    apply TenantData.eq_of_rows
    · exact none Position.userId _
    · exact none UserDataKey.userId _
    · exact none Fill.userId _
    · exact none Leg.userId _
    · exact none Event.userId _
    · exact none SchwabConnection.userId _
    · exact none BrokerTransaction.userId _
    · exact none SyncRun.userId _
  unfold gone
  rw [nothing system, nothing other]
  simp only [Context.visible, withTenantData, agree.1, agree.2.1, agree.2.2]

theorem gone_grounded : Grounded context (context.visible system)
    (gone userId (context.visible system)) := by
  constructor
  · intro position member
    exact (List.mem_filter.mp member).1
  · intro reference member
    have data : tenantData (gone userId (context.visible system)) =
        (tenantData (context.visible system)).filter fun owner => owner ≠ userId := rfl
    rw [data] at member
    exact ⟨reference, ((filter_references _ _ reference).mp member).1, rfl⟩
  · intro user member
    by_cases own : user.id = userId
    · exact Or.inl (own ▸ owns)
    · right
      exact List.mem_map.mpr ⟨user, List.mem_filter.mpr ⟨member, by simpa using own⟩, rfl⟩

end Seen

end Morai.Identity.TenantDeletion
