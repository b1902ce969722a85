import Mathlib.Data.List.Induction
import Morai.Identity.TenantSessions

/-!
# `app.current_user_id` on a pooled connection

`require_rls_context` knows one unset setting, `NULL`. Postgres has two: a
connection on which some transaction has set the id answers with the empty
text in every later transaction that has not.
-/

namespace Morai.Identity.RlsContext

open Morai.Db Morai.Python Morai.Identity.Tables Morai.Identity.TenantSessions

set_option autoImplicit false

/-! ## The setting -/

def badlyFormedUuid : Failure := .raised (.valueError "badly formed hexadecimal UUID string")

/-- `UUID(setting)`, of a text in lower case and without the `urn:` and brace
forms; a setting is the text of a UUID or empty. -/
def uuidOfSetting (setting : String) : Except Failure Uuid :=
  let hex := setting.toList.filter fun char => char ≠ '-'
  if hex.length ≠ 32 then .error badlyFormedUuid
  else
    match Uuid.ofText? setting with
    | some userId => .ok userId
    | none => .error (.raised (.valueError
        ("invalid literal for int() with base 16: " ++ reprText (String.ofList hex))))

/-- What a connection keeps of the setting, and whether the open transaction
has set it. -/
structure Connection where
  setting : Option String
  isLocal : Bool
  deriving DecidableEq, Repr

def freshConnection : Connection := ⟨none, false⟩

inductive Action where
  | setCurrentUserId (userId : Uuid)
  | requireRlsContext
  | commit
  | rollback
  deriving DecidableEq, Repr

/-- The end of a transaction resets what it has set to the empty text. -/
def endTransaction (connection : Connection) : Connection :=
  if connection.isLocal then ⟨some "", false⟩ else connection

def perform (connection : Connection) : Action → Connection
  | .setCurrentUserId userId => ⟨some userId.text, true⟩
  | .requireRlsContext => connection
  | .commit => endTransaction connection
  | .rollback => endTransaction connection

/-- The connection after all that has been done on it. -/
def connectionAfter (history : List Action) : Connection := history.foldl perform freshConnection

def requireRlsContext (connection : Connection) : Except Failure Uuid :=
  match connection.setting with
  | none => .error rlsContextMissing
  | some setting => uuidOfSetting setting

/-! ## What was set -/

def setIn (current : Option Uuid) : Action → Option Uuid
  | .setCurrentUserId userId => some userId
  | .requireRlsContext => current
  | .commit => none
  | .rollback => none

/-- The id the open transaction has set. -/
def currentUserId (history : List Action) : Option Uuid := history.foldl setIn none

def Action.sets : Action → Bool
  | .setCurrentUserId _ => true
  | .requireRlsContext => false
  | .commit => false
  | .rollback => false

/-- Some transaction on the connection has set the id. -/
def WasSet (history : List Action) : Prop := ∃ action ∈ history, action.sets = true

instance decidableWasSet (history : List Action) : Decidable (WasSet history) :=
  inferInstanceAs (Decidable (∃ action ∈ history, action.sets = true))

def settingAfter (history : List Action) : Option String :=
  match currentUserId history with
  | some userId => some userId.text
  | none => if WasSet history then some "" else none

section Histories

variable (history : List Action) (action : Action)

theorem connection_after_concat :
    connectionAfter (history ++ [action]) = perform (connectionAfter history) action := by
  unfold connectionAfter
  rw [List.foldl_concat]

theorem current_user_id_concat :
    currentUserId (history ++ [action]) = setIn (currentUserId history) action := by
  unfold currentUserId
  rw [List.foldl_concat]

theorem was_set_concat : WasSet (history ++ [action]) ↔ WasSet history ∨ action.sets = true := by
  unfold WasSet
  simp only [List.mem_append, List.mem_singleton, or_and_right, exists_or, exists_eq_left]

theorem was_set_of_current (userId : Uuid) (current : currentUserId history = some userId) :
    WasSet history := by
  induction history using List.reverseRecOn with
  | nil => cases current
  | append_singleton earlier last ih =>
      rw [current_user_id_concat] at current
      rw [was_set_concat]
      cases last with
      | setCurrentUserId other => exact Or.inr rfl
      | requireRlsContext => exact Or.inl (ih current)
      | commit => cases current
      | rollback => cases current

/-- The invariant of a connection: its setting is what its history says. -/
theorem connection_after_eq :
    connectionAfter history = ⟨settingAfter history, (currentUserId history).isSome⟩ := by
  induction history using List.reverseRecOn with
  | nil => rfl
  | append_singleton earlier last ih =>
      have ended : endTransaction ⟨settingAfter earlier, (currentUserId earlier).isSome⟩ =
          ⟨if WasSet earlier then some "" else none, false⟩ := by
        unfold settingAfter endTransaction
        cases current : currentUserId earlier with
        | none => simp
        | some userId => simp [was_set_of_current earlier userId current]
      have kept := was_set_concat earlier last
      rw [connection_after_concat, ih]
      unfold settingAfter at ended ⊢
      rw [current_user_id_concat]
      cases last with
      | setCurrentUserId userId => rfl
      | requireRlsContext =>
          simp only [Action.sets, Bool.false_eq_true, or_false] at kept
          simp only [perform, setIn, kept]
      | commit =>
          simp only [Action.sets, Bool.false_eq_true, or_false] at kept
          simp only [perform, setIn, kept, ended, Option.isSome_none]
      | rollback =>
          simp only [Action.sets, Bool.false_eq_true, or_false] at kept
          simp only [perform, setIn, kept, ended, Option.isSome_none]

end Histories

/-! ## What is reported -/

theorem uuid_of_setting_text (userId : Uuid) : uuidOfSetting userId.text = .ok userId := by
  have size : (userId.text.toList.filter fun char => char ≠ '-').length = 32 := by
    rw [Uuid.text, String.toList_ofList, uuid_chars_without_hyphens, hex_text_length]
  unfold uuidOfSetting
  simp only [size, ne_eq, not_true_eq_false, if_false, uuid_of_text]

/-- What a call answers, over the history of its connection. -/
theorem require_rls_context_after (history : List Action) :
    requireRlsContext (connectionAfter history) =
      match currentUserId history with
      | some userId => .ok userId
      | none => .error (if WasSet history then badlyFormedUuid else rlsContextMissing) := by
  rw [connection_after_eq]
  unfold requireRlsContext settingAfter
  cases currentUserId history with
  | some userId => exact uuid_of_setting_text userId
  | none =>
      by_cases set : WasSet history
      · simp only [set, if_true]
        rfl
      · simp only [set, if_false]

/-- The id set in the transaction, or the error that names a missing context. -/
def reported (history : List Action) : Except Failure Uuid :=
  match currentUserId history with
  | some userId => .ok userId
  | none => .error rlsContextMissing

/-- What holds at every call of the run, over what was done before it. -/
def AtCalls (run : List Action) (holds : List Action → Prop) : Prop :=
  ∀ before rest, run = before ++ .requireRlsContext :: rest → holds before

theorem reports_iff (history : List Action) :
    requireRlsContext (connectionAfter history) = reported history ↔
      currentUserId history ≠ none ∨ ¬WasSet history := by
  rw [require_rls_context_after]
  unfold reported
  cases currentUserId history with
  | some userId => simp
  | none =>
      have apart : badlyFormedUuid ≠ rlsContextMissing := by
        intro same
        cases same
      by_cases set : WasSet history
      · simp [set, apart]
      · simp [set]

/-- **Every call of a run reports its context exactly where each is made after
the id was set in its own transaction, or on a connection that no transaction
has set it on.** -/
theorem require_rls_context_reports_iff (run : List Action) :
    (AtCalls run fun before => requireRlsContext (connectionAfter before) = reported before) ↔
      AtCalls run fun before => currentUserId before ≠ none ∨ ¬WasSet before := by
  unfold AtCalls
  simp only [reports_iff]

/-- A used connection: the id was set and committed, and the next transaction
has not set it. -/
theorem used_connection_misreports :
    ¬AtCalls [.setCurrentUserId ⟨1⟩, .commit, .requireRlsContext]
      fun before => requireRlsContext (connectionAfter before) = reported before := by
  intro reports
  have call := reports [.setCurrentUserId ⟨1⟩, .commit] [] rfl
  revert call
  decide +kernel

end Morai.Identity.RlsContext
