import Morai.Identity.DataKeys
import Morai.Identity.RequestSteps

/-!
# The audit log of password resets

`open_audited_read` commits with the reset token it is about, or neither does,
and nothing takes an entry out again. So however requests interleave and
wherever they stop, the log grows at its end, by one entry for each reset
token issued.
-/

namespace Morai.Identity.AuditTrail

open Morai.Crypto Morai.Db Morai.Python Morai.Foundation.PrimaryKey Morai.Foundation.RowLocks
open Morai.Foundation.Runs Morai.Identity.Tables Morai.Identity.Deletion Morai.Identity.DataKeys
open Morai.Identity.Requests Morai.Identity.ConcurrentRequests Morai.Identity.RequestSteps

set_option autoImplicit false

/-- Whose password the transaction's token resets, if it issues such a token. -/
def resetSubject (writes : Writes) : Option Uuid :=
  (writes.token.filter fun issue => issue.purpose = .passwordReset).map Issue.userId

/-- An audit entry about a user exactly where that user's password is to be
reset. -/
def Paired (writes : Writes) : Prop :=
  writes.auditEntry.map AuditEntry.subjectId = resetSubject writes

/-- Neither an audit entry nor a reset token. -/
def Silent (writes : Writes) : Prop := writes.auditEntry = none ∧ resetSubject writes = none

theorem silent_paired (writes : Writes) (silent : Silent writes) : Paired writes := by
  unfold Paired
  rw [silent.1, silent.2]
  rfl

/-- A write that is neither. -/
def Plain : Write → Prop
  | .insertAuditEntry _ _ => False
  | .insertToken _ purpose _ => purpose ≠ .passwordReset
  | _ => True

/-- What a transaction has written and has still to write. -/
inductive Plan : List Write → Writes → Prop where
  | plain (todo : List Write) (writes : Writes) (all : ∀ write ∈ todo, Plain write)
      (silent : Silent writes) : Plan todo writes
  | toAudit (readerId subjectId : Uuid) (ttl : Int) (writes : Writes) (silent : Silent writes) :
      Plan [.insertAuditEntry readerId subjectId, .insertToken subjectId .passwordReset ttl] writes
  | toIssue (readerId subjectId : Uuid) (ttl : Int) (writes : Writes)
      (audited : writes.auditEntry = some ⟨readerId, subjectId⟩) :
      Plan [.insertToken subjectId .passwordReset ttl] writes
  | issued (writes : Writes) (paired : Paired writes) : Plan [] writes

/-- The deletion has left the audit log alone and goes on to. -/
structure Spares (deletion : AccountDeletion) : Prop where
  removed : ∀ row ∈ deletion.removed, row.table ≠ .auditLog
  remaining : Table.auditLog ∉ deletion.remaining

def StageFits (writes : Writes) : Stage → Prop
  | .writing todo => Plan todo writes
  | .deleting deletion => Silent writes ∧ Spares deletion
  | _ => Silent writes

structure Fits (txn : Txn) : Prop where
  stage : StageFits txn.writes txn.stage
  spares : ∀ deletion, txn.writes.deletion = some deletion → Spares deletion

theorem nothing_silent : Silent .nothing := ⟨rfl, rfl⟩

theorem arrives_fits (route : Route) : Fits ⟨route, route.firstStage, .nothing⟩ := by
  refine ⟨?_, fun deletion found => by cases found⟩
  cases route <;> exact nothing_silent

section Statements

variable (keys : KeyService) (credentials : Credentials)

theorem performed_fits (draw : Draw) (view : System) (before after : Writes) (write : Write)
    (rest : List Write) (plan : Plan (write :: rest) before)
    (performed : Performed credentials draw view before write after) :
    Plan rest after ∧ after.deletion = before.deletion := by
  cases plan with
  | plain _ _ all silent =>
      have plain := all write List.mem_cons_self
      have later := fun other member => all other (List.mem_cons_of_mem write member)
      cases performed with
      | token userId purpose ttl refers fresh =>
          refine ⟨.plain _ _ later ⟨silent.1, ?_⟩, rfl⟩
          simp only [resetSubject, Option.filter_some, decide_eq_true_eq]
          rw [if_neg plain]
          rfl
      | auditEntry readerId subjectId => exact plain.elim
      | _ => exact ⟨.plain _ _ later silent, rfl⟩
  | toAudit readerId subjectId ttl _ silent =>
      cases performed with
      | auditEntry _ _ => exact ⟨.toIssue readerId subjectId ttl _ rfl, rfl⟩
  | toIssue readerId subjectId ttl _ audited =>
      cases performed with
      | token _ _ _ _ _ =>
          refine ⟨.issued _ ?_, rfl⟩
          unfold Paired resetSubject
          dsimp only
          rw [audited]
          rfl

theorem handle_fits (user : AuthenticatedUser) (newId : Uuid) (route : Route) (stage : Stage)
    (writes : Writes) (silent : Silent writes) (handles : handle user newId route = .ok stage) :
    StageFits writes stage := by
  unfold handle at handles
  split at handles
  · split_ifs at handles
    cases handles
    exact .plain _ _ (by simp [Plain]) silent
  · split_ifs at handles
    cases handles
    exact .toAudit _ _ _ _ silent
  · split at handles <;> cases handles
    exact .plain _ _ (by simp [Plain]) silent
  · cases handles
    exact .plain _ _ (by simp [Plain]) silent
  · cases handles
    exact ⟨silent, by simp [AccountDeletion.begin], by simp [AccountDeletion.begin, deletionOrder]⟩
  · cases handles
    exact .plain _ _ (by simp) silent

theorem login_plain (userId : Uuid) (storedHash password : String) (position : Nat) :
    ∀ write ∈ loginWrites credentials userId storedHash password position, Plain write := by
  intro write member
  unfold loginWrites at member
  split_ifs at member <;> simp only [List.nil_append, List.cons_append, List.mem_cons,
    List.not_mem_nil, or_false] at member
  · rcases member with rfl | rfl <;> trivial
  · subst member
    trivial

theorem statement_spares (deletion later : AccountDeletion) (view : System) (table : Table)
    (rest : List Table) (spares : Spares deletion) (next : deletion.remaining = table :: rest)
    (ran : deletion.statement view table rest = .ok later) : Spares later := by
  rw [AccountDeletion.statement_ok deletion later view table rest ran]
  have kept := spares.remaining
  rw [next, List.mem_cons, not_or] at kept
  refine ⟨?_, kept.2⟩
  intro row member
  cases List.mem_append.mp member with
  | inl old => exact spares.removed row old
  | inr new =>
      have matches_ := (of_decide_eq_true (List.mem_filter.mp new).2).1
      rw [matches_]
      exact Ne.symm kept.1

/-- One statement after which the transaction is still open. -/
theorem next_fits (txn : Txn) (draw : Draw) (position : Nat) (view : System) (stage : Stage)
    (writes : Writes) (fits : Fits txn)
    (ran : next keys credentials txn draw position view = some (.goesOn stage writes)) :
    Fits ⟨txn.route, stage, writes⟩ := by
  have held := fits.stage
  cases next_goes keys credentials txn draw position view stage writes ran with
  | lock username route arrived =>
      rw [arrived] at held
      exact ⟨held, fits.spares⟩
  | lookup username password userId storedHash route arrived verified =>
      rw [arrived] at held
      exact ⟨.plain _ _ (login_plain credentials userId storedHash password position) held,
        fits.spares⟩
  | session rawToken userId route arrived read =>
      rw [arrived] at held
      exact ⟨held, fits.spares⟩
  | bootstrap username route locked noAdmin =>
      rw [locked] at held
      exact ⟨.plain _ _ (by simp [Plain]) held, fits.spares⟩
  | handled reading caller stage read found handles =>
      rw [read] at held
      exact ⟨handle_fits _ _ _ _ _ held handles, fits.spares⟩
  | unmatched rawToken purpose consuming =>
      rw [consuming] at held
      exact ⟨held, fits.spares⟩
  | matched rawToken purpose row consuming matched =>
      rw [consuming] at held
      exact ⟨held, fits.spares⟩
  | wrote write rest writes writing performed =>
      rw [writing] at held
      obtain ⟨plan, same⟩ := performed_fits credentials draw view _ _ write rest held performed
      exact ⟨plan, same ▸ fits.spares⟩
  | removed deletion later table rest deleting _ =>
      rw [deleting] at held
      -- `Goes` does not say whose turn it was, the statement itself does.
      unfold next at ran
      rw [deleting] at ran
      dsimp only at ran
      split at ran
      · rename_i turn others queued
        split at ran
        · cases ran
        · rename_i made stepped
          cases ran
          exact ⟨⟨held.1, statement_spares deletion later view turn others held.2 queued stepped⟩,
            fits.spares⟩
      · split at ran <;> cases ran
  | deleted deletion after deleting _ =>
      rw [deleting] at held
      refine ⟨.plain _ _ (by simp) held.1, ?_⟩
      intro other found
      cases found
      exact held.2

theorem continues_fits (txn : Txn) (position : Nat) (purpose : TokenPurpose)
    (row : Option SetupToken) (stage : Stage)
    (after : afterConsumed position purpose row txn.route = .ok stage) :
    Fits ⟨txn.route, stage, .nothing⟩ := by
  refine ⟨?_, fun deletion found => by cases found⟩
  unfold afterConsumed at after
  split at after
  · split at after
    · cases after
      exact .plain _ _ (by simp [Plain]) nothing_silent
    · split_ifs at after
      cases after
      exact nothing_silent
  · split at after
    · cases after
    · split at after <;> cases after
      exact .plain _ _ (by simp [Plain]) nothing_silent
  · cases after

/-! ## Commits -/

theorem past_paired (txn : Txn) (fits : Fits txn)
    (past : txn.stage = .writing [] ∨ ∃ purpose row, txn.stage = .consumed purpose row) :
    Paired txn.writes := by
  have held := fits.stage
  rcases past with writing | ⟨purpose, row, consumed⟩
  · rw [writing] at held
    cases held with
    | plain _ _ _ silent => exact silent_paired _ silent
    | issued _ paired => exact paired
  · rw [consumed] at held
    exact silent_paired _ held

theorem apply_audit_log (txn : Txn) (system : System) (fits : Fits txn) :
    (txn.writes.apply credentials system).auditLog =
      system.auditLog ++ txn.writes.auditEntry.toList := by
  unfold Writes.apply
  cases deletes : txn.writes.deletion with
  | none => rfl
  | some deletion =>
      refine List.filter_eq_self.mpr fun entry _ => decide_eq_true ?_
      intro member
      exact (fits.spares deletion deletes).removed _ member rfl

/-! ## Runs -/

def auditEntries (history : List Entry) : List AuditEntry :=
  history.filterMap fun entry => entry.writes.auditEntry

/-- `initial` is what was there before the run. -/
structure OnRecord (initial : System) (state : State) : Prop where
  each : ∀ id txn, state.opened.txns id = some txn → Fits txn
  paired : ∀ entry ∈ state.history, Paired entry.writes
  log : state.system.auditLog = initial.auditLog ++ auditEntries state.history
  tokens : ∀ row ∈ state.system.setupTokens.rows, row ∈ initial.setupTokens.rows ∨
    ∃ entry ∈ state.history, entry.writes.token.map (Issue.row credentials) = some row

theorem committed_on_record (initial : System) (state : State) (id : Nat) (txn : Txn)
    (record : OnRecord credentials initial state) (found : state.opened.txns id = some txn)
    (past : txn.stage = .writing [] ∨ ∃ purpose row, txn.stage = .consumed purpose row) :
    (∀ entry ∈ (committed credentials state id txn).history, Paired entry.writes) ∧
      (committed credentials state id txn).system.auditLog =
        initial.auditLog ++ auditEntries (committed credentials state id txn).history ∧
      ∀ row ∈ (committed credentials state id txn).system.setupTokens.rows,
        row ∈ initial.setupTokens.rows ∨ ∃ entry ∈ (committed credentials state id txn).history,
          entry.writes.token.map (Issue.row credentials) = some row := by
  have fits := record.each id txn found
  refine ⟨?_, ?_, ?_⟩
  · intro entry member
    cases List.mem_append.mp member with
    | inl old => exact record.paired entry old
    | inr new =>
        rw [List.mem_singleton.mp new]
        exact past_paired txn fits past
  · change (txn.writes.apply credentials state.system).auditLog = _
    rw [apply_audit_log credentials txn state.system fits, record.log, List.append_assoc]
    unfold auditEntries committed
    rw [List.filterMap_append]
    cases written : txn.writes.auditEntry <;>
      simp [Entry.writes, written]
  · intro row member
    obtain ⟨issued, _⟩ := (mem_apply_tokens credentials txn.writes state.system row).mp member
    rcases issued with old | ⟨new, _⟩
    · cases record.tokens row old with
      | inl first => exact Or.inl first
      | inr issued =>
          obtain ⟨entry, entryMember, made⟩ := issued
          exact Or.inr ⟨entry, List.mem_append_left _ entryMember, made⟩
    · exact Or.inr ⟨_, List.mem_append_right _ List.mem_cons_self, new⟩

theorem execute_on_record (initial : System) (state later : State) (id : Nat) (draw : Draw)
    (record : OnRecord credentials initial state)
    (stepped : step keys credentials state (.execute id draw) = some later) :
    OnRecord credentials initial later := by
  simp only [step] at stepped
  split at stepped
  · cases stepped
  · rename_i txn found
    unfold executed at stepped
    dsimp only at stepped
    split at stepped
    · cases stepped
    · rename_i stage writes ran
      obtain ⟨present, free, same⟩ := advance_eq credentials _ _ _ _ stepped
      subst same
      refine ⟨?_, record.paired, record.log, record.tokens⟩
      intro otherId other otherFound
      cases state.opened.replace_txns id otherId _ other present otherFound with
      | inl mine =>
          rw [mine.2]
          exact next_fits keys credentials txn draw _ _ stage writes (record.each id txn found) ran
      | inr old => exact record.each otherId other old.2
    · cases stepped
      refine ⟨?_, record.paired, record.log, record.tokens⟩
      intro otherId other otherFound
      exact record.each otherId other (state.opened.close_txns id otherId other otherFound).2

theorem step_on_record (initial : System) (state : State) (action : Action) (later : State)
    (record : OnRecord credentials initial state)
    (stepped : step keys credentials state action = some later) :
    OnRecord credentials initial later := by
  cases step_cases keys credentials state later action stepped with
  | arrive route =>
      refine ⟨?_, record.paired, record.log, record.tokens⟩
      intro id txn found
      cases state.opened.enter_txns _ txn id found with
      | inl new =>
          rw [new.2]
          exact arrives_fits route
      | inr old => exact record.each id txn old
  | goesOn id draw txn stage writes _ _ _ _ =>
      exact execute_on_record keys credentials initial state _ id draw record stepped
  | ends id draw txn answer _ _ =>
      exact execute_on_record keys credentials initial state _ id draw record stepped
  | commits id txn answer _ found past =>
      obtain ⟨paired, log, tokens⟩ :=
        committed_on_record credentials initial state id txn record found past
      refine ⟨?_, paired, log, tokens⟩
      intro otherId other otherFound
      exact record.each otherId other (state.opened.close_txns id otherId other otherFound).2
  | continues id txn purpose row stage found consumed after present _ =>
      obtain ⟨paired, log, tokens⟩ := committed_on_record credentials initial state id txn record
        found (Or.inr ⟨purpose, row, consumed⟩)
      refine ⟨?_, paired, log, tokens⟩
      intro otherId other otherFound
      cases state.opened.replace_txns id otherId _ other present otherFound with
      | inl mine =>
          rw [mine.2]
          exact continues_fits txn _ purpose row stage after
      | inr old => exact record.each otherId other old.2
  | rollback id =>
      refine ⟨?_, record.paired, record.log, record.tokens⟩
      intro otherId other otherFound
      exact record.each otherId other (state.opened.close_txns id otherId other otherFound).2
  | elsewhere ledger positions =>
      refine ⟨record.each, ?_, ?_, ?_⟩
      · intro entry member
        cases List.mem_append.mp member with
        | inl old => exact record.paired entry old
        | inr new =>
            rw [List.mem_singleton.mp new]
            exact silent_paired _ nothing_silent
      · unfold auditEntries
        rw [List.filterMap_append]
        exact record.log.trans (by simp [auditEntries, Entry.writes, Writes.nothing])
      · intro row member
        cases record.tokens row member with
        | inl first => exact Or.inl first
        | inr issued =>
            obtain ⟨entry, entryMember, made⟩ := issued
            exact Or.inr ⟨entry, List.mem_append_left _ entryMember, made⟩

/-- The audit log only grows, by one entry for each reset token that is
committed and for no other commit; so each reset token there is has an entry
about its user, unless it is older than the run. -/
theorem reset_tokens_are_audited (system : System) (actions : List Action) (final : State)
    (ran : runFrom (step keys credentials) actions (start system) = some final) :
    final.system.auditLog = system.auditLog ++ auditEntries final.history ∧
      (∀ entry ∈ final.history,
        entry.writes.auditEntry.map AuditEntry.subjectId = resetSubject entry.writes) ∧
      ∀ row ∈ final.system.setupTokens.rows, row.purpose = .passwordReset →
        row ∈ system.setupTokens.rows ∨
          ∃ audited ∈ final.system.auditLog, audited.subjectId = row.userId := by
  have initial : OnRecord credentials system (start system) := by
    refine ⟨fun id txn found => ?_, fun entry member => ?_, ?_, fun row member => Or.inl member⟩
    · cases found
    · cases member
    · exact (List.append_nil _).symm
  have record := run_keeps (step keys credentials) (fun _ _ => True) (OnRecord credentials system)
    (fun state action next held _ => step_on_record keys credentials system state action next held)
    actions (start system) final initial (meets_trivial _ _ _) ran
  refine ⟨record.log, record.paired, ?_⟩
  intro row member resets
  cases record.tokens row member with
  | inl old => exact Or.inl old
  | inr issued =>
      obtain ⟨entry, entryMember, made⟩ := issued
      obtain ⟨issue, issues, same⟩ := Option.map_eq_some_iff.mp made
      have purpose : issue.purpose = .passwordReset := by
        rw [← resets, ← same]
        rfl
      have paired := record.paired entry entryMember
      have subject : resetSubject entry.writes = some row.userId := by
        rw [resetSubject, issues, Option.filter_some_pos (by simpa using purpose), ← same]
        rfl
      unfold Paired at paired
      rw [subject] at paired
      obtain ⟨audited, writes, about⟩ := Option.map_eq_some_iff.mp paired
      refine Or.inr ⟨audited, ?_, about⟩
      rw [record.log]
      exact List.mem_append_right _ (List.mem_filterMap.mpr ⟨entry, entryMember, writes⟩)

end Statements

/-- An admin with a session, and a user without a token. -/
def adminAtWork : System :=
  { System.empty with
    users := ⟨[⟨⟨1⟩, "user", some "password", false⟩, ⟨⟨2⟩, "admin", some "secret", true⟩], by decide⟩
    sessions := ⟨[⟨"admin-session", ⟨2⟩, 60⟩], by decide⟩ }

/-- Two resets of one user at once, of which the first is rolled back with both
its rows written. -/
def resetsAtOnce : List Action :=
  [.arrive (.resetPassword (some "admin-session") ⟨1⟩),
      .arrive (.resetPassword (some "admin-session") ⟨1⟩)] ++
    List.replicate 4 (.execute 0 (drawing 0 ⟨9⟩ "first-token")) ++
    List.replicate 4 (.execute 1 (drawing 0 ⟨9⟩ "second-token")) ++ [.rollback 0, .commit 1]

theorem reset_tokens_are_audited_at_once :
    ∃ final, runFrom (step plainKeys plainCredentials) resetsAtOnce (start adminAtWork) = some final ∧
      final.system.setupTokens.rows.map SetupToken.userId = [⟨1⟩] ∧
      ∀ row ∈ final.system.setupTokens.rows, row.purpose = .passwordReset →
        row ∈ adminAtWork.setupTokens.rows ∨
          ∃ audited ∈ final.system.auditLog, audited.subjectId = row.userId := by
  have reads : ((runFrom (step plainKeys plainCredentials) resetsAtOnce (start adminAtWork)).any
      fun final => decide (final.system.setupTokens.rows.map SetupToken.userId = [⟨1⟩])) = true := by
    decide +kernel
  obtain ⟨present, issued⟩ := (Option.any_eq_true_iff_get _ _).mp reads
  have ran := (Option.some_get present).symm
  exact ⟨_, ran, of_decide_eq_true issued,
    (reset_tokens_are_audited plainKeys plainCredentials adminAtWork resetsAtOnce _ ran).2.2⟩

end Morai.Identity.AuditTrail
