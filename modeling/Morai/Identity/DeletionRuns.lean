import Morai.Identity.DataKeys

/-!
# `DELETE /me` among other transactions

A deletion takes its statements one by one; between two of them any other
transaction may commit, be it a whole request or what a sync job or a ledger
function wrote. Rows the deletion has removed stay locked until it ends, so
nobody else changes them. Other transactions see them as committed all the
while.
-/

namespace Morai.Identity.DeletionRuns

open Morai.Crypto Morai.Db Morai.Python Morai.Foundation.PrimaryKey Morai.Foundation.Runs
open Morai.Identity.Tables Morai.Identity.Deletion Morai.Identity.Requests
  Morai.Identity.DataKeys

set_option autoImplicit false

/-- How a deletion ended, and what was committed then. -/
structure Finished where
  userId : Uuid
  outcome : Except Failure Unit
  left : System

structure State where
  committed : System
  deletion : Option AccountDeletion
  finished : List Finished

def start : State := ⟨.empty, none, []⟩

inductive Action where
  | request (call : Call)
  /-- A commit of a sync job or of a caller of the ledger functions. -/
  | write (ledger : Database) (positions : KeyedTable Position.id)
  | begin (cookie : Option String) (now : Instant)
  | statement
  /-- The database gives the deletion up, as the victim of a deadlock. -/
  | aborted

/-- Every row refers to users and positions that exist. -/
def ForeignKeys (system : System) : Prop :=
  ∀ row ∈ system.rows, (∀ column ∈ row.userColumns, system.users.Has column.2) ∧
    ∀ id ∈ row.positionColumn, system.positions.Has id

instance decidableForeignKeys (system : System) : Decidable (ForeignKeys system) :=
  inferInstanceAs (Decidable (∀ row ∈ system.rows, _ ∧ _))

/-- The rows the deletion removed are still what the others see. -/
def LocksKept (deletion : AccountDeletion) (after : System) : Prop :=
  ∀ row ∈ deletion.removed, deletion.removed.count row ≤ after.rows.count row

instance decidableLocksKept (deletion : AccountDeletion) (after : System) :
    Decidable (LocksKept deletion after) :=
  inferInstanceAs (Decidable (∀ row ∈ deletion.removed, _))

section Steps

variable (keys : KeyService) (credentials : Credentials)

def writeLedger (system : System) (ledger : Database) (positions : KeyedTable Position.id) :
    System :=
  { system with ledger := ledger, positions := positions }

def finishWith (state : State) (deletion : AccountDeletion) (outcome : Except Failure Unit)
    (left : System) : State :=
  ⟨left, none, state.finished ++ [⟨deletion.userId, outcome, left⟩]⟩

/-- Another transaction commits. -/
def commitOther (state : State) (after : System) : Option State :=
  if ∀ deletion ∈ state.deletion, LocksKept deletion after then
    some { state with committed := after }
  else none

def stepDeletion (state : State) (deletion : AccountDeletion) : State :=
  match deletion.remaining with
  | table :: rest =>
      match deletion.statement state.committed table rest with
      | .error failure => finishWith state deletion (.error failure) state.committed
      | .ok next => { state with deletion := some next }
  | [] =>
      match deletion.finish state.committed with
      | .error failure => finishWith state deletion (.error failure) state.committed
      | .ok after => finishWith state deletion (.ok ()) after

def step (state : State) : Action → Option State
  | .request call =>
      match answer keys credentials state.committed call with
      | none => none
      | some after => commitOther state after
  | .write ledger positions =>
      let after := writeLedger state.committed ledger positions
      if ForeignKeys after then commitOther state after else none
  | .begin cookie now =>
      match state.deletion, currentUser credentials cookie now state.committed with
      | some _, _ => none
      | none, .error _ => some state
      | none, .ok user => some { state with deletion := some (.begin user.userId) }
  | .statement => state.deletion.map (stepDeletion state)
  | .aborted => state.deletion.map fun deletion =>
      finishWith state deletion (.error (.raised .other)) state.committed

/-- Of what the deletion sees, rows that refer to its user stand only in the
tables it has yet to empty, and only the user's own rows hang on the user's
positions. -/
def Clear (deletion : AccountDeletion) (committed : System) : Prop :=
  ∀ row ∈ deletion.seen committed,
    (row.Refers deletion.userId → row.table ∈ deletion.remaining) ∧
    ∀ position ∈ committed.positions.rows, position.userId = deletion.userId →
      row.positionColumn = some position.id → row.Refers deletion.userId

instance decidableClear (deletion : AccountDeletion) (committed : System) :
    Decidable (Clear deletion committed) :=
  inferInstanceAs (Decidable (∀ row ∈ deletion.seen committed, _ ∧ _))

/-- When the deletion begins no `audit_log` row names the user, the one table
it never empties, and nothing another user owns hangs on the user's positions;
from there to its end nobody commits such a row, or a row that refers to the
user in a table already emptied; and the database does not give it up. -/
def Undisturbed (state : State) : Action → Prop
  | .request call => ∀ after ∈ answer keys credentials state.committed call,
      ∀ deletion ∈ state.deletion, Clear deletion after
  | .write ledger positions => ∀ deletion ∈ state.deletion,
      Clear deletion (writeLedger state.committed ledger positions)
  | .begin cookie now => ∀ user ∈ (currentUser credentials cookie now state.committed).toOption,
      Clear (.begin user.userId) state.committed
  | .statement => True
  | .aborted => False

instance decidableUndisturbed (state : State) :
    ∀ action, Decidable (Undisturbed keys credentials state action)
  | .request call => inferInstanceAs (Decidable (∀ after ∈ answer keys credentials _ call, _))
  | .write _ _ => inferInstanceAs (Decidable (∀ deletion ∈ state.deletion, _))
  | .begin cookie now =>
      inferInstanceAs (Decidable (∀ user ∈ (currentUser credentials cookie now _).toOption, _))
  | .statement => isTrue trivial
  | .aborted => isFalse id

end Steps

/-! ## A deletion that nobody disturbs -/

/-- The user is gone, and so is every row that referred to the user. -/
structure Completed (done : Finished) : Prop where
  returned : done.outcome = .ok ()
  user : ¬done.left.users.Has done.userId
  rows : ∀ row ∈ done.left.rows, ¬row.Refers done.userId

/-- How a deletion under way stands. -/
structure Underway (committed : System) (deletion : AccountDeletion) : Prop where
  own : deletion.OwnRows
  order : ∃ count, deletion.remaining = deletionOrder.drop count
  clear : Clear deletion committed

theorem remaining_after_positions (count : Nat) (rest : List Table)
    (order : .positions :: rest = deletionOrder.drop count) :
    .events ∉ Table.positions :: rest ∧ .legs ∉ Table.positions :: rest := by
  rw [order]
  have small : count ≤ 10 := by
    by_contra large
    have empty : deletionOrder.drop count = [] := by
      apply List.drop_of_length_le
      simp only [deletionOrder, List.length_cons, List.length_nil]
      omega
    rw [empty] at order
    cases order
  have head : (deletionOrder.drop count).head? = some .positions := by rw [← order]; rfl
  have table : ∀ index ≤ 10, (deletionOrder.drop index).head? = some .positions →
      .events ∉ deletionOrder.drop index ∧ .legs ∉ deletionOrder.drop index := by decide
  exact table count small head

theorem position_column_table (row : Row) (id : Uuid) (column : row.positionColumn = some id) :
    row.table = .events ∨ row.table = .legs := by
  cases row <;> simp_all [Row.positionColumn, Row.table]

/-- Nothing is left hanging when a table is emptied. -/
theorem statement_returns (committed : System) (deletion : AccountDeletion)
    (underway : Underway committed deletion) (table : Table) (rest : List Table)
    (remaining : deletion.remaining = table :: rest) :
    ∃ next, deletion.statement committed table rest = .ok next := by
  simp only [AccountDeletion.statement]
  split
  · rename_i row found
    exfalso
    have dangles : AccountDeletion.Dangles (deletion.matching committed table) row := by
      simpa using List.find?_some found
    have seenLater := List.mem_of_find?_eq_some found
    simp only [AccountDeletion.seen, List.diff_append] at seenLater
    have seen : row ∈ deletion.seen committed := List.diff_subset _ _ seenLater
    rcases List.mem_map.mp dangles.2 with ⟨gone, goneMember, same⟩
    have goneFacts := List.mem_filter.mp goneMember
    have goneMatches : gone.table = table ∧ gone.Refers deletion.userId := by
      simpa using goneFacts.2
    have goneStored : gone ∈ committed.rows := List.diff_subset _ _ goneFacts.1
    cases gone with
    | position position =>
        have column : row.positionColumn = some position.id := same.symm
        have stored : position ∈ committed.positions.rows := by
          simpa [System.rows] using goneStored
        have owner : position.userId = deletion.userId := by
          simpa [Row.Refers, Row.userColumns, eq_comm] using goneMatches.2
        have refers := (underway.clear row seen).2 position stored owner column
        have still := (underway.clear row seen).1 refers
        rcases underway.order with ⟨count, order⟩
        have after := remaining_after_positions count rest (by
          rw [← order, remaining, ← goneMatches.1]
          rfl)
        rw [remaining, ← goneMatches.1] at still
        cases position_column_table row position.id column with
        | inl event => exact after.1 (event ▸ still)
        | inr leg => exact after.2 (leg ▸ still)
    | userDataKey _ | event _ | leg _ | fill _ | brokerTransaction _ | session _ | setupToken _
    | schwabConnection _ | syncRun _ | auditEntry _ => exact dangles.1 same.symm
  · exact ⟨_, rfl⟩

theorem statement_underway (committed : System) (deletion next : AccountDeletion)
    (underway : Underway committed deletion) (table : Table) (rest : List Table)
    (remaining : deletion.remaining = table :: rest)
    (ran : deletion.statement committed table rest = .ok next) :
    next.userId = deletion.userId ∧ next.remaining = rest ∧ Underway committed next := by
  have shape := AccountDeletion.statement_ok deletion next committed table rest ran
  have sameUser : next.userId = deletion.userId := by rw [shape]
  have nextRemaining : next.remaining = rest := by rw [shape]
  refine ⟨sameUser, nextRemaining, ?_, ?_, ?_⟩
  · exact (AccountDeletion.statement_own_rows deletion next committed table rest underway.own
      ran).2
  · rcases underway.order with ⟨count, order⟩
    refine ⟨count + 1, ?_⟩
    rw [nextRemaining, ← List.drop_drop, ← order, remaining]
    rfl
  · intro row member
    rcases AccountDeletion.statement_empties deletion next committed table rest ran row member with
      ⟨seen, notHere⟩
    rw [sameUser, nextRemaining]
    have before := underway.clear row seen
    constructor
    · intro refers
      have still := before.1 refers
      rw [remaining] at still
      cases List.mem_cons.mp still with
      | inl here => exact absurd ⟨here, refers⟩ notHere
      | inr later => exact later
    · exact before.2

theorem finish_completes (committed : System) (deletion : AccountDeletion)
    (underway : Underway committed deletion) (remaining : deletion.remaining = []) :
    ∃ after, deletion.finish committed = .ok after ∧
      Completed ⟨deletion.userId, .ok (), after⟩ := by
  have none : (deletion.seen committed).find? (fun row => row.Refers deletion.userId) = none := by
    rw [List.find?_eq_none]
    intro row member refers
    have still := (underway.clear row member).1 (by simpa using refers)
    rw [remaining] at still
    cases still
  have ran : ∃ after, deletion.finish committed = .ok after := by
    simp only [AccountDeletion.finish, none]
    exact ⟨_, rfl⟩
  rcases ran with ⟨after, ran⟩
  have spec := AccountDeletion.finish_ok deletion committed after underway.own ran
  refine ⟨after, ran, rfl, ?_, ?_⟩
  · intro has
    rcases List.mem_map.mp has with ⟨user, member, same⟩
    dsimp only at member
    rw [spec.1] at member
    have kept := (List.mem_filter.mp member).2
    exact absurd same (by simpa using kept)
  · intro row member
    exact ((spec.2.2 row).mp member).2

/-- Every deletion so far completed, and the one under way is clear to go
on. -/
structure Sound (state : State) : Prop where
  finished : ∀ done ∈ state.finished, Completed done
  underway : ∀ deletion ∈ state.deletion, Underway state.committed deletion

theorem start_sound : Sound start where
  finished done member := by cases member
  underway deletion member := by cases member

theorem finish_with_sound (state : State) (sound : Sound state) (deletion : AccountDeletion)
    (after : System) (completed : Completed ⟨deletion.userId, .ok (), after⟩) :
    Sound (finishWith state deletion (.ok ()) after) where
  finished done member := by
    cases List.mem_append.mp member with
    | inl old => exact sound.finished done old
    | inr new => exact List.mem_singleton.mp new ▸ completed
  underway other member := by cases member

theorem step_deletion_sound (state : State) (sound : Sound state) (deletion : AccountDeletion)
    (current : state.deletion = some deletion) : Sound (stepDeletion state deletion) := by
  have underway := sound.underway deletion current
  unfold stepDeletion
  cases remaining : deletion.remaining with
  | nil =>
      rcases finish_completes state.committed deletion underway remaining with
        ⟨after, ran, completed⟩
      simp only [ran]
      exact finish_with_sound state sound deletion after completed
  | cons table rest =>
      rcases statement_returns state.committed deletion underway table rest remaining with
        ⟨next, ran⟩
      simp only [ran]
      constructor
      · exact sound.finished
      · intro other same
        cases same
        exact (statement_underway state.committed deletion next underway table rest remaining
          ran).2.2

theorem commit_other_sound (state next : State) (after : System) (sound : Sound state)
    (clear : ∀ deletion ∈ state.deletion, Clear deletion after)
    (committed : commitOther state after = some next) : Sound next := by
  unfold commitOther at committed
  split_ifs at committed
  cases committed
  constructor
  · exact sound.finished
  · intro deletion current
    have underway := sound.underway deletion current
    exact ⟨underway.own, underway.order, clear deletion current⟩

section Runs

variable (keys : KeyService) (credentials : Credentials)

theorem step_sound (state : State) (action : Action) (next : State) (sound : Sound state)
    (undisturbed : Undisturbed keys credentials state action)
    (stepped : step keys credentials state action = some next) : Sound next := by
  cases action with
  | request call =>
      simp only [step] at stepped
      split at stepped
      · cases stepped
      · rename_i after answered
        exact commit_other_sound state next after sound (undisturbed after answered) stepped
  | write ledger positions =>
      simp only [step] at stepped
      split_ifs at stepped
      exact commit_other_sound state next _ sound undisturbed stepped
  | begin cookie now =>
      simp only [step] at stepped
      split at stepped
      · cases stepped
      · cases stepped
        exact sound
      · rename_i user _ authenticated
        cases stepped
        constructor
        · exact sound.finished
        · intro deletion current
          cases current
          have clear := undisturbed user (by rw [authenticated]; rfl)
          exact ⟨AccountDeletion.begin_own_rows user.userId, ⟨0, rfl⟩, clear⟩
  | statement =>
      rcases Option.map_eq_some_iff.mp stepped with ⟨deletion, current, same⟩
      exact same ▸ step_deletion_sound state sound deletion current
  | aborted => exact undisturbed.elim

/-- Left alone from here, the deletion under way completes within its
remaining statements. -/
theorem left_alone_completes (state : State) (sound : Sound state) (deletion : AccountDeletion)
    (current : state.deletion = some deletion) (count : Nat)
    (length : deletion.remaining.length = count) :
    ∃ left, runFrom (step keys credentials) (List.replicate (count + 1) .statement) state =
        some (finishWith state deletion (.ok ()) left) ∧
      Completed ⟨deletion.userId, .ok (), left⟩ := by
  induction count generalizing state deletion with
  | zero =>
      have remaining := List.eq_nil_of_length_eq_zero length
      have underway := sound.underway deletion current
      rcases finish_completes state.committed deletion underway remaining with
        ⟨after, ran, completed⟩
      refine ⟨after, ?_, completed⟩
      simp [runFrom, step, current, stepDeletion, remaining, ran]
  | succ count ih =>
      have underway := sound.underway deletion current
      cases remaining : deletion.remaining with
      | nil =>
          rw [remaining] at length
          cases length
      | cons table rest =>
          rcases statement_returns state.committed deletion underway table rest remaining with
            ⟨next, ran⟩
          rcases statement_underway state.committed deletion next underway table rest remaining
            ran with ⟨sameUser, nextRemaining, _⟩
          have stepped : stepDeletion state deletion = { state with deletion := some next } := by
            simp only [stepDeletion, remaining, ran]
          have nextSound := step_deletion_sound state sound deletion current
          rw [stepped] at nextSound
          have nextLength : next.remaining.length = count := by
            rw [nextRemaining]
            rw [remaining] at length
            simpa using length
          rcases ih { state with deletion := some next } nextSound next rfl nextLength with
            ⟨left, later, completed⟩
          refine ⟨left, ?_, sameUser ▸ completed⟩
          rw [List.replicate_succ, runFrom]
          simp only [step, current, Option.map_some, stepped, Option.bind_some]
          rw [later, finishWith, finishWith, sameUser]

/-- In a run of any requests, sync jobs and ledger writes that leaves its
deletions undisturbed, every deletion that ended took the user and every row
that referred to the user, and the one under way needs only its own remaining
statements to do so too. -/
theorem deletion_completes (actions : List Action) (final : State)
    (undisturbed : Meets (step keys credentials) (Undisturbed keys credentials) actions start)
    (ran : runFrom (step keys credentials) actions start = some final) :
    (∀ done ∈ final.finished, Completed done) ∧
    ∀ deletion ∈ final.deletion, ∃ left,
      runFrom (step keys credentials)
          (List.replicate (deletion.remaining.length + 1) .statement) final =
        some (finishWith final deletion (.ok ()) left) ∧
      Completed ⟨deletion.userId, .ok (), left⟩ := by
  have sound := run_keeps (step keys credentials) (Undisturbed keys credentials) Sound
    (step_sound keys credentials) actions start final start_sound undisturbed ran
  refine ⟨sound.finished, ?_⟩
  intro deletion current
  exact left_alone_completes keys credentials final sound deletion current _ rfl

/-! ## Two deletions -/

/-- The admin creates an account, which is set up and logs in. -/
def secondAccount : List Action :=
  (bootstrap ++
    [undisturbed (.createUser (some "session-token") "user" ⟨2⟩ "user-token" [7] [1] 3),
      undisturbed (.setup "user-token" "password" [] 4),
      undisturbed (.login "user" "password" [] "user-session" 5)]).map Action.request

def onePosition : KeyedTable Position.id := ⟨[⟨⟨9⟩, ⟨2⟩, none⟩], by decide⟩

def tradedLedger : Database :=
  { Database.empty with
    userDataKeys := ⟨[⟨⟨2⟩, 1, [7], [1]⟩], by decide⟩
    legs := [⟨⟨9⟩, ⟨2⟩, "AAPL  240119C00190000"⟩] }

/-- The user has a position with a leg, and logs in once more while the
deletion is under way. -/
def interleavedDeletion : List Action :=
  secondAccount ++
    [.write tradedLedger onePosition, .begin (some "user-session") 6, .statement, .statement,
      .request (undisturbed (.login "user" "password" [] "second-session" 7))] ++
    List.replicate 9 .statement

theorem deletion_completes_interleaved : ∃ final,
    runFrom (step plainKeys plainCredentials) interleavedDeletion start = some final ∧
      final.finished ≠ [] ∧ ∀ done ∈ final.finished, Completed done := by
  have computed : (runFrom (step plainKeys plainCredentials) interleavedDeletion start).any
      (fun final => ¬final.finished.isEmpty) = true := by
    decide +kernel
  have meets : Meets (step plainKeys plainCredentials)
      (Undisturbed plainKeys plainCredentials) interleavedDeletion start := by
    decide +kernel
  rcases (Option.any_eq_true_iff_get _ _).mp computed with ⟨present, some_⟩
  have ran := (Option.some_get present).symm
  refine ⟨_, ran, ?_, ?_⟩
  · intro empty
    rw [empty] at some_
    cases some_
  · exact (deletion_completes plainKeys plainCredentials interleavedDeletion _ meets ran).1

/-- The same account after the admin once reset its password. -/
def deletionAfterReset : List Action :=
  secondAccount ++
    [.request (undisturbed (.resetPassword (some "session-token") ⟨2⟩ "reset-token" 6)),
      .begin (some "user-session") 7] ++
    List.replicate 11 .statement

def failedOn (constraintName : String) (userId : Uuid) (done : Finished) : Bool :=
  done.userId = userId &&
    match done.outcome with
    | .error (.raised (.integrityError violated)) => violated = constraintName
    | _ => false

theorem failed_on_not_completed (constraintName : String) (userId : Uuid) (done : Finished)
    (failed : failedOn constraintName userId done = true) : ¬Completed done := by
  intro completed
  rw [failedOn, completed.returned, Bool.and_false] at failed
  cases failed

/-- The `audit_log` row of the reset stops the deletion at its last
statement. -/
theorem reset_account_not_deleted : ∃ final,
    runFrom (step plainKeys plainCredentials) deletionAfterReset start = some final ∧
      ∃ done ∈ final.finished, ¬Completed done ∧ final.committed.users.Has done.userId := by
  have computed : (runFrom (step plainKeys plainCredentials) deletionAfterReset start).any
      (fun final => final.finished.any fun done =>
        failedOn "audit_log_subject_id_fkey" ⟨2⟩ done && final.committed.users.Has done.userId) =
        true := by
    decide +kernel
  rcases (Option.any_eq_true_iff_get _ _).mp computed with ⟨present, failed⟩
  rcases List.any_eq_true.mp failed with ⟨done, member, facts⟩
  rw [Bool.and_eq_true] at facts
  refine ⟨_, (Option.some_get present).symm, done, member, ?_, of_decide_eq_true facts.2⟩
  exact failed_on_not_completed _ _ done facts.1

end Runs

end Morai.Identity.DeletionRuns
