import Morai.Foundation.SerialTable
import Morai.Python.Json
import Morai.Python.Values

/-!
# The job queue's tables

Procrastinate keeps its queue in Postgres: jobs, the events their triggers
write, the ticks of periodic tasks and the workers. `JobTables` is what the
tables hold in the middle of a transaction, `JobStore` what every constraint
and unique index of the schema allows, so a statement that breaks one of them
leaves no store.
-/

namespace Morai.Procrastinate.Schema

open Morai.Foundation.Serial Morai.Python

set_option autoImplicit false

/-- `procrastinate_job_status`. -/
inductive JobStatus where
  | todo
  | doing
  | succeeded
  | failed
  | cancelled
  | aborting
  | aborted
  deriving DecidableEq, Repr

/-- `procrastinate_job_event_type`. -/
inductive JobEventType where
  | deferred
  | started
  | deferredForRetry
  | failed
  | succeeded
  | cancelled
  | abortRequested
  | aborted
  | scheduled
  | retried
  deriving DecidableEq, Repr

/-- `procrastinate_job_to_defer_v1`. -/
structure JobToDefer where
  queueName : String
  taskName : String
  priority : Int
  lock : Option String
  queueingLock : Option String
  args : JsonValue
  scheduledAt : Option Instant
  deriving DecidableEq

structure Worker where
  id : Nat
  lastHeartbeat : Instant
  deriving DecidableEq, Repr

structure Job where
  id : Nat
  queueName : String
  taskName : String
  priority : Int
  lock : Option String
  queueingLock : Option String
  args : JsonValue
  status : JobStatus
  scheduledAt : Option Instant
  attempts : Nat
  abortRequested : Bool
  workerId : Option Nat
  deriving DecidableEq

structure PeriodicDefer where
  id : Nat
  taskName : String
  deferTimestamp : Int
  jobId : Option Nat
  periodicId : String
  deriving DecidableEq, Repr

structure Event where
  id : Nat
  jobId : Nat
  type : JobEventType
  at_ : Instant
  deriving DecidableEq, Repr

structure JobTables where
  workers : SerialTable Worker.id
  jobs : SerialTable Job.id
  periodicDefers : SerialTable PeriodicDefer.id
  events : SerialTable Event.id

inductive SqlError where
  | stringDataRightTruncation
  | checkViolation (constraintName : String)
  | uniqueViolation (constraintName : String)
  | foreignKeyViolation (constraintName : String)
  | invalidParameterValue (message : String)
  | raised (message : String)
  deriving DecidableEq, Repr

/-! ## Constraints and indexes -/

/-- `procrastinate_jobs_queueing_lock_idx_v1`. -/
def queueingLockIdx (job : Job) : Option String :=
  if job.status = .todo then job.queueingLock else none

/-- `procrastinate_jobs_lock_idx_v1`. -/
def lockIdx (job : Job) : Option String :=
  if job.status = .doing then job.lock else none

/-- `procrastinate_periodic_defers_unique`. -/
def periodicDefersUnique (defer : PeriodicDefer) : Option (String × String × Int) :=
  some (defer.taskName, defer.periodicId, defer.deferTimestamp)

/-- `check_not_todo_abort_requested`. -/
def NotTodoAbortRequested (job : Job) : Prop := ¬(job.status = .todo ∧ job.abortRequested = true)

instance (job : Job) : Decidable (NotTodoAbortRequested job) :=
  inferInstanceAs (Decidable (¬_))

/-- A reference that is not NULL is to a row that is there. -/
def References {Row Target : Type} {id : Target → Nat} (reference : Row → Option Nat)
    (rows : List Row) (target : SerialTable id) : Prop :=
  ∀ row ∈ rows, ∀ wanted ∈ reference row, (target.get? wanted).isSome

instance {Row Target : Type} {id : Target → Nat} (reference : Row → Option Nat) (rows : List Row)
    (target : SerialTable id) : Decidable (References reference rows target) :=
  inferInstanceAs (Decidable (∀ row ∈ rows, ∀ wanted ∈ reference row, (target.get? wanted).isSome))

structure JobStore extends JobTables where
  checked : ∀ job ∈ jobs.rows, NotTodoAbortRequested job
  queueingLocks : Indexed queueingLockIdx jobs.rows
  locks : Indexed lockIdx jobs.rows
  ticks : Indexed periodicDefersUnique periodicDefers.rows
  jobWorkers : References Job.workerId jobs.rows workers
  tickJobs : References PeriodicDefer.jobId periodicDefers.rows jobs
  eventJobs : References (fun event => some event.jobId) events.rows jobs

/-- What a statement leaves, or the first thing it violates: a row's checks
come before its unique indexes, foreign keys at the end of the statement. -/
def accept (tables : JobTables) : Except SqlError JobStore :=
  if checked : ∀ job ∈ tables.jobs.rows, NotTodoAbortRequested job then
    if queueingLocks : Indexed queueingLockIdx tables.jobs.rows then
      if locks : Indexed lockIdx tables.jobs.rows then
        if ticks : Indexed periodicDefersUnique tables.periodicDefers.rows then
          if jobWorkers : References Job.workerId tables.jobs.rows tables.workers then
            if tickJobs : References PeriodicDefer.jobId tables.periodicDefers.rows tables.jobs then
              if eventJobs : References (fun event => some event.jobId) tables.events.rows
                  tables.jobs then
                .ok ⟨tables, checked, queueingLocks, locks, ticks, jobWorkers, tickJobs, eventJobs⟩
              else .error (.foreignKeyViolation "procrastinate_events_job_id_fkey")
            else .error (.foreignKeyViolation "procrastinate_periodic_defers_job_id_fkey")
          else .error (.foreignKeyViolation "procrastinate_jobs_worker_id_fkey")
        else .error (.uniqueViolation "procrastinate_periodic_defers_unique")
      else .error (.uniqueViolation "procrastinate_jobs_lock_idx_v1")
    else .error (.uniqueViolation "procrastinate_jobs_queueing_lock_idx_v1")
  else .error (.checkViolation "check_not_todo_abort_requested")

theorem accept_tables (tables : JobTables) (store : JobStore) (admitted : accept tables = .ok store) :
    store.toJobTables = tables := by
  unfold accept at admitted
  split_ifs at admitted
  cases admitted
  rfl

/-- The tables right after the migration. -/
def JobStore.empty : JobStore where
  workers := .empty
  jobs := .empty
  periodicDefers := .empty
  events := .empty
  checked := by simp [SerialTable.empty]
  queueingLocks := List.nodup_nil
  locks := List.nodup_nil
  ticks := List.nodup_nil
  jobWorkers := by simp [References, SerialTable.empty]
  tickJobs := by simp [References, SerialTable.empty]
  eventJobs := by simp [References, SerialTable.empty]

/-! ## Triggers -/

/-- The columns of a statement's `SET` that a trigger is bound to. -/
structure SetColumns where
  status : Bool
  abortRequested : Bool

/-- `procrastinate_trigger_function_status_events_update_v1`. -/
def statusEvent (old new : JobStatus) : Option JobEventType :=
  if old = .todo ∧ new = .doing then some .started
  else if old = .doing ∧ new = .todo then some .deferredForRetry
  else if old = .doing ∧ new = .failed then some .failed
  else if old = .doing ∧ new = .succeeded then some .succeeded
  else if old = .todo ∧ (new = .cancelled ∨ new = .failed ∨ new = .succeeded) then some .cancelled
  else if old = .doing ∧ new = .aborted then some .aborted
  else if old = .failed ∧ new = .todo then some .retried
  else none

/-- `procrastinate_trigger_function_scheduled_events_v1`, with the trigger's
`WHEN`. -/
def scheduledEvents (job : Job) : List (JobEventType × Instant) :=
  match job.status, job.scheduledAt with
  | .todo, some scheduledAt => [(.scheduled, scheduledAt)]
  | _, _ => []

/-- What the `AFTER UPDATE` triggers write for one row, in the order of the
triggers' names. -/
def updateEvents (columns : SetColumns) (now : Instant) (old new : Job) :
    List (JobEventType × Instant) :=
  (if columns.abortRequested && new.abortRequested then [(.abortRequested, now)] else []) ++
    (scheduledEvents new ++
      if columns.status then ((statusEvent old.status new.status).map fun type => (type, now)).toList
      else [])

/-- What the `AFTER INSERT` triggers write for one row. -/
def insertEvents (now : Instant) (job : Job) : List (JobEventType × Instant) :=
  scheduledEvents job ++ if job.status = .todo then [(.deferred, now)] else []

def logEvents (jobId : Nat) (entries : List (JobEventType × Instant))
    (events : SerialTable Event.id) : SerialTable Event.id :=
  entries.foldl
    (fun table entry => table.insert (fun id => ⟨id, jobId, entry.1, entry.2⟩) fun _ => rfl) events

/-! ## Statements -/

/-- `UPDATE procrastinate_jobs SET ... WHERE`, with its triggers. -/
def updateJobs (columns : SetColumns) (now : Instant) (chosen : Job → Bool) (set : Job → Job)
    (keeps : ∀ job, (set job).id = job.id) (tables : JobTables) : JobTables :=
  { tables with
    jobs := tables.jobs.update chosen set keeps
    events := (tables.jobs.rows.filter chosen).foldl
      (fun events old => logEvents old.id (updateEvents columns now old (set old)) events)
      tables.events }

/-- `DELETE FROM procrastinate_jobs WHERE`: the trigger
`procrastinate_unlink_periodic_defers_v1` goes first, the events follow by
`ON DELETE CASCADE`. -/
def deleteJobs (gone : Job → Bool) (tables : JobTables) : JobTables :=
  let deleted := (tables.jobs.rows.filter gone).map Job.id
  { tables with
    jobs := tables.jobs.delete gone
    periodicDefers := tables.periodicDefers.update
      (fun tick => tick.jobId.any fun jobId => jobId ∈ deleted)
      (fun tick => { tick with jobId := none }) fun _ => rfl
    events := tables.events.delete fun event => event.jobId ∈ deleted }

/-- `ON DELETE SET NULL` for one deleted worker. -/
def unlinkWorker (now : Instant) (workerId : Nat) (tables : JobTables) : JobTables :=
  updateJobs ⟨false, false⟩ now (fun job => job.workerId = some workerId)
    (fun job => { job with workerId := none }) (fun _ => rfl) tables

/-- `DELETE FROM procrastinate_workers WHERE`. -/
def deleteWorkers (now : Instant) (gone : Worker → Bool) (tables : JobTables) : JobTables :=
  ((tables.workers.rows.filter gone).map Worker.id).foldl
    (fun tables workerId => unlinkWorker now workerId tables)
    { tables with workers := tables.workers.delete gone }

/-- The assignment of a text to a `character varying(128)` column: what is
beyond the limit has to be spaces. -/
def varchar128 (text : String) : Except SqlError String :=
  if text.length ≤ 128 then .ok text
  else if (text.toList.drop 128).all (· = ' ') then .ok (String.ofList (text.toList.take 128))
  else .error .stringDataRightTruncation

end Morai.Procrastinate.Schema
