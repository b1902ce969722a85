import Mathlib.Data.List.Sort
import Morai.Procrastinate.Schema

/-!
# The job queue's functions

Each of them runs in a transaction of its own: it leaves the store it made or,
where it raises, nothing. `now()` is the transaction's start. The triggers that
`pg_notify` waiting workers write nothing, but raise where the queue's name is
too long for a channel.
-/

namespace Morai.Procrastinate.Functions

open Morai.Foundation.Serial Morai.Procrastinate.Schema Morai.Python

set_option autoImplicit false

/-! ## Notifying -/

/-- The name of a channel has less than `NAMEDATALEN` bytes. -/
def ChannelFits (queueName : String) : Prop :=
  ("procrastinate_queue_v1#" ++ queueName).utf8ByteSize < 64

instance (queueName : String) : Decidable (ChannelFits queueName) :=
  inferInstanceAs (Decidable (_ < _))

/-- `procrastinate_notify_queue_job_inserted_v1` and
`procrastinate_notify_queue_abort_job_v1`, for rows in these queues. -/
def notifyQueues (queueNames : List String) : Except SqlError Unit :=
  if ∀ queueName ∈ queueNames, ChannelFits queueName then .ok ()
  else .error (.invalidParameterValue "channel name too long")

/-! ## Deferring -/

/-- One row of the `INSERT INTO procrastinate_jobs`. -/
def insertJob (job : JobToDefer) (store : JobStore) : Except SqlError (Job × JobStore) := do
  let queueName ← varchar128 job.queueName
  let taskName ← varchar128 job.taskName
  let row := fun id =>
    Job.mk id queueName taskName job.priority job.lock job.queueingLock job.args .todo
      job.scheduledAt 0 false none
  let inserted ← accept { store.toJobTables with jobs := store.jobs.insert row fun _ => rfl }
  return (row (store.jobs.lastValue + 1), inserted)

def insertJobs : List JobToDefer → JobStore → Except SqlError (List Job × JobStore)
  | [], store => .ok ([], store)
  | job :: rest, store => do
      let first ← insertJob job store
      let later ← insertJobs rest first.2
      return (first.1 :: later.1, later.2)

/-- `procrastinate_defer_jobs_v1`; `array_agg` of no row is NULL. -/
def deferJobsV1 (jobs : List JobToDefer) (now : Instant) (store : JobStore) :
    Except SqlError (Option (List Nat) × JobStore) := do
  let inserted ← insertJobs jobs store
  notifyQueues (inserted.1.map Job.queueName)
  let logged ← accept
    { inserted.2.toJobTables with
      events := inserted.1.foldl
        (fun events row => logEvents row.id (insertEvents now row) events) inserted.2.events }
  return (if inserted.1 = [] then none else some (inserted.1.map Job.id), logged)

structure PeriodicJob where
  queueName : String
  lock : Option String
  queueingLock : Option String
  taskName : String
  priority : Int
  periodicId : String
  deferTimestamp : Int
  args : JsonValue

/-- The rows of one periodic task that are older than the tick. -/
def PeriodicJob.outdates (job : PeriodicJob) (tick : PeriodicDefer) : Bool :=
  tick.taskName = job.taskName && tick.periodicId = job.periodicId &&
    tick.deferTimestamp < job.deferTimestamp

/-- `procrastinate_defer_periodic_job_v2`. -/
def deferPeriodicJobV2 (job : PeriodicJob) (now : Instant) (store : JobStore) :
    Except SqlError (Option Nat × JobStore) := do
  let taskName ← varchar128 job.taskName
  let periodicId ← varchar128 job.periodicId
  let row := fun id => PeriodicDefer.mk id taskName job.deferTimestamp none periodicId
  -- `ON CONFLICT DO NOTHING`: the default was drawn before the conflict was seen.
  if store.periodicDefers.rows.any fun tick => periodicDefersUnique tick = periodicDefersUnique (row 0) then
    let drawn ← accept { store.toJobTables with periodicDefers := store.periodicDefers.draw 1 }
    return (none, drawn)
  else
    let inserted ← accept
      { store.toJobTables with periodicDefers := store.periodicDefers.insert row fun _ => rfl }
    let deferId := store.periodicDefers.lastValue + 1
    let deferred ← deferJobsV1
      [⟨job.queueName, job.taskName, job.priority, job.lock, job.queueingLock, job.args, none⟩] now
      inserted
    let jobId := deferred.1.bind List.head?
    let linked ← accept
      { deferred.2.toJobTables with
        periodicDefers := deferred.2.periodicDefers.update (fun tick => tick.id = deferId)
          (fun tick => { tick with jobId := jobId }) fun _ => rfl }
    let pruned ← accept
      { linked.toJobTables with periodicDefers := linked.periodicDefers.delete job.outdates }
    return (jobId, pruned)

/-! ## Fetching -/

/-- Another job with the lock is running, or waits and comes first. -/
def blocked (jobs : List Job) (job : Job) : Bool :=
  jobs.any fun other =>
    job.lock.isSome && other.lock = job.lock &&
      (other.status = .doing ||
        other.status = .todo &&
          (job.priority < other.priority || other.priority = job.priority && other.id < job.id))

/-- In `todo`, in one of the queues, and not scheduled for later. -/
def due (targetQueueNames : Option (List String)) (now : Instant) (job : Job) : Bool :=
  job.status = .todo && targetQueueNames.all (fun names => job.queueName ∈ names) &&
    job.scheduledAt.all fun scheduledAt => scheduledAt ≤ now

/-- `ORDER BY jobs.priority DESC, jobs.id ASC`. -/
def Ahead (left right : Job) : Prop :=
  right.priority < left.priority ∨ left.priority = right.priority ∧ left.id ≤ right.id

instance : DecidableRel Ahead := fun _ _ => inferInstanceAs (Decidable (_ ∨ _))

def candidates (jobs : List Job) (targetQueueNames : Option (List String)) (now : Instant) :
    List Job :=
  (jobs.filter fun job => !blocked jobs job && due targetQueueNames now job).insertionSort Ahead

/-- `LIMIT 1 FOR UPDATE OF jobs SKIP LOCKED`: the first candidate of the
statement's snapshot that no other transaction has locked and whose row, as it
is by then, still qualifies. -/
def lockCandidate (snapshot : List Job) (locked : List Nat) (targetQueueNames : Option (List String))
    (now : Instant) (store : JobStore) : Option Job :=
  (candidates snapshot targetQueueNames now).findSome? fun job =>
    if job.id ∈ locked then none else (store.jobs.get? job.id).filter (due targetQueueNames now)

/-- `procrastinate_fetch_job_v2` beside other transactions: the statement sees
an earlier state of the jobs, and rows others have locked are skipped. -/
def fetchJobV2Among (snapshot : List Job) (locked : List Nat)
    (targetQueueNames : Option (List String)) (workerId : Option Nat) (now : Instant)
    (store : JobStore) : Except SqlError (Option Job × JobStore) :=
  match lockCandidate snapshot locked targetQueueNames now store with
  | none => .ok (none, store)
  | some candidate => do
      let fetched ← accept (updateJobs ⟨true, false⟩ now (fun job => job.id = candidate.id)
        (fun job => { job with status := .doing, workerId := workerId }) (fun _ => rfl)
        store.toJobTables)
      return (fetched.jobs.get? candidate.id, fetched)

/-- `procrastinate_fetch_job_v2` with nothing else going on. -/
def fetchJobV2 (targetQueueNames : Option (List String)) (workerId : Option Nat) (now : Instant)
    (store : JobStore) : Except SqlError (Option Job × JobStore) :=
  fetchJobV2Among store.jobs.rows [] targetQueueNames workerId now store

/-! ## Ending, cancelling and retrying -/

/-- `WHERE id = job_id AND status IN (...)`. -/
def jobIn (jobId : Nat) (statuses : List JobStatus) (job : Job) : Bool :=
  job.id = jobId && job.status ∈ statuses

/-- `RETURNING id INTO _job_id`. -/
def returned (chosen : Job → Bool) (store : JobStore) : Option Nat :=
  (store.jobs.rows.find? chosen).map Job.id

/-- `procrastinate_finish_job_v1`. -/
def finishJobV1 (jobId : Nat) (endStatus : JobStatus) (deleteJob : Bool) (now : Instant)
    (store : JobStore) : Except SqlError JobStore :=
  let chosen := jobIn jobId [.todo, .doing]
  if endStatus ∉ [JobStatus.succeeded, .failed, .aborted] then
    .error (.raised ("End status should be either \"succeeded\", \"failed\" or \"aborted\" (job id: " ++
      toString jobId ++ ")"))
  else do
    let after ← accept
      (if deleteJob then deleteJobs chosen store.toJobTables
       else updateJobs ⟨true, true⟩ now chosen
        (fun job =>
          { job with
            status := endStatus
            abortRequested := false
            attempts := if job.status = .doing then job.attempts + 1 else job.attempts })
        (fun _ => rfl) store.toJobTables)
    match returned chosen store with
    | none =>
        .error (.raised ("Job was not found or not in \"doing\" or \"todo\" status (job id: " ++
          toString jobId ++ ")"))
    | some _ => return after

/-- `procrastinate_cancel_job_v1`. -/
def cancelJobV1 (jobId : Nat) (abort deleteJob : Bool) (now : Instant) (store : JobStore) :
    Except SqlError (Option Nat × JobStore) := do
  let waiting := jobIn jobId [.todo]
  match if deleteJob then returned waiting store else none with
  | some deleted =>
      let after ← accept (deleteJobs waiting store.toJobTables)
      return (some deleted, after)
  | none =>
      if abort then
        let chosen := jobIn jobId [.todo, .doing]
        let after ← accept (updateJobs ⟨true, true⟩ now chosen
          (fun job =>
            { job with
              abortRequested := true
              status := if job.status = .todo then .cancelled else job.status })
          (fun _ => rfl) store.toJobTables)
        notifyQueues ((store.jobs.rows.filter fun job =>
          chosen job && job.status = .doing && !job.abortRequested).map Job.queueName)
        return (returned chosen store, after)
      else
        let after ← accept (updateJobs ⟨true, false⟩ now waiting
          (fun job => { job with status := .cancelled }) (fun _ => rfl) store.toJobTables)
        return (returned waiting store, after)

/-- What a retry may change about the job. -/
structure RetryChange where
  retryAt : Option Instant
  newPriority : Option Int
  newQueueName : Option String
  newLock : Option String
  deriving DecidableEq

/-- The `UPDATE` of a retry that goes back to `todo`. -/
def RetryChange.apply (change : RetryChange) (queueName : Option String) (job : Job) : Job :=
  { job with
    status := .todo
    attempts := job.attempts + 1
    scheduledAt := change.retryAt
    priority := change.newPriority.getD job.priority
    queueName := queueName.getD job.queueName
    lock := change.newLock.or job.lock }

/-- The two `UPDATE`s of `procrastinate_retry_job_v1` and `_v2`: a job whose
abort is requested fails, another one in the given statuses goes back to
`todo`. -/
def retryJob (jobId : Nat) (change : RetryChange) (aborting : Bool) (from_ : List JobStatus)
    (complaint : String) (now : Instant) (store : JobStore) : Except SqlError JobStore := do
  let chosen := jobIn jobId (if aborting then [.doing] else from_)
  match returned chosen store with
  | none => .error (.raised (complaint ++ toString jobId ++ ")"))
  | some _ =>
      if aborting then
        accept (updateJobs ⟨true, false⟩ now chosen (fun job => { job with status := .failed })
          (fun _ => rfl) store.toJobTables)
      else
        let queueName ← change.newQueueName.mapM varchar128
        accept (updateJobs ⟨true, false⟩ now chosen (change.apply queueName) (fun _ => rfl)
          store.toJobTables)

/-- `procrastinate_retry_job_v1`. -/
def retryJobV1 (jobId : Nat) (change : RetryChange) (now : Instant) (store : JobStore) :
    Except SqlError JobStore :=
  let read := (store.jobs.rows.find? (jobIn jobId [.doing])).map Job.abortRequested
  retryJob jobId change (read = some true) [.doing]
    "Job was not found or not in \"doing\" status (job id: " now store

/-- `procrastinate_retry_job_v2`. -/
def retryJobV2 (jobId : Nat) (change : RetryChange) (now : Instant) (store : JobStore) :
    Except SqlError JobStore :=
  let read := store.jobs.rows.find? (jobIn jobId [.doing, .failed])
  retryJob jobId change (read.any fun job => job.status = .doing && job.abortRequested)
    [.doing, .failed] "Job was not found or has an invalid status to retry (job id: " now store

/-! ## Workers -/

/-- `procrastinate_register_worker_v1`. -/
def registerWorkerV1 (now : Instant) (store : JobStore) : Except SqlError (Nat × JobStore) := do
  let after ← accept
    { store.toJobTables with workers := store.workers.insert (fun id => ⟨id, now⟩) fun _ => rfl }
  return (store.workers.lastValue + 1, after)

/-- `procrastinate_unregister_worker_v1`. -/
def unregisterWorkerV1 (workerId : Nat) (now : Instant) (store : JobStore) :
    Except SqlError JobStore :=
  accept (deleteWorkers now (fun worker => worker.id = workerId) store.toJobTables)

/-- `procrastinate_update_heartbeat_v1`. -/
def updateHeartbeatV1 (workerId : Nat) (now : Instant) (store : JobStore) :
    Except SqlError JobStore :=
  accept
    { store.toJobTables with
      workers := store.workers.update (fun worker => worker.id = workerId)
        (fun worker => { worker with lastHeartbeat := now }) fun _ => rfl }

/-- `procrastinate_prune_stalled_workers_v1`, the seconds as an interval. -/
def pruneStalledWorkersV1 (sinceHeartbeat : Int) (now : Instant) (store : JobStore) :
    Except SqlError (List Nat × JobStore) := do
  let stalled := fun (worker : Worker) => decide (worker.lastHeartbeat < now - sinceHeartbeat)
  let after ← accept (deleteWorkers now stalled store.toJobTables)
  return ((store.workers.rows.filter stalled).map Worker.id, after)

end Morai.Procrastinate.Functions
