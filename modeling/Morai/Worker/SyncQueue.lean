import Morai.Api.SyncRuns
import Morai.Ingest.ElementsLand
import Morai.Ingest.WindowsEnd
import Morai.Procrastinate.LoneWorker
import Morai.Python.UuidText

/-!
# The worker's queue of sync jobs

Both the scheduler and a manual sync defer `sync_user` by name, and the one
worker takes the jobs one after the other and ends each as its task ended. So
the queue and `sync_runs` have to tell the same story, whoever deferred the
jobs and whatever their arguments are.
-/

namespace Morai.Worker.SyncQueue

open Morai.Crypto Morai.Db Morai.Python Morai.Foundation.PrimaryKey Morai.Foundation.Runs
open Morai.Foundation.Serial Morai.Ingest.ElementsLand Morai.Ingest.SyncWindows
open Morai.Ingest.SyncUser Morai.Ingest.WindowsEnd
open Morai.Vendor.Connections Morai.Worker.SyncUserTask Morai.Api.SyncRuns
open Morai.Procrastinate.Schema Morai.Procrastinate.Functions Morai.Procrastinate.Steps
open Morai.Procrastinate.Effects Morai.Procrastinate.FetchOrder Morai.Procrastinate.Admitted
open Morai.Procrastinate.LoneWorker

set_option autoImplicit false

/-! ## Deferring -/

/-- What a task is deferred with where it is configured by name alone. -/
structure TaskOptions where
  queue : String
  priority : Int
  lock : Option String
  queueingLock : Option String

/-- `defer_async`, in a transaction of its own. The library is taken to call
the function once, with the task's options as they are configured and nothing
scheduled. -/
def deferAsync (options : TaskOptions) (taskName : String) (args : JsonValue) (now : Instant)
    (store : JobStore) : Except SqlError (Option (List Nat) × JobStore) :=
  deferJobsV1
    [⟨options.queue, taskName, options.priority, options.lock, options.queueingLock, args, none⟩] now
    store

/-- The keywords of a `sync_user` job: the scheduler gives no trigger. -/
def syncArgs (userId : Uuid) : Option SyncTrigger → JsonValue
  | none => .object [("user_id", .str userId.text)]
  | some trigger => .object [("user_id", .str userId.text), ("trigger", .str trigger.value)]

/-- The loop of `sync_all_connected_users`: where one raises, those before it
are deferred. -/
def deferEach (options : TaskOptions) (deferredAt : Uuid → Instant) :
    List Uuid → JobStore → Except SqlError Unit × JobStore
  | [], store => (.ok (), store)
  | userId :: rest, store =>
      match deferAsync options "sync_user" (syncArgs userId none) (deferredAt userId) store with
      | .error raised => (.error raised, store)
      | .ok deferred => deferEach options deferredAt rest deferred.2

/-- `select(SchwabConnection.user_id)`. -/
def connectedUsers (scan : ScanOrder SchwabConnection) (db : Database) : List Uuid :=
  (scan.arrange db.schwabConnections.rows).map SchwabConnection.userId

def syncAllConnectedUsers (options : TaskOptions) (scan : ScanOrder SchwabConnection)
    (deferredAt : Uuid → Instant) (db : Database) (store : JobStore) :
    Except SqlError (List Uuid) × JobStore :=
  let userIds := connectedUsers scan db
  let deferred := deferEach options deferredAt userIds store
  (deferred.1.map fun _ => userIds, deferred.2)

/-- `defer_manual_sync`. -/
def deferManualSync (options : TaskOptions) (userId : Uuid) (now : Instant) (store : JobStore) :
    Except SqlError (Option (List Nat) × JobStore) :=
  deferAsync options "sync_user" (syncArgs userId (some .manual)) now store

/-! ## Running -/

structure SyncArgs where
  text : String
  userId : Uuid
  trigger : SyncTrigger

/-- `sync_user_task(**args)`; `none` where binding the keywords, the trigger or
`UUID(user_id)` raises. The last is raised again by the handler, before it has
recorded anything. -/
def readSyncArgs : JsonValue → Option SyncArgs
  | .object fields =>
      if fields.all (fun field => field.1 = "user_id" || field.1 = "trigger") then
        match fields.lookup "user_id", fields.lookup "trigger" with
        | some (.str text), none =>
            (Uuid.ofPython? text).map fun userId => ⟨text, userId, .scheduled⟩
        | some (.str text), some (.str trigger) =>
            match syncTriggerOf trigger with
            | .ok trigger => (Uuid.ofPython? text).map fun userId => ⟨text, userId, trigger⟩
            | .error _ => none
        | _, _ => none
      else none
  | _ => none

/-- A periodic task takes its timestamp and nothing else. -/
def bindsTimestamp : JsonValue → Bool
  | .object [(name, _)] => name = "timestamp"
  | _ => false

/-- What comes from outside in one turn of the worker. -/
structure WorkerTurn where
  fetchedAt : Instant
  startedAt : Instant
  recordedAt : Instant
  finishedAt : Instant
  deferredAt : Uuid → Instant
  vendor : VendorRun
  draws : SyncDraws

section Worker

variable (keys : KeyService) (pydantic : Pydantic) (settings : Settings) (options : TaskOptions)
variable (scan : ScanOrder SchwabConnection) (users : List Uuid) (workerId : Nat)

/-- `sync_user_task` where `users` are there. The foreign key of `sync_runs`
refuses the row of anyone else; the session that records a failure is set to
the text of the id, which the policy then casts. -/
def syncUserJob (turn : WorkerTurn) (args : SyncArgs) (db : Database) :
    Option (Except Raised Unit × Database) :=
  match syncUserTask keys pydantic settings turn.vendor turn.draws args.userId
      ⟨turn.startedAt, turn.recordedAt, args.trigger⟩ db with
  | none => none
  | some (.ok (), after) =>
      if args.userId ∈ users then some (.ok (), after)
      else some (.error (.integrityError "sync_runs_user_id_fkey"), db)
  | some (.error raised, after) =>
      if Uuid.cast? args.text ≠ some args.userId then some (.error .dataError, db)
      else if args.userId ∈ users then some (.error raised, after)
      else some (.error (.integrityError "sync_runs_user_id_fkey"), db)

def statusOf : Except Raised Unit → JobStatus
  | .ok () => .succeeded
  | .error _ => .failed

/-- The three tasks of the worker; one it does not know fails. `none` is a task
that does not return. -/
def runTask (turn : WorkerTurn) (job : Job) (store : JobStore) (db : Database) :
    Option (JobStatus × JobStore × Database) :=
  if job.taskName = "heartbeat" then
    some (if bindsTimestamp job.args then .succeeded else .failed, store, db)
  else if job.taskName = "sync_all_connected_users" then
    if bindsTimestamp job.args then
      match syncAllConnectedUsers options scan turn.deferredAt db store with
      | (.ok _, after) => some (.succeeded, after, db)
      | (.error _, after) => some (.failed, after, db)
    else some (.failed, store, db)
  else if job.taskName = "sync_user" then
    match readSyncArgs job.args with
    | none => some (.failed, store, db)
    | some args =>
        match syncUserJob keys pydantic settings users turn args db with
        | none => none
        | some (ended, after) => some (statusOf ended, store, after)
  else some (.failed, store, db)

/-- The worker. The library is taken to do what its defaults say: one job at a
time, from any queue and under the id it registered with, and each job ended as
its task ended, without a retry and without deleting it. -/
def work : List WorkerTurn → JobStore → Database → Option (Except SqlError (JobStore × Database))
  | [], store, db => some (.ok (store, db))
  | turn :: rest, store, db =>
      match fetchJobV2 none (some workerId) turn.fetchedAt store with
      | .error raised => some (.error raised)
      | .ok (none, after) => work rest after db
      | .ok (some job, fetched) =>
          match runTask keys pydantic settings options scan users turn job fetched db with
          | none => none
          | some (status, ran, after) =>
              match finishJobV1 job.id status false turn.finishedAt ran with
              | .error raised => some (.error raised)
              | .ok finished => work rest finished after

/-! ## One sync job -/

/-- How a job ends and what its run says. -/
def Agrees (status : JobStatus) (run : SyncRun) : Prop :=
  status = .succeeded ∧ run.status = SyncStatus.succeeded.value ∨
    status = .failed ∧ run.status = SyncStatus.failed.value

/-- What a `sync_user` job with these arguments adds to `sync_runs`: its user's
run with its trigger, or nothing where the user is not there or the database
does not read the id as Python does. -/
def Records (args : SyncArgs) (status : JobStatus) (added : List SyncRun) : Prop :=
  (args.userId ∈ users ∧ ∃ run, added = [run] ∧ run.userId = args.userId ∧
      run.trigger = args.trigger.value ∧ Agrees status run) ∨
    (args.userId ∉ users ∨ Uuid.cast? args.text ≠ some args.userId) ∧
      status = .failed ∧ added = []

/-- How a `sync_user` job ends and what it adds to `sync_runs`: nothing where
its arguments cannot be read. -/
def Leaves (job : Job) (status : JobStatus) (added : List SyncRun) : Prop :=
  match readSyncArgs job.args with
  | none => status = .failed ∧ added = []
  | some args => Records users args status added

theorem leaves_ended (job : Job) (status : JobStatus) (added : List SyncRun)
    (leaves : Leaves users job status added) : status = .succeeded ∨ status = .failed := by
  unfold Leaves at leaves
  split at leaves
  · exact Or.inr leaves.1
  · unfold Records at leaves
    obtain ⟨_, run, _, _, _, agrees⟩ | ⟨_, failed, _⟩ := leaves
    · exact agrees.imp And.left And.left
    · exact Or.inr failed

/-- With a range that moves, the task ends and leaves one run. -/
theorem sync_user_task_records (moves : settings.schwabTxMaxRangeDays ≠ 0) (vendor : VendorRun)
    (draws : SyncDraws) (userId : Uuid) (call : TaskCall) (db : Database) :
    ∃ result after run, syncUserTask keys pydantic settings vendor draws userId call db =
        some (result, after) ∧
      after.syncRuns = db.syncRuns ++ [run] ∧ run.userId = userId ∧
      run.trigger = call.trigger.value ∧
      run.status = (match result with
        | .ok _ => SyncStatus.succeeded.value
        | .error _ => SyncStatus.failed.value) := by
  cases ran : syncUser keys pydantic settings vendor draws userId call.startedAt db with
  | none =>
      exfalso
      unfold syncUser at ran
      split at ran
      · cases ran
      · cases ran
      · rename_i connection _
        have returns := sync_windows_some connection.lastSyncedAt call.startedAt settings
          (Or.inl moves)
        split at ran
        · rename_i never
          exact returns never
        · cases ran
        · cases ran
  | some result =>
      cases result with
      | error raised =>
          have made : syncUserTask keys pydantic settings vendor draws userId call db =
              some (.error raised, recordSyncRun userId call .failed none none
                (some (classifySyncError raised)) db) := by
            simp only [syncUserTask, ran]
          exact ⟨.error raised, _, failedRun userId call raised, made, rfl, rfl, rfl, rfl⟩
      | ok value =>
          obtain ⟨after, made, recorded⟩ := sync_user_task_commits keys pydantic settings vendor draws
            userId call db value ran
          exact ⟨.ok (), after, _, made, recorded, rfl, rfl, rfl⟩

/-- The job ends, having recorded its run or failed without one. -/
theorem sync_user_job_records (moves : settings.schwabTxMaxRangeDays ≠ 0) (turn : WorkerTurn)
    (args : SyncArgs) (db : Database) :
    ∃ ended after added, syncUserJob keys pydantic settings users turn args db =
        some (ended, after) ∧
      after.syncRuns = db.syncRuns ++ added ∧ Records users args (statusOf ended) added := by
  obtain ⟨result, after, run, ran, recorded, owner, trigger, status⟩ :=
    sync_user_task_records keys pydantic settings moves turn.vendor turn.draws args.userId
      ⟨turn.startedAt, turn.recordedAt, args.trigger⟩ db
  have refused : ∀ raised, (args.userId ∉ users ∨ Uuid.cast? args.text ≠ some args.userId) →
      Records users args (statusOf (.error raised)) [] :=
    fun _ why => Or.inr ⟨why, rfl, rfl⟩
  unfold syncUserJob
  rw [ran]
  cases result with
  | ok value =>
      by_cases there : args.userId ∈ users
      · exact ⟨.ok (), after, [run], if_pos there, recorded,
          Or.inl ⟨there, run, rfl, owner, trigger, Or.inl ⟨rfl, status⟩⟩⟩
      · exact ⟨_, db, [], if_neg there, (List.append_nil _).symm, refused _ (Or.inl there)⟩
  | error raised =>
      by_cases cast : Uuid.cast? args.text = some args.userId
      · by_cases there : args.userId ∈ users
        · exact ⟨.error raised, after, [run], (if_neg (not_not.mpr cast)).trans (if_pos there),
            recorded, Or.inl ⟨there, run, rfl, owner, trigger, Or.inr ⟨rfl, status⟩⟩⟩
        · exact ⟨_, db, [], (if_neg (not_not.mpr cast)).trans (if_neg there),
            (List.append_nil _).symm, refused _ (Or.inl there)⟩
      · exact ⟨_, db, [], if_pos cast, (List.append_nil _).symm, refused _ (Or.inr cast)⟩

theorem sync_task_leaves (moves : settings.schwabTxMaxRangeDays ≠ 0) (turn : WorkerTurn) (job : Job)
    (named : job.taskName = "sync_user") (store : JobStore) (db : Database) :
    ∃ status after added, runTask keys pydantic settings options scan users turn job store db =
        some (status, store, after) ∧
      after.syncRuns = db.syncRuns ++ added ∧ Leaves users job status added := by
  unfold runTask Leaves
  rw [if_neg (by simp [named]), if_neg (by simp [named]), if_pos named]
  cases readSyncArgs job.args with
  | none => exact ⟨.failed, db, [], rfl, (List.append_nil _).symm, rfl, rfl⟩
  | some args =>
      obtain ⟨ended, after, added, ran, recorded, records⟩ :=
        sync_user_job_records keys pydantic settings users moves turn args db
      simp only [ran]
      exact ⟨statusOf ended, after, added, rfl, recorded, records⟩

/-! ## One turn -/

/-- A turn that gets a job and whose task returns. -/
theorem worked_turn (turn : WorkerTurn) (rest : List WorkerTurn) (store fetched ran : JobStore)
    (db after : Database) (job : Job) (status : JobStatus)
    (fetchedOk : fetchJobV2 none (some workerId) turn.fetchedAt store = .ok (some job, fetched))
    (ranTask : runTask keys pydantic settings options scan users turn job fetched db =
      some (status, ran, after)) (busy : Busy ran job)
    (ends : status = .succeeded ∨ status = .failed) :
    ∃ finished, work keys pydantic settings options scan users workerId (turn :: rest) store db =
        work keys pydantic settings options scan users workerId rest finished after ∧
      Idle finished ∧ waiting finished = waiting ran ∧ finished.workers = ran.workers ∧
      finished.jobs.rows = ran.jobs.rows.map fun other =>
        if other.id = job.id then finishedAs status other else other := by
  have isEnd : status ∈ [JobStatus.succeeded, .failed, .aborted] := by
    cases ends with
    | inl same => simp [same]
    | inr same => simp [same]
  obtain ⟨finished, finishedOk⟩ := finish_admitted ran _ _ busy.row busy.runs status isEnd false
    turn.finishedAt
  obtain ⟨idle, same, workers, kept⟩ := finished_idle ran finished _ _ _ _ busy finishedOk
  refine ⟨finished, ?_, idle, same, workers, kept rfl⟩
  rw [work, fetchedOk]
  simp only [ranTask, finishedOk]

/-- A turn on a queue of sync jobs: the first of them is run and has ended, and
what had ended before is as it was. -/
theorem sync_turn (moves : settings.schwabTxMaxRangeDays ≠ 0) (turn : WorkerTurn)
    (rest : List WorkerTurn) (store : JobStore) (db : Database)
    (registered : (store.workers.get? workerId).isSome) (idle : Idle store)
    (ready : ∀ job ∈ waiting store, due none turn.fetchedAt job = true)
    (named : ∀ job ∈ waiting store, job.taskName = "sync_user") (some_ : waiting store ≠ []) :
    ∃ first finished after added,
      first ∈ waiting store ∧ (∀ other ∈ waiting store, Ahead first other) ∧
        work keys pydantic settings options scan users workerId (turn :: rest) store db =
          work keys pydantic settings options scan users workerId rest finished after ∧
        Idle finished ∧
        waiting finished = (waiting store).filter (fun other => decide (other.id ≠ first.id)) ∧
        finished.workers = store.workers ∧ after.syncRuns = db.syncRuns ++ added ∧
        (∃ row ∈ finished.jobs.rows, row.id = first.id ∧ row.status ≠ .todo ∧
          Leaves users first row.status added) ∧
        ∀ row ∈ store.jobs.rows, row.status ≠ .todo → row ∈ finished.jobs.rows := by
  obtain ⟨first, fetched, member, isFirst, fetchedOk, started, busy, fewer, workers⟩ :=
    turn_fetches workerId turn.fetchedAt store registered idle ready some_
  obtain ⟨status, after, added, ranTask, recorded, leaves⟩ :=
    sync_task_leaves keys pydantic settings options scan users moves turn
      (startedBy (some workerId) first) (named first member) fetched db
  have ended := leaves_ended users _ status added leaves
  obtain ⟨finished, worked, stillIdle, stillWaiting, finishedWorkers, rows⟩ :=
    worked_turn keys pydantic settings options scan users workerId turn rest store fetched fetched
      db after _ status fetchedOk ranTask busy ended
  refine ⟨first, finished, after, added, member, isFirst, worked, stillIdle,
    stillWaiting.trans fewer, finishedWorkers.trans workers, recorded, ?_, ?_⟩
  · obtain ⟨row, _⟩ := (fetched.jobs.get_eq_some_iff _ _).mp busy.row
    refine ⟨finishedAs status (startedBy (some workerId) first), ?_, rfl, ?_, leaves⟩
    · rw [rows]
      exact List.mem_map.mpr ⟨_, row, if_pos rfl⟩
    · intro still
      have same : status = .todo := still
      rw [same] at ended
      cases ended with
      | inl impossible => cases impossible
      | inr impossible => cases impossible
  · intro row rowMember notWaiting
    have apart : row.id ≠ first.id := by
      intro sameId
      obtain ⟨firstRow, waits⟩ := List.mem_filter.mp member
      rw [store.jobs.eq_of_id row first rowMember firstRow sameId] at notWaiting
      exact notWaiting (of_decide_eq_true waits)
    have fetchedRows : fetched.jobs.rows = store.jobs.rows.map fun other =>
        if decide (other.id = first.id) = true then startedBy (some workerId) other else other := by
      rw [started]
      rfl
    rw [rows, fetchedRows, List.map_map]
    exact List.mem_map.mpr ⟨row, rowMember, by simp [startedBy, apart]⟩

/-! ## The whole queue -/

/-- A job's row in the end, beside what the job added. -/
def LeftBy (final : JobStore) (job : Job) (added : List SyncRun) : Prop :=
  ∃ row ∈ final.jobs.rows, row.id = job.id ∧ Leaves users job row.status added

/-- The worker takes the waiting sync jobs by priority and then in the order
they were deferred, and records their runs in that order. -/
theorem sync_queue_worked (moves : settings.schwabTxMaxRangeDays ≠ 0) (turns : List WorkerTurn)
    (store : JobStore) (db : Database) (registered : (store.workers.get? workerId).isSome)
    (idle : Idle store)
    (ready : ∀ job ∈ waiting store, ∀ turn ∈ turns, due none turn.fetchedAt job = true)
    (named : ∀ job ∈ waiting store, job.taskName = "sync_user")
    (enough : (waiting store).length ≤ turns.length) :
    ∃ jobs final after added,
      work keys pydantic settings options scan users workerId turns store db =
          some (.ok (final, after)) ∧
        waiting final = [] ∧ jobs.Perm (waiting store) ∧ jobs.Pairwise Ahead ∧
        after.syncRuns = db.syncRuns ++ added.flatten ∧ List.Forall₂ (LeftBy users final) jobs added ∧
        ∀ row ∈ store.jobs.rows, row.status ≠ .todo → row ∈ final.jobs.rows := by
  induction turns generalizing store db with
  | nil =>
      have empty : waiting store = [] := List.eq_nil_of_length_eq_zero (Nat.le_zero.mp enough)
      exact ⟨[], store, db, [], rfl, empty, by rw [empty], List.Pairwise.nil,
        (List.append_nil _).symm, List.Forall₂.nil, fun row member _ => member⟩
  | cons turn rest ih =>
      by_cases empty : waiting store = []
      · obtain ⟨jobs, final, after, added, ran, done⟩ := ih store db registered idle
          (fun job member other otherMember =>
            ready job member other (List.mem_cons_of_mem turn otherMember)) named (by simp [empty])
        refine ⟨jobs, final, after, added, ?_, done⟩
        rw [work, nothing_fetched store workerId turn.fetchedAt empty]
        exact ran
      · obtain ⟨first, finished, middle, newest, member, isFirst, worked, stillIdle, fewer, workers,
          recorded, ⟨row, rowMember, sameId, past, leaves⟩, kept⟩ :=
          sync_turn keys pydantic settings options scan users workerId moves turn rest store db
            registered idle (fun job jobMember => ready job jobMember turn List.mem_cons_self) named empty
        have split := waiting_perm store first member
        rw [← fewer] at split
        have shorter := split.length_eq
        simp only [List.length_cons] at shorter enough
        have remains : ∀ job ∈ waiting finished, job ∈ waiting store := by
          intro job jobMember
          rw [fewer] at jobMember
          exact List.mem_of_mem_filter jobMember
        obtain ⟨jobs, final, after, added, ran, done, perm, order, allRecorded, left, stay⟩ :=
          ih finished middle (workers ▸ registered) stillIdle
            (fun job jobMember later laterMember =>
              ready job (remains job jobMember) later (List.mem_cons_of_mem turn laterMember))
            (fun job jobMember => named job (remains job jobMember)) (by omega)
        refine ⟨first :: jobs, final, after, newest :: added, worked.trans ran, done,
          (List.Perm.cons first perm).trans split.symm, ?_, ?_, ?_, ?_⟩
        · refine List.pairwise_cons.mpr ⟨fun job jobMember => ?_, order⟩
          exact isFirst job (remains job (perm.mem_iff.mp jobMember))
        · rw [allRecorded, recorded, List.append_assoc, List.flatten_cons]
        · exact List.Forall₂.cons ⟨row, stay row rowMember past, sameId, leaves⟩ left
        · intro other otherMember notWaiting
          exact stay other (kept other otherMember notWaiting) notWaiting

/-! ## A manual sync -/

theorem read_sync_args (userId : Uuid) (trigger : Option SyncTrigger) :
    readSyncArgs (syncArgs userId trigger) =
      some ⟨userId.text, userId, trigger.getD .scheduled⟩ := by
  cases trigger with
  | none => simp [syncArgs, readSyncArgs, List.lookup_cons, uuid_of_python_text]
  | some trigger =>
      cases trigger <;> simp [syncArgs, readSyncArgs, List.lookup_cons, uuid_of_python_text] <;> rfl

/-- A job that was deferred so leaves one run of a user who is there. -/
theorem deferred_leaves (job : Job) (status : JobStatus) (added : List SyncRun) (userId : Uuid)
    (trigger : Option SyncTrigger) (args : job.args = syncArgs userId trigger)
    (there : userId ∈ users) (leaves : Leaves users job status added) :
    ∃ run, added = [run] ∧ run.userId = userId ∧
      run.trigger = (trigger.getD .scheduled).value ∧ Agrees status run := by
  unfold Leaves at leaves
  rw [args, read_sync_args] at leaves
  unfold Records at leaves
  obtain ⟨_, recorded⟩ | ⟨absent | unread, _, _⟩ := leaves
  · exact recorded
  · exact absurd there absent
  · exact absurd (uuid_cast_text userId) unread

/-- A `sync_user` job as it is deferred. -/
structure SyncJob (userId : Uuid) (trigger : Option SyncTrigger) (job : Job) : Prop where
  taskName : job.taskName = "sync_user"
  args : job.args = syncArgs userId trigger
  priority : job.priority = options.priority
  scheduledAt : job.scheduledAt = none
  waits : job.status = .todo

theorem sync_job_deferred (fits : ChannelFits options.queue) (unlocked : options.queueingLock = none)
    (userId : Uuid) (trigger : Option SyncTrigger) (now : Instant) (store : JobStore) :
    ∃ ids deferred row, deferAsync options "sync_user" (syncArgs userId trigger) now store =
        .ok (ids, deferred) ∧
      deferred.jobs.rows = store.jobs.rows ++ [row] ∧ deferred.workers = store.workers ∧
      SyncJob options userId trigger row := by
  have taskFits : varchar128 "sync_user" = .ok "sync_user" := by decide
  let job : JobToDefer := ⟨options.queue, "sync_user", options.priority, options.lock,
    options.queueingLock, syncArgs userId trigger, none⟩
  have free : ¬LockTaken job store := by
    rintro ⟨lock, wanted, _⟩
    have none_ : job.queueingLock = none := unlocked
    rw [none_] at wanted
    cases wanted
  obtain ⟨row, deferred, made, defers⟩ := defer_admitted job now store "sync_user" fits taskFits free
  cases defers.shaped with
  | cons shape _ =>
      have named := taskFits.symm.trans shape.taskName
      exact ⟨_, deferred, row, made, defers.added, defers.workers, (Except.ok.inj named).symm,
        shape.args, shape.priority, shape.scheduledAt, shape.fresh.status⟩

/-- Jobs deferred while one runs, or none, wait behind those that wait. -/
theorem waiting_append (store after : JobStore) (rows : List Job)
    (added : after.jobs.rows = store.jobs.rows ++ rows) (wait : ∀ row ∈ rows, row.status = .todo) :
    waiting after = waiting store ++ rows := by
  rw [waiting, added, List.filter_append, waiting]
  have all : (rows.filter fun row => decide (row.status = .todo)) = rows :=
    List.filter_eq_self.mpr fun row rowMember => decide_eq_true (wait row rowMember)
  rw [all]

/-- Jobs of one priority are taken as they stand in the table. -/
theorem alike_in_order (store : JobStore) (jobs : List Job) (priority : Int)
    (alike : ∀ job ∈ waiting store, job.priority = priority) (perm : jobs.Perm (waiting store))
    (order : jobs.Pairwise Ahead) : jobs = waiting store := by
  have listed : (waiting store).Pairwise fun earlier later => earlier.id < later.id :=
    store.jobs.ordered.sublist List.filter_sublist
  have ahead : (waiting store).Pairwise Ahead := by
    refine listed.imp_of_mem fun {earlier later} earlierMember laterMember less => Or.inr ⟨?_, less.le⟩
    rw [alike earlier earlierMember, alike later laterMember]
  refine List.Perm.eq_of_pairwise (fun left right leftMember rightMember before after => ?_) order
    ahead perm
  have leftWaits := perm.mem_iff.mp leftMember
  have sameId : left.id = right.id := by
    have leftPriority := alike left leftWaits
    have rightPriority := alike right rightMember
    unfold Ahead at before after
    omega
  exact store.jobs.eq_of_id left right (List.mem_of_mem_filter leftWaits)
    (List.mem_of_mem_filter rightMember) sameId

/-- A manual sync is deferred behind whatever waits, and its run is recorded
last: after those of the waiting sync jobs, in the order they were deferred. -/
theorem manual_sync_recorded_last (moves : settings.schwabTxMaxRangeDays ≠ 0)
    (fits : ChannelFits options.queue) (unlocked : options.queueingLock = none)
    (userId : Uuid) (there : userId ∈ users) (now : Instant) (turns : List WorkerTurn)
    (store : JobStore) (db : Database)
    (registered : (store.workers.get? workerId).isSome) (idle : Idle store)
    (ready : ∀ job ∈ waiting store, ∀ turn ∈ turns, due none turn.fetchedAt job = true)
    (named : ∀ job ∈ waiting store, job.taskName = "sync_user")
    (alike : ∀ job ∈ waiting store, job.priority = options.priority)
    (enough : (waiting store).length < turns.length) :
    ∃ ids queued final after added run,
      deferManualSync options userId now store = .ok (ids, queued) ∧
        work keys pydantic settings options scan users workerId turns queued db =
          some (.ok (final, after)) ∧
        waiting final = [] ∧ after.syncRuns = db.syncRuns ++ added.flatten ++ [run] ∧
        List.Forall₂ (LeftBy users final) (waiting store) added ∧
        run.userId = userId ∧ run.trigger = SyncTrigger.manual.value := by
  obtain ⟨ids, queued, manual, deferred, rows, workers, isSync⟩ :=
    sync_job_deferred options fits unlocked userId (some .manual) now store
  have all : waiting queued = waiting store ++ [manual] :=
    waiting_append store queued [manual] rows fun row member => by
      rw [List.mem_singleton.mp member, isSync.waits]
  have each : ∀ job ∈ waiting queued, job ∈ waiting store ∨ job = manual := by
    intro job member
    rw [all] at member
    exact (List.mem_append.mp member).imp id List.mem_singleton.mp
  have stillIdle : Idle queued := by
    intro job member
    rw [rows] at member
    cases List.mem_append.mp member with
    | inl old => exact idle job old
    | inr new =>
        rw [List.mem_singleton.mp new, isSync.waits]
        simp
  obtain ⟨jobs, final, after, added, ran, done, perm, order, recorded, left, _⟩ :=
    sync_queue_worked keys pydantic settings options scan users workerId moves turns queued db
      (workers ▸ registered) stillIdle
      (by
        intro job member turn turnMember
        cases each job member with
        | inl old => exact ready job old turn turnMember
        | inr same => simp [same, due, isSync.waits, isSync.scheduledAt])
      (by
        intro job member
        cases each job member with
        | inl old => exact named job old
        | inr same => rw [same, isSync.taskName])
      (by
        rw [all, List.length_append]
        exact enough)
  have inOrder := alike_in_order queued jobs options.priority
    (by
      intro job member
      cases each job member with
      | inl old => exact alike job old
      | inr same => rw [same, isSync.priority])
    perm order
  rw [inOrder, all] at left
  have waited := (List.forall₂_take_append added (waiting store) [manual] left.flip).flip
  have last := (List.forall₂_drop_append added (waiting store) [manual] left.flip).flip
  have parts := List.take_append_drop (waiting store).length added
  generalize List.take (waiting store).length added = earlier at waited parts
  generalize List.drop (waiting store).length added = newest at last parts
  cases last with
  | cons leftByManual nothing =>
      cases nothing
      obtain ⟨row, _, _, leaves⟩ := leftByManual
      obtain ⟨run, only, owner, trigger, _⟩ :=
        deferred_leaves users manual _ _ userId (some .manual) isSync.args there leaves
      refine ⟨ids, queued, final, after, earlier, run, deferred, ran, done, ?_, waited, owner, trigger⟩
      rw [recorded, ← parts, only, List.flatten_append, List.flatten_singleton, List.append_assoc]

end Worker

def byName : TaskOptions := ⟨"default", 0, none, none⟩

def afternoonTurn : WorkerTurn :=
  ⟨afternoon, afternoon, afternoon, afternoon, fun _ => afternoon, answering [], plainDraws⟩

/-- The scheduler's job of another user waits. -/
def oneSyncWaits : List Action :=
  [.registerWorker 0, .deferJobs [⟨"default", "sync_user", 0, none, none, syncArgs ⟨2⟩ none, none⟩] 0]

theorem manual_sync_recorded_last_of_two :
    ∃ store ids queued final after added run,
      runFrom step oneSyncWaits .empty = some store ∧
        deferManualSync byName ⟨1⟩ afternoon store = .ok (ids, queued) ∧
        work plainKeys plainPydantic {} byName (.asStored _) [⟨1⟩, ⟨2⟩] 1
          [afternoonTurn, afternoonTurn] queued syncedUser = some (.ok (final, after)) ∧
        after.syncRuns = syncedUser.syncRuns ++ added.flatten ++ [run] ∧
        List.Forall₂ (LeftBy [⟨1⟩, ⟨2⟩] final) (waiting store) added ∧
        run.userId = ⟨1⟩ ∧ run.trigger = SyncTrigger.manual.value := by
  have reads : ((runFrom step oneSyncWaits .empty).any fun store =>
      (store.workers.get? 1).isSome && (decide (∀ job ∈ store.jobs.rows, job.status ≠ .doing) &&
        (decide (∀ job ∈ waiting store, ∀ turn ∈ [afternoonTurn, afternoonTurn],
            due none turn.fetchedAt job = true) &&
          decide ((∀ job ∈ waiting store, job.taskName = "sync_user") ∧
            (∀ job ∈ waiting store, job.priority = 0) ∧ (waiting store).length < 2)))) = true := by
    decide +kernel
  obtain ⟨present, holds⟩ := (Option.any_eq_true_iff_get _ _).mp reads
  obtain ⟨registered, rest⟩ := Bool.and_eq_true_iff.mp holds
  obtain ⟨unstarted, others⟩ := Bool.and_eq_true_iff.mp rest
  obtain ⟨ready, shapes⟩ := Bool.and_eq_true_iff.mp others
  obtain ⟨named, alike, enough⟩ := of_decide_eq_true shapes
  obtain ⟨ids, queued, final, after, added, run, deferred, ran, _, recorded, left, owner, trigger⟩ :=
    manual_sync_recorded_last plainKeys plainPydantic {} byName (.asStored _) [⟨1⟩, ⟨2⟩] 1
      (by decide) (by decide) rfl ⟨1⟩ (by decide) afternoon [afternoonTurn, afternoonTurn] _ syncedUser
      registered (fun job member => of_decide_eq_true unstarted job member) (of_decide_eq_true ready)
      named alike enough
  exact ⟨_, ids, queued, final, after, added, run, (Option.some_get present).symm, deferred, ran,
    recorded, left, owner, trigger⟩

end Morai.Worker.SyncQueue
