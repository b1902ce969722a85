import Morai.Procrastinate.FetchOrder

/-!
# Statements that raise nothing

The foreign keys of a store hold after every update and every deletion of
jobs, so only the check, the two unique indexes on locks and the reference to
a worker can stop an update, and nothing stops a deletion. A fetch that
nothing overlaps is stopped only by a worker that is gone.
-/

namespace Morai.Procrastinate.Admitted

open Morai.Db (bind_ok)
open Morai.Foundation.Runs Morai.Foundation.Serial Morai.Procrastinate.Schema
open Morai.Procrastinate.Functions Morai.Procrastinate.JobViews Morai.Procrastinate.Steps
open Morai.Procrastinate.Effects Morai.Procrastinate.FetchOrder Morai.Python

set_option autoImplicit false

theorem accept_ok (tables : JobTables) (checked : ∀ job ∈ tables.jobs.rows, NotTodoAbortRequested job)
    (queueingLocks : Indexed queueingLockIdx tables.jobs.rows)
    (locks : Indexed lockIdx tables.jobs.rows)
    (ticks : Indexed periodicDefersUnique tables.periodicDefers.rows)
    (jobWorkers : References Job.workerId tables.jobs.rows tables.workers)
    (tickJobs : References PeriodicDefer.jobId tables.periodicDefers.rows tables.jobs)
    (eventJobs : References (fun event => some event.jobId) tables.events.rows tables.jobs) :
    accept tables = .ok ⟨tables, checked, queueingLocks, locks, ticks, jobWorkers, tickJobs, eventJobs⟩ := by
  unfold accept
  rw [dif_pos checked, dif_pos queueingLocks, dif_pos locks, dif_pos ticks, dif_pos jobWorkers,
    dif_pos tickJobs, dif_pos eventJobs]

theorem log_events_mem (jobId : Nat) (entries : List (JobEventType × Instant))
    (events : SerialTable Event.id) (event : Event)
    (member : event ∈ (logEvents jobId entries events).rows) :
    event ∈ events.rows ∨ event.jobId = jobId := by
  induction entries generalizing events with
  | nil => exact Or.inl member
  | cons entry rest ih =>
      cases ih (events.insert (fun id => ⟨id, jobId, entry.1, entry.2⟩) fun _ => rfl) member with
      | inl old =>
          cases List.mem_append.mp old with
          | inl older => exact Or.inl older
          | inr new =>
              rw [List.mem_singleton.mp new]
              exact Or.inr rfl
      | inr about => exact Or.inr about

theorem log_fold_mem (entries : Job → List (JobEventType × Instant)) (rows : List Job)
    (events : SerialTable Event.id) (event : Event)
    (member : event ∈
      (rows.foldl (fun table row => logEvents row.id (entries row) table) events).rows) :
    event ∈ events.rows ∨ ∃ row ∈ rows, event.jobId = row.id := by
  induction rows generalizing events with
  | nil => exact Or.inl member
  | cons row rest ih =>
      cases ih (logEvents row.id (entries row) events) member with
      | inl old =>
          cases log_events_mem row.id (entries row) events event old with
          | inl older => exact Or.inl older
          | inr about => exact Or.inr ⟨row, List.mem_cons_self, about⟩
      | inr later =>
          obtain ⟨other, otherMember, about⟩ := later
          exact Or.inr ⟨other, List.mem_cons_of_mem _ otherMember, about⟩

section Updates

variable (columns : SetColumns) (now : Instant) (chosen : Job → Bool) (set : Job → Job)
variable (keeps : ∀ job, (set job).id = job.id) (store : JobStore)

theorem update_get_some (jobId : Nat) (there : (store.jobs.get? jobId).isSome) :
    ((updateJobs columns now chosen set keeps store.toJobTables).jobs.get? jobId).isSome := by
  simp only [updateJobs, SerialTable.update_get, Option.isSome_map]
  exact there

theorem update_event_jobs :
    References (fun event => some event.jobId)
      (updateJobs columns now chosen set keeps store.toJobTables).events.rows
      (updateJobs columns now chosen set keeps store.toJobTables).jobs := by
  intro event member wanted about
  apply update_get_some
  cases log_fold_mem (fun old => updateEvents columns now old (set old)) _ _ event member with
  | inl old => exact store.eventJobs event old wanted about
  | inr new =>
      obtain ⟨row, rowMember, same⟩ := new
      have there := store.jobs.get_of_mem row (List.mem_filter.mp rowMember).1
      cases about
      rw [same, there]
      rfl

theorem update_tick_jobs :
    References PeriodicDefer.jobId
      (updateJobs columns now chosen set keeps store.toJobTables).periodicDefers.rows
      (updateJobs columns now chosen set keeps store.toJobTables).jobs := by
  intro tick member wanted linked
  exact update_get_some _ _ _ _ _ _ _ (store.tickJobs tick member wanted linked)

/-- An index that tells the new rows apart. -/
theorem update_indexed (index : Job → Option String)
    (apart : ∀ left ∈ store.jobs.rows, ∀ right ∈ store.jobs.rows, ∀ value,
      index (if chosen left then set left else left) = some value →
      index (if chosen right then set right else right) = some value → left.id = right.id) :
    Indexed index (updateJobs columns now chosen set keeps store.toJobTables).jobs.rows := by
  have image : ∀ job, (if chosen job then set job else job).id = job.id := by
    intro job
    split_ifs
    · exact keeps job
    · rfl
  refine (indexed_iff (updateJobs columns now chosen set keeps store.toJobTables).jobs index).mpr ?_
  intro left leftMember right rightMember value leftValue rightValue
  obtain ⟨oldLeft, oldLeftMember, leftMade⟩ := List.mem_map.mp leftMember
  obtain ⟨oldRight, oldRightMember, rightMade⟩ := List.mem_map.mp rightMember
  rw [← leftMade, image, ← rightMade, image]
  rw [← leftMade] at leftValue
  rw [← rightMade] at rightValue
  exact apart oldLeft oldLeftMember oldRight oldRightMember value leftValue rightValue

/-- A change that takes its rows out of an index. -/
theorem update_unindexed (index : Job → Option String) (held : Indexed index store.jobs.rows)
    (outside : ∀ job, index (set job) = none) :
    Indexed index (updateJobs columns now chosen set keeps store.toJobTables).jobs.rows := by
  apply update_indexed
  intro left leftMember right rightMember value leftValue rightValue
  split_ifs at leftValue with leftPicked
  · rw [outside] at leftValue
    cases leftValue
  · split_ifs at rightValue with rightPicked
    · rw [outside] at rightValue
      cases rightValue
    · exact (indexed_iff store.jobs index).mp held left leftMember right rightMember value leftValue
        rightValue

theorem update_admitted
    (checked : ∀ job ∈ store.jobs.rows, chosen job = true → NotTodoAbortRequested (set job))
    (queueingLocks : Indexed queueingLockIdx
      (updateJobs columns now chosen set keeps store.toJobTables).jobs.rows)
    (locks : Indexed lockIdx (updateJobs columns now chosen set keeps store.toJobTables).jobs.rows)
    (workers : ∀ job ∈ store.jobs.rows, chosen job = true → ∀ wanted ∈ (set job).workerId,
      (store.workers.get? wanted).isSome) :
    ∃ after, accept (updateJobs columns now chosen set keeps store.toJobTables) = .ok after := by
  have allChecked : ∀ job ∈ (updateJobs columns now chosen set keeps store.toJobTables).jobs.rows,
      NotTodoAbortRequested job := by
    intro job member
    obtain ⟨old, oldMember, made⟩ := List.mem_map.mp member
    rw [← made]
    split_ifs with picked
    · exact checked old oldMember picked
    · exact store.checked old oldMember
  have allWorkers : References Job.workerId
      (updateJobs columns now chosen set keeps store.toJobTables).jobs.rows
      (updateJobs columns now chosen set keeps store.toJobTables).workers := by
    intro job member wanted referred
    obtain ⟨old, oldMember, made⟩ := List.mem_map.mp member
    rw [← made] at referred
    split_ifs at referred with picked
    · exact workers old oldMember picked wanted referred
    · exact store.jobWorkers old oldMember wanted referred
  exact ⟨_, accept_ok _ allChecked queueingLocks locks store.ticks allWorkers
    (update_tick_jobs columns now chosen set keeps store)
    (update_event_jobs columns now chosen set keeps store)⟩

end Updates

/-! ## Fetching -/

section Fetching

variable (targetQueueNames : Option (List String)) (workerId : Option Nat) (now : Instant)
variable (store : JobStore) (candidate : Job)

/-- The row of a fetched job takes no place in the index on queueing locks,
and its lock was free. -/
theorem fetched_indexed
    (picked : lockCandidate store.jobs.rows [] targetQueueNames now store = some candidate) :
    Indexed queueingLockIdx (updateJobs ⟨true, false⟩ now (fun job => job.id = candidate.id)
        (startedBy workerId) (fun _ => rfl) store.toJobTables).jobs.rows ∧
      Indexed lockIdx (updateJobs ⟨true, false⟩ now (fun job => job.id = candidate.id)
        (startedBy workerId) (fun _ => rfl) store.toJobTables).jobs.rows := by
  obtain ⟨row, free, _, _⟩ := candidate_first _ _ _ _ picked
  have lockFree : ∀ other ∈ store.jobs.rows, ∀ lock, candidate.lock = some lock →
      lockIdx other = some lock → False := by
    intro other member lock locked held
    have runs : other.status = .doing ∧ other.lock = some lock := by
      unfold lockIdx at held
      split_ifs at held with runs
      exact ⟨runs, held⟩
    have blocks := (blocked_iff _ candidate).mpr
      ⟨lock, locked, other, member, runs.2, Or.inl runs.1⟩
    rw [free] at blocks
    cases blocks
  constructor
  · apply update_unindexed _ _ _ _ _ _ _ store.queueingLocks
    intro job
    simp [queueingLockIdx, startedBy]
  · apply update_indexed
    intro left leftMember right rightMember value leftValue rightValue
    simp only [decide_eq_true_eq] at leftValue rightValue
    have lockOf : ∀ job ∈ store.jobs.rows, job.id = candidate.id →
        lockIdx (startedBy workerId job) = some value → candidate.lock = some value := by
      intro job member same indexed
      rw [← store.jobs.eq_of_id job candidate member row same]
      simpa [lockIdx, startedBy] using indexed
    split_ifs at leftValue with leftPicked
    · split_ifs at rightValue with rightPicked
      · exact leftPicked.trans rightPicked.symm
      · have locked := lockOf left leftMember leftPicked leftValue
        exact (lockFree right rightMember value locked rightValue).elim
    · split_ifs at rightValue with rightPicked
      · have locked := lockOf right rightMember rightPicked rightValue
        exact (lockFree left leftMember value locked leftValue).elim
      · exact (indexed_iff store.jobs lockIdx).mp store.locks left leftMember right rightMember value
          leftValue rightValue

theorem fetch_admitted
    (picked : lockCandidate store.jobs.rows [] targetQueueNames now store = some candidate)
    (registered : ∀ wanted ∈ workerId, (store.workers.get? wanted).isSome) :
    ∃ after, fetchJobV2 targetQueueNames workerId now store =
      .ok (some (startedBy workerId candidate), after) := by
  obtain ⟨queueingLocks, locks⟩ := fetched_indexed targetQueueNames workerId now store candidate picked
  obtain ⟨after, admitted⟩ := update_admitted ⟨true, false⟩ now (fun job => job.id = candidate.id)
    (startedBy workerId) (fun _ => rfl) store (fun _ _ _ => by simp [NotTodoAbortRequested, startedBy])
    queueingLocks locks (fun _ _ _ => registered)
  have made : fetchJobV2 targetQueueNames workerId now store =
      .ok (after.jobs.get? candidate.id, after) := by
    have ran : (accept (updateJobs ⟨true, false⟩ now (fun job => job.id = candidate.id)
        (startedBy workerId) (fun _ => rfl) store.toJobTables) >>= fun fetched =>
          (pure (fetched.jobs.get? candidate.id, fetched) : Except SqlError (Option Job × JobStore))) =
        .ok (after.jobs.get? candidate.id, after) := by
      rw [admitted]
      rfl
    unfold fetchJobV2 fetchJobV2Among
    rw [picked]
    exact ran
  rcases fetch_job_spec _ _ _ _ _ _ _ _ made with ⟨none, _⟩ | ⟨other, otherPicked, found, _⟩
  · rw [picked] at none
    cases none
  · rw [picked] at otherPicked
    cases otherPicked
    exact ⟨after, by rw [made, found]⟩

/-- The guards of the query make the index on locks idle: what stops a fetch
that nothing overlaps is a worker that is gone. -/
theorem fetch_alone_raises (raised : SqlError)
    (stopped : fetchJobV2 targetQueueNames workerId now store = .error raised) :
    raised = .foreignKeyViolation "procrastinate_jobs_worker_id_fkey" ∧
      ∃ gone, workerId = some gone ∧ store.workers.get? gone = none := by
  cases picked : lockCandidate store.jobs.rows [] targetQueueNames now store with
  | none =>
      unfold fetchJobV2 fetchJobV2Among at stopped
      rw [picked] at stopped
      cases stopped
  | some candidate =>
      by_cases registered : ∀ wanted ∈ workerId, (store.workers.get? wanted).isSome
      · obtain ⟨after, made⟩ := fetch_admitted targetQueueNames workerId now store candidate picked
          registered
        rw [stopped] at made
        cases made
      · push Not at registered
        obtain ⟨gone, referred, absent⟩ := registered
        refine ⟨?_, gone, referred, by simpa using absent⟩
        obtain ⟨queueingLocks, locks⟩ :=
          fetched_indexed targetQueueNames workerId now store candidate picked
        obtain ⟨row, _⟩ := candidate_first _ _ _ _ picked
        let tables := updateJobs ⟨true, false⟩ now (fun job => job.id = candidate.id)
          (startedBy workerId) (fun _ => rfl) store.toJobTables
        have checked : ∀ job ∈ tables.jobs.rows, NotTodoAbortRequested job := by
          intro job member
          obtain ⟨old, oldMember, made⟩ := List.mem_map.mp member
          rw [← made]
          split_ifs
          · simp [NotTodoAbortRequested, startedBy]
          · exact store.checked old oldMember
        have dangling : ¬References Job.workerId tables.jobs.rows tables.workers := by
          intro references
          have there := references (startedBy workerId candidate)
            (List.mem_map.mpr ⟨candidate, row, by simp⟩) gone referred
          exact absent there
        have ticks : Indexed periodicDefersUnique tables.periodicDefers.rows := store.ticks
        have refused : accept tables =
            .error (.foreignKeyViolation "procrastinate_jobs_worker_id_fkey") := by
          unfold accept
          rw [dif_pos checked, dif_pos queueingLocks, dif_pos locks, dif_pos ticks,
            dif_neg dangling]
        have ran : (accept tables >>= fun fetched =>
            (pure (fetched.jobs.get? candidate.id, fetched) :
              Except SqlError (Option Job × JobStore))) =
            .error (.foreignKeyViolation "procrastinate_jobs_worker_id_fkey") := by
          rw [refused]
          rfl
        unfold fetchJobV2 fetchJobV2Among at stopped
        rw [picked] at stopped
        exact (Except.error.inj (ran.symm.trans stopped)).symm

theorem fetch_alone_raises_unregistered :
    ∃ store raised, runFrom step [.deferJobs [lockedJob 0] 0] .empty = some store ∧
      fetchJobV2 none (some 7) 1 store = .error raised ∧
      raised = .foreignKeyViolation "procrastinate_jobs_worker_id_fkey" ∧
      ∃ gone, some 7 = some gone ∧ store.workers.get? gone = none := by
  have reads : ((runFrom step [.deferJobs [lockedJob 0] 0] .empty).any fun store =>
      (fetchJobV2 none (some 7) 1 store).toOption.isNone) = true := by
    decide +kernel
  obtain ⟨present, raises⟩ := (Option.any_eq_true_iff_get _ _).mp reads
  have ran := (Option.some_get present).symm
  generalize Option.get _ present = store at raises ran
  cases stopped : fetchJobV2 none (some 7) 1 store with
  | error raised =>
      exact ⟨store, raised, ran, stopped, fetch_alone_raises none (some 7) 1 store raised stopped⟩
  | ok fetched =>
      rw [stopped] at raises
      cases raises

end Fetching

/-! ## Finishing -/

theorem delete_admitted (gone : Job → Bool) (store : JobStore) :
    ∃ after, accept (deleteJobs gone store.toJobTables) = .ok after := by
  let tables := deleteJobs gone store.toJobTables
  have rows : ∀ job ∈ tables.jobs.rows, job ∈ store.jobs.rows := fun _ => List.mem_of_mem_filter
  have stays : ∀ jobId, (store.jobs.get? jobId).isSome →
      jobId ∉ (store.jobs.rows.filter gone).map Job.id → (tables.jobs.get? jobId).isSome := by
    intro jobId there kept
    obtain ⟨job, found⟩ := Option.isSome_iff_exists.mp there
    obtain ⟨member, same⟩ := (store.jobs.get_eq_some_iff jobId job).mp found
    have remains : gone job = false := by
      cases picked : gone job with
      | false => rfl
      | true => exact absurd (List.mem_map.mpr ⟨job, List.mem_filter.mpr ⟨member, picked⟩, same⟩) kept
    change ((store.jobs.delete gone).get? jobId).isSome
    rw [SerialTable.delete_get, found, Option.filter_some_pos (by simpa using remains)]
    rfl
  have indexed : ∀ index : Job → Option String, Indexed index store.jobs.rows →
      Indexed index tables.jobs.rows := by
    intro index held
    exact held.sublist (List.filter_sublist.filterMap index)
  have ticks : Indexed periodicDefersUnique tables.periodicDefers.rows := by
    have same : tables.periodicDefers.rows.filterMap periodicDefersUnique =
        store.periodicDefers.rows.filterMap periodicDefersUnique := by
      change (store.periodicDefers.rows.map _).filterMap periodicDefersUnique = _
      rw [List.filterMap_map]
      apply List.filterMap_congr
      intro tick _
      simp only [Function.comp_apply]
      split_ifs <;> rfl
    unfold Indexed
    rw [same]
    exact store.ticks
  have tickJobs : References PeriodicDefer.jobId tables.periodicDefers.rows tables.jobs := by
    intro tick member wanted linked
    obtain ⟨old, oldMember, made⟩ := List.mem_map.mp member
    rw [← made] at linked
    split_ifs at linked with unlinked
    · cases linked
    · refine stays wanted (store.tickJobs old oldMember wanted linked) fun deleted => unlinked ?_
      have linkedTo : old.jobId = some wanted := linked
      simp only [linkedTo, Option.any_some]
      exact decide_eq_true deleted
  have eventJobs : References (fun event => some event.jobId) tables.events.rows tables.jobs := by
    intro event member wanted about
    obtain ⟨old, kept⟩ := List.mem_filter.mp member
    cases about
    exact stays event.jobId (store.eventJobs event old event.jobId rfl) (by simpa using kept)
  exact ⟨_, accept_ok tables (fun job member => store.checked job (rows job member))
    (indexed _ store.queueingLocks) (indexed _ store.locks) ticks
    (fun job member => store.jobWorkers job (rows job member)) tickJobs eventJobs⟩

/-- Nothing stops the end of a job that runs. -/
theorem finish_admitted (store : JobStore) (jobId : Nat) (job : Job)
    (found : store.jobs.get? jobId = some job) (runs : job.status = .doing) (endStatus : JobStatus)
    (ends : endStatus ∈ [JobStatus.succeeded, .failed, .aborted]) (deleteJob : Bool) (now : Instant) :
    ∃ after, finishJobV1 jobId endStatus deleteJob now store = .ok after := by
  have past : endStatus ≠ .todo ∧ endStatus ≠ .doing := by
    constructor <;> rintro rfl <;> simp at ends
  obtain ⟨updated, updatedOk⟩ := update_admitted ⟨true, true⟩ now (jobIn jobId [.todo, .doing])
    (finishedAs endStatus) (fun _ => rfl) store
    (fun _ _ _ => by simp [NotTodoAbortRequested, finishedAs])
    (update_unindexed _ _ _ _ _ _ _ store.queueingLocks fun _ => by
      simp [queueingLockIdx, finishedAs, past.1])
    (update_unindexed _ _ _ _ _ _ _ store.locks fun _ => by simp [lockIdx, finishedAs, past.2])
    (fun job member _ => store.jobWorkers job member)
  obtain ⟨deleted, deletedOk⟩ := delete_admitted (jobIn jobId [.todo, .doing]) store
  have known : returned (jobIn jobId [.todo, .doing]) store = some job.id := by
    rw [returned, find_job_in store jobId _ job found (by simp [runs]), Option.map_some]
  have admitted : ∃ after, accept (if deleteJob then
      deleteJobs (jobIn jobId [.todo, .doing]) store.toJobTables
      else updateJobs ⟨true, true⟩ now (jobIn jobId [.todo, .doing]) (finishedAs endStatus)
        (fun _ => rfl) store.toJobTables) = .ok after := by
    cases deleteJob with
    | true => exact ⟨deleted, deletedOk⟩
    | false => exact ⟨updated, updatedOk⟩
  obtain ⟨after, made⟩ := admitted
  have goesOn : ∀ rest : JobStore → Except SqlError JobStore, (accept (if deleteJob then
      deleteJobs (jobIn jobId [.todo, .doing]) store.toJobTables
      else updateJobs ⟨true, true⟩ now (jobIn jobId [.todo, .doing]) (finishedAs endStatus)
        (fun _ => rfl) store.toJobTables) >>= rest) = rest after := by
    intro rest
    rw [made]
    rfl
  refine ⟨after, ?_⟩
  unfold finishJobV1
  dsimp only
  rw [if_neg (not_not.mpr ends)]
  refine (goesOn _).trans ?_
  rw [known]
  rfl

/-! ## Deferring -/

theorem utf8_len_le (chars : List Char) : chars.length ≤ String.utf8Len chars := by
  induction chars with
  | nil => exact Nat.zero_le _
  | cons char rest ih =>
      have wide := Char.utf8Size_pos char
      rw [String.utf8Len_cons, List.length_cons]
      omega

/-- A channel's limit is in bytes and stricter than the column's. -/
theorem channel_fits_length (queueName : String) (fits : ChannelFits queueName) :
    queueName.length < 64 := by
  have bytes := utf8_len_le queueName.toList
  rw [← String.utf8ByteSize_ofList, String.ofList_toList, String.length_toList] at bytes
  unfold ChannelFits at fits
  rw [String.utf8ByteSize_append] at fits
  omega

theorem channel_fits_column (queueName : String) (fits : ChannelFits queueName) :
    varchar128 queueName = .ok queueName := by
  have short := channel_fits_length queueName fits
  exact if_pos (by omega)

/-- What the column cuts down is still too long for a channel. -/
theorem stored_as_given (queueName stored : String) (taken : varchar128 queueName = .ok stored)
    (fits : ChannelFits stored) : stored = queueName := by
  unfold varchar128 at taken
  split_ifs at taken with short spaces
  · exact (Except.ok.inj taken).symm
  · have long := channel_fits_length stored fits
    rw [← Except.ok.inj taken, String.length_ofList, List.length_take, String.length_toList] at long
    omega

theorem notify_queues_ok_iff (queueNames : List String) :
    notifyQueues queueNames = .ok () ↔ ∀ queueName ∈ queueNames, ChannelFits queueName := by
  unfold notifyQueues
  split_ifs with fit
  · exact ⟨fun _ => fit, fun _ => rfl⟩
  · exact ⟨nofun, fun all => absurd all fit⟩

/-- The names fit their columns. -/
def ColumnsFit (job : JobToDefer) : Prop :=
  (∃ queueName, varchar128 job.queueName = .ok queueName) ∧
    ∃ taskName, varchar128 job.taskName = .ok taskName

/-- The queue's name fits its channel, and so its column, and the task's name
fits its column. -/
def NamesFit (job : JobToDefer) : Prop :=
  ChannelFits job.queueName ∧ ∃ taskName, varchar128 job.taskName = .ok taskName

section Deferring

variable (job : JobToDefer) (now : Instant) (store : JobStore)

/-- A waiting job has the queueing lock. -/
def LockTaken : Prop :=
  ∃ lock, job.queueingLock = some lock ∧
    ∃ other ∈ store.jobs.rows, other.status = .todo ∧ other.queueingLock = some lock

theorem row_numbered (queueName taskName : String) (id : Nat) :
    (Job.mk id queueName taskName job.priority job.lock job.queueingLock job.args .todo
      job.scheduledAt 0 false none).id = id := rfl

/-- The tables with the job's row, its names as they are stored. -/
def withJob (queueName taskName : String) : JobTables :=
  { store.toJobTables with
    jobs := store.jobs.insert
      (fun id => Job.mk id queueName taskName job.priority job.lock job.queueingLock job.args .todo
        job.scheduledAt 0 false none) (row_numbered job queueName taskName) }

theorem with_job_get (queueName taskName : String) (jobId : Nat)
    (there : (store.jobs.get? jobId).isSome) :
    ((withJob job store queueName taskName).jobs.get? jobId).isSome := by
  simp only [withJob, SerialTable.insert_get]
  split_ifs
  · rfl
  · exact there

theorem with_job_rows (queueName taskName : String) (row : Job)
    (member : row ∈ (withJob job store queueName taskName).jobs.rows) :
    row ∈ store.jobs.rows ∨ row.queueingLock = job.queueingLock ∧ Fresh row := by
  simp only [withJob, SerialTable.insert_rows, List.mem_append, List.mem_singleton] at member
  cases member with
  | inl old => exact Or.inl old
  | inr new =>
      subst new
      exact Or.inr ⟨rfl, rfl, rfl, rfl, rfl⟩

/-- Only the index on queueing locks can stop an insert. -/
theorem with_job_admitted (queueName taskName : String) (free : ¬LockTaken job store) :
    ∃ inserted, accept (withJob job store queueName taskName) = .ok inserted := by
  have checked : ∀ row ∈ (withJob job store queueName taskName).jobs.rows,
      NotTodoAbortRequested row := by
    intro row member
    cases with_job_rows job store queueName taskName row member with
    | inl old => exact store.checked row old
    | inr new => simp [NotTodoAbortRequested, new.2.abortRequested]
  have queueingLocks : Indexed queueingLockIdx (withJob job store queueName taskName).jobs.rows := by
    refine (indexed_concat_iff queueingLockIdx _ _).mpr ⟨store.queueingLocks, ?_⟩
    intro lock wanted other member taken
    simp only [queueingLockIdx, if_true] at wanted
    unfold queueingLockIdx at taken
    split_ifs at taken with waits
    exact free ⟨lock, wanted, other, member, waits, taken⟩
  have locks : Indexed lockIdx (withJob job store queueName taskName).jobs.rows := by
    refine (indexed_concat_iff lockIdx _ _).mpr ⟨store.locks, ?_⟩
    intro lock wanted
    simp [lockIdx] at wanted
  have jobWorkers : References Job.workerId (withJob job store queueName taskName).jobs.rows
      store.workers := by
    intro row member wanted referred
    cases with_job_rows job store queueName taskName row member with
    | inl old => exact store.jobWorkers row old wanted referred
    | inr new =>
        rw [new.2.workerId] at referred
        cases referred
  exact ⟨_, accept_ok _ checked queueingLocks locks store.ticks jobWorkers
    (fun tick member wanted linked =>
      with_job_get job store queueName taskName wanted (store.tickJobs tick member wanted linked))
    (fun event member wanted about =>
      with_job_get job store queueName taskName wanted (store.eventJobs event member wanted about))⟩

theorem insert_job_eq (queueName taskName : String)
    (queueFits : varchar128 job.queueName = .ok queueName)
    (taskFits : varchar128 job.taskName = .ok taskName) :
    insertJob job store = (accept (withJob job store queueName taskName)).map fun inserted =>
      (Job.mk (store.jobs.lastValue + 1) queueName taskName job.priority job.lock job.queueingLock
        job.args .todo job.scheduledAt 0 false none, inserted) := by
  unfold insertJob withJob
  simp only [queueFits, taskFits, bind, Except.bind]
  split
  · rename_i raised refused
    rw [refused]
    rfl
  · rename_i inserted admitted
    rw [admitted]
    rfl

/-- The events of rows that are there can be written. -/
theorem log_admitted (rows : List Job) (there : ∀ row ∈ rows, row ∈ store.jobs.rows) :
    ∃ logged, accept
      { store.toJobTables with
        events := rows.foldl
          (fun events row => logEvents row.id (insertEvents now row) events) store.events } =
      .ok logged := by
  have eventJobs : References (fun event => some event.jobId)
      (rows.foldl (fun events row => logEvents row.id (insertEvents now row) events)
        store.events).rows store.jobs := by
    intro event member wanted about
    cases log_fold_mem (insertEvents now) rows store.events event member with
    | inl old => exact store.eventJobs event old wanted about
    | inr new =>
        obtain ⟨row, rowMember, same⟩ := new
        cases about
        rw [same, store.jobs.get_of_mem row (there row rowMember)]
        rfl
  let tables : JobTables :=
    { store.toJobTables with
      events := rows.foldl
        (fun events row => logEvents row.id (insertEvents now row) events) store.events }
  exact ⟨_, accept_ok tables store.checked store.queueingLocks store.locks store.ticks
    store.jobWorkers store.tickJobs eventJobs⟩

/-- A job whose names fit can be deferred where no waiting job has its
queueing lock. -/
theorem defer_admitted (taskName : String) (queueFits : ChannelFits job.queueName)
    (taskFits : varchar128 job.taskName = .ok taskName) (free : ¬LockTaken job store) :
    ∃ row after, deferJobsV1 [job] now store = .ok (some [row.id], after) ∧
      Defers [job] now store after [row] := by
  obtain ⟨inserted, insertedOk⟩ := with_job_admitted job store job.queueName taskName free
  have first := insert_job_eq job store job.queueName taskName
    (channel_fits_column job.queueName queueFits) taskFits
  rw [insertedOk] at first
  obtain ⟨_, _, added, _⟩ := insert_job_spec _ _ _ _ first
  obtain ⟨logged, loggedOk⟩ := log_admitted now inserted
    [Job.mk (store.jobs.lastValue + 1) job.queueName taskName job.priority job.lock job.queueingLock
      job.args .todo job.scheduledAt 0 false none] (by
        intro row member
        rw [added]
        exact List.mem_append_right _ member)
  have notified : notifyQueues [job.queueName] = .ok () :=
    (notify_queues_ok_iff _).mpr fun queueName member => by
      rw [List.mem_singleton.mp member]
      exact queueFits
  have deferred : deferJobsV1 [job] now store = .ok (some [store.jobs.lastValue + 1], logged) := by
    simp only [deferJobsV1, insertJobs, first, bind, Except.bind, Except.map, pure, Except.pure,
      List.map_cons, List.map_nil, notified]
    rw [loggedOk]
    rfl
  obtain ⟨rows, defers, ids⟩ := defer_jobs_spec _ _ _ _ _ deferred
  cases defers.shaped with
  | cons shape rest =>
      cases rest
      rw [if_neg (List.cons_ne_nil _ _)] at ids
      rw [ids] at deferred
      exact ⟨_, logged, deferred, defers⟩

/-- One that waits keeps out every other with its queueing lock. -/
theorem with_job_refused (queueName taskName : String) (taken : LockTaken job store) :
    accept (withJob job store queueName taskName) =
      .error (.uniqueViolation "procrastinate_jobs_queueing_lock_idx_v1") := by
  obtain ⟨lock, wanted, other, member, waits, held⟩ := taken
  have checked : ∀ row ∈ (withJob job store queueName taskName).jobs.rows,
      NotTodoAbortRequested row := by
    intro row rowMember
    cases with_job_rows job store queueName taskName row rowMember with
    | inl old => exact store.checked row old
    | inr new => simp [NotTodoAbortRequested, new.2.abortRequested]
  have double : ¬Indexed queueingLockIdx (withJob job store queueName taskName).jobs.rows := by
    intro indexed
    obtain ⟨_, apart⟩ := (indexed_concat_iff queueingLockIdx _ _).mp indexed
    exact apart lock (by simp [queueingLockIdx, wanted]) other member
      (by simp [queueingLockIdx, waits, held])
  unfold accept
  rw [dif_pos checked, dif_neg double]

theorem insert_job_ok_iff :
    (∃ inserted, insertJob job store = .ok inserted) ↔ ColumnsFit job ∧ ¬LockTaken job store := by
  constructor
  · rintro ⟨inserted, ran⟩
    obtain ⟨queueName, queueFits, rest⟩ := bind_ok _ _ _ ran
    obtain ⟨taskName, taskFits, _⟩ := bind_ok _ _ _ rest
    refine ⟨⟨⟨queueName, queueFits⟩, taskName, taskFits⟩, ?_⟩
    intro taken
    rw [insert_job_eq job store queueName taskName queueFits taskFits,
      with_job_refused job store queueName taskName taken] at ran
    cases ran
  · rintro ⟨⟨⟨queueName, queueFits⟩, taskName, taskFits⟩, free⟩
    obtain ⟨inserted, made⟩ := with_job_admitted job store queueName taskName free
    rw [insert_job_eq job store queueName taskName queueFits taskFits, made]
    exact ⟨_, rfl⟩

theorem lock_taken_after (inserted : Job × JobStore) (ran : insertJob job store = .ok inserted)
    (other : JobToDefer) :
    LockTaken other inserted.2 ↔
      LockTaken other store ∨
        ∃ lock, other.queueingLock = some lock ∧ job.queueingLock = some lock := by
  obtain ⟨shape, _, added, _⟩ := insert_job_spec job store inserted.2 inserted.1 ran
  constructor
  · rintro ⟨lock, wanted, row, member, waits, held⟩
    rw [added] at member
    cases List.mem_append.mp member with
    | inl old => exact Or.inl ⟨lock, wanted, row, old, waits, held⟩
    | inr new =>
        rw [List.mem_singleton.mp new, shape.queueingLock] at held
        exact Or.inr ⟨lock, wanted, held⟩
  · rintro (⟨lock, wanted, row, member, waits, held⟩ | ⟨lock, wanted, same⟩)
    · exact ⟨lock, wanted, row, added ▸ List.mem_append_left _ member, waits, held⟩
    · refine ⟨lock, wanted, inserted.1, added ▸ List.mem_append_right _ (by simp), shape.fresh.status,
        ?_⟩
      rw [shape.queueingLock, same]

end Deferring

theorem insert_jobs_ok_iff (jobs : List JobToDefer) (store : JobStore) :
    (∃ inserted, insertJobs jobs store = .ok inserted) ↔
      (∀ job ∈ jobs, ColumnsFit job ∧ ¬LockTaken job store) ∧
        (jobs.filterMap JobToDefer.queueingLock).Nodup := by
  induction jobs generalizing store with
  | nil => simp [insertJobs]
  | cons job rest ih =>
      constructor
      · rintro ⟨inserted, ran⟩
        obtain ⟨first, firstRan, ran⟩ := bind_ok _ _ _ ran
        obtain ⟨later, laterRan, _⟩ := bind_ok _ _ _ ran
        have fits := (insert_job_ok_iff job store).mp ⟨first, firstRan⟩
        obtain ⟨others, distinct⟩ := (ih first.2).mp ⟨later, laterRan⟩
        have apart : ∀ other ∈ rest, ¬LockTaken other store ∧
            ∀ lock, other.queueingLock = some lock → job.queueingLock ≠ some lock := by
          intro other member
          have free := (others other member).2
          rw [lock_taken_after job store first firstRan other, not_or] at free
          exact ⟨free.1, fun lock wanted same => free.2 ⟨lock, wanted, same⟩⟩
        constructor
        · intro other member
          cases List.mem_cons.mp member with
          | inl same => exact same ▸ fits
          | inr later => exact ⟨(others other later).1, (apart other later).1⟩
        · cases own : job.queueingLock with
          | none => rwa [List.filterMap_cons_none own]
          | some lock =>
              rw [List.filterMap_cons_some own, List.nodup_cons]
              refine ⟨?_, distinct⟩
              intro again
              obtain ⟨other, member, wanted⟩ := List.mem_filterMap.mp again
              exact (apart other member).2 lock wanted own
      · rintro ⟨fits, distinct⟩
        obtain ⟨first, firstRan⟩ := (insert_job_ok_iff job store).mpr (fits job (by simp))
        have free : ∀ other ∈ rest, ColumnsFit other ∧ ¬LockTaken other first.2 := by
          intro other member
          have before := fits other (List.mem_cons_of_mem _ member)
          refine ⟨before.1, ?_⟩
          rw [lock_taken_after job store first firstRan other]
          rintro (taken | ⟨lock, wanted, same⟩)
          · exact before.2 taken
          · rw [List.filterMap_cons_some same, List.nodup_cons] at distinct
            exact distinct.1 (List.mem_filterMap.mpr ⟨other, member, wanted⟩)
        have restDistinct : (rest.filterMap JobToDefer.queueingLock).Nodup := by
          cases own : job.queueingLock with
          | none => rwa [List.filterMap_cons_none own] at distinct
          | some lock =>
              rw [List.filterMap_cons_some own] at distinct
              exact (List.nodup_cons.mp distinct).2
        obtain ⟨later, laterRan⟩ := (ih first.2).mpr ⟨free, restDistinct⟩
        exact ⟨(first.1 :: later.1, later.2), by
          simp only [insertJobs, firstRan, laterRan, bind, Except.bind]; rfl⟩

/-- Rows can be notified where the names of their jobs fit a channel. -/
theorem stored_channels_fit_iff (jobs : List JobToDefer) (rows : List Job)
    (shaped : List.Forall₂ Deferred jobs rows) :
    (∀ queueName ∈ rows.map Job.queueName, ChannelFits queueName) ↔
      ∀ job ∈ jobs, ChannelFits job.queueName := by
  induction shaped with
  | nil => simp
  | @cons job row jobs rows shape _ ih =>
      rw [List.map_cons, List.forall_mem_cons, List.forall_mem_cons, ih]
      refine and_congr_left fun _ => ?_
      constructor
      · intro fits
        rw [stored_as_given job.queueName row.queueName shape.queueName fits] at fits
        exact fits
      · intro fits
        have same := shape.queueName
        rw [channel_fits_column job.queueName fits] at same
        rw [← Except.ok.inj same]
        exact fits

theorem names_fit_iff (job : JobToDefer) :
    NamesFit job ↔ ColumnsFit job ∧ ChannelFits job.queueName := by
  constructor
  · rintro ⟨queueFits, taskFits⟩
    exact ⟨⟨⟨job.queueName, channel_fits_column job.queueName queueFits⟩, taskFits⟩, queueFits⟩
  · rintro ⟨⟨_, taskFits⟩, queueFits⟩
    exact ⟨queueFits, taskFits⟩

/-- A batch is deferred whole or not at all: it is refused only for a name that
does not fit, for a queueing lock that a waiting job has, or for two of its own
jobs with one queueing lock. -/
theorem batch_deferred_iff (jobs : List JobToDefer) (now : Instant) (store : JobStore) :
    (∃ deferred, deferJobsV1 jobs now store = .ok deferred) ↔
      (∀ job ∈ jobs, NamesFit job ∧ ¬LockTaken job store) ∧
        (jobs.filterMap JobToDefer.queueingLock).Nodup := by
  constructor
  · rintro ⟨deferred, ran⟩
    obtain ⟨inserted, insertedRan, ran⟩ := bind_ok _ _ _ ran
    obtain ⟨_, notified, _⟩ := bind_ok _ _ _ ran
    obtain ⟨_, shaped, _⟩ := insert_jobs_spec jobs store inserted.2 inserted.1 insertedRan
    obtain ⟨accepted, distinct⟩ := (insert_jobs_ok_iff jobs store).mp ⟨inserted, insertedRan⟩
    have channels := (stored_channels_fit_iff jobs inserted.1 shaped).mp
      ((notify_queues_ok_iff _).mp notified)
    refine ⟨fun job member => ⟨?_, (accepted job member).2⟩, distinct⟩
    exact (names_fit_iff job).mpr ⟨(accepted job member).1, channels job member⟩
  · rintro ⟨accepted, distinct⟩
    obtain ⟨inserted, ran⟩ := (insert_jobs_ok_iff jobs store).mpr
      ⟨fun job member => ⟨((names_fit_iff job).mp (accepted job member).1).1,
        (accepted job member).2⟩, distinct⟩
    obtain ⟨added, shaped, _⟩ := insert_jobs_spec jobs store inserted.2 inserted.1 ran
    have notified := (notify_queues_ok_iff _).mpr
      ((stored_channels_fit_iff jobs inserted.1 shaped).mpr fun job member =>
        (accepted job member).1.1)
    obtain ⟨logged, loggedOk⟩ := log_admitted now inserted.2 inserted.1 (by
      intro row member
      rw [added]
      exact List.mem_append_right _ member)
    exact ⟨_, by simp only [deferJobsV1, ran, notified, loggedOk, bind, Except.bind]; rfl⟩

end Morai.Procrastinate.Admitted
