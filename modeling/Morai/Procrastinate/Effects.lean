import Morai.Db.Models
import Morai.Procrastinate.Steps

/-!
# What each function of the queue does

One lemma for each function, for the calls that do not raise, and from them
the kinds of change a step makes and what it does to a job.
-/

namespace Morai.Procrastinate.Effects

open Morai.Db Morai.Foundation.Runs Morai.Foundation.Serial Morai.Procrastinate.Schema
open Morai.Procrastinate.Functions Morai.Procrastinate.JobViews Morai.Procrastinate.Steps
open Morai.Python

set_option autoImplicit false

/-! ## Deferring -/

/-- A row as it was asked for. -/
structure Deferred (job : JobToDefer) (row : Job) : Prop where
  queueName : varchar128 job.queueName = .ok row.queueName
  taskName : varchar128 job.taskName = .ok row.taskName
  priority : row.priority = job.priority
  lock : row.lock = job.lock
  queueingLock : row.queueingLock = job.queueingLock
  args : row.args = job.args
  scheduledAt : row.scheduledAt = job.scheduledAt
  fresh : Fresh row

/-- Rows added to the jobs, with their events; all else is as it was. -/
structure Defers (jobs : List JobToDefer) (now : Instant) (store after : JobStore)
    (rows : List Job) : Prop where
  added : after.jobs.rows = store.jobs.rows ++ rows
  shaped : List.Forall₂ Deferred jobs rows
  drawn : after.jobs.lastValue = store.jobs.lastValue + rows.length
  numbered : ∀ row ∈ rows, store.jobs.lastValue < row.id
  workers : after.workers = store.workers
  periodicDefers : after.periodicDefers = store.periodicDefers
  events : after.events = rows.foldl
    (fun events row => logEvents row.id (insertEvents now row) events) store.events

theorem insert_job_spec (job : JobToDefer) (store after : JobStore) (row : Job)
    (inserted : insertJob job store = .ok (row, after)) :
    Deferred job row ∧ row.id = store.jobs.lastValue + 1 ∧
      after.jobs.rows = store.jobs.rows ++ [row] ∧
      after.jobs.lastValue = store.jobs.lastValue + 1 ∧ after.workers = store.workers ∧
      after.periodicDefers = store.periodicDefers ∧ after.events = store.events := by
  obtain ⟨queueName, queueFits, inserted⟩ := bind_ok _ _ _ inserted
  obtain ⟨taskName, taskFits, inserted⟩ := bind_ok _ _ _ inserted
  obtain ⟨made, admitted, inserted⟩ := bind_ok _ _ _ inserted
  cases inserted
  have tables := accept_tables _ _ admitted
  refine ⟨⟨queueFits, taskFits, rfl, rfl, rfl, rfl, rfl, rfl, rfl, rfl, rfl⟩, rfl, ?_⟩
  rw [tables]
  exact ⟨rfl, rfl, rfl, rfl, rfl⟩

theorem insert_jobs_spec (jobs : List JobToDefer) (store after : JobStore) (rows : List Job)
    (inserted : insertJobs jobs store = .ok (rows, after)) :
    after.jobs.rows = store.jobs.rows ++ rows ∧ List.Forall₂ Deferred jobs rows ∧
      after.jobs.lastValue = store.jobs.lastValue + rows.length ∧
      (∀ row ∈ rows, store.jobs.lastValue < row.id) ∧ after.workers = store.workers ∧
      after.periodicDefers = store.periodicDefers ∧ after.events = store.events := by
  induction jobs generalizing store rows with
  | nil =>
      cases inserted
      exact ⟨(List.append_nil _).symm, List.Forall₂.nil, rfl, by simp, rfl, rfl, rfl⟩
  | cons job rest ih =>
      obtain ⟨⟨row, middle⟩, first, inserted⟩ := bind_ok _ _ _ inserted
      obtain ⟨⟨later, last⟩, restInserted, inserted⟩ := bind_ok _ _ _ inserted
      cases inserted
      obtain ⟨shape, number, added, drawn, workers, periodicDefers, events⟩ :=
        insert_job_spec job store middle row first
      obtain ⟨laterAdded, laterShaped, laterDrawn, laterNumbered, laterWorkers, laterPeriodic,
        laterEvents⟩ := ih middle later restInserted
      refine ⟨?_, List.Forall₂.cons shape laterShaped, ?_, ?_, laterWorkers.trans workers,
        laterPeriodic.trans periodicDefers, laterEvents.trans events⟩
      · rw [laterAdded, added, List.append_assoc, List.singleton_append]
      · have total : last.jobs.lastValue = middle.jobs.lastValue + later.length := laterDrawn
        change last.jobs.lastValue = store.jobs.lastValue + (later.length + 1)
        omega
      · intro other member
        cases List.mem_cons.mp member with
        | inl here =>
            rw [here, number]
            omega
        | inr there =>
            have beyond := laterNumbered other there
            omega

theorem defer_jobs_spec (jobs : List JobToDefer) (now : Instant) (store after : JobStore)
    (ids : Option (List Nat)) (deferred : deferJobsV1 jobs now store = .ok (ids, after)) :
    ∃ rows, Defers jobs now store after rows ∧
      ids = if rows = [] then none else some (rows.map Job.id) := by
  obtain ⟨⟨rows, inserted⟩, insertedOk, deferred⟩ := bind_ok _ _ _ deferred
  obtain ⟨_, _, deferred⟩ := bind_ok _ _ _ deferred
  obtain ⟨logged, admitted, deferred⟩ := bind_ok _ _ _ deferred
  cases deferred
  have tables := accept_tables _ _ admitted
  obtain ⟨added, shaped, drawn, numbered, workers, periodicDefers, events⟩ :=
    insert_jobs_spec jobs store inserted rows insertedOk
  refine ⟨rows, ?_, rfl⟩
  constructor
  · rw [tables]
    exact added
  · exact shaped
  · rw [tables]
    exact drawn
  · exact numbered
  · rw [tables]
    exact workers
  · rw [tables]
    exact periodicDefers
  · rw [tables, ← events]

section Deferring

variable {jobs : List JobToDefer} {now : Instant} {store after : JobStore} {rows : List Job}

theorem Defers.get_old (defers : Defers jobs now store after rows) (jobId : Nat) (job : Job)
    (found : store.jobs.get? jobId = some job) : after.jobs.get? jobId = some job := by
  obtain ⟨member, same⟩ := (store.jobs.get_eq_some_iff jobId job).mp found
  refine (after.jobs.get_eq_some_iff jobId job).mpr ⟨?_, same⟩
  rw [defers.added]
  exact List.mem_append_left _ member

theorem Defers.get_new (defers : Defers jobs now store after rows) (row : Job) (new : row ∈ rows) :
    after.jobs.get? row.id = some row := by
  apply after.jobs.get_of_mem
  rw [defers.added]
  exact List.mem_append_right _ new

theorem Defers.get_cases (defers : Defers jobs now store after rows) (jobId : Nat) (job : Job)
    (found : after.jobs.get? jobId = some job) :
    store.jobs.get? jobId = some job ∨ (job ∈ rows ∧ store.jobs.lastValue < jobId) := by
  obtain ⟨member, same⟩ := (after.jobs.get_eq_some_iff jobId job).mp found
  rw [defers.added] at member
  cases List.mem_append.mp member with
  | inl old => exact Or.inl ((store.jobs.get_eq_some_iff jobId job).mpr ⟨old, same⟩)
  | inr new => exact Or.inr ⟨new, same ▸ defers.numbered job new⟩

theorem Defers.log_old (defers : Defers jobs now store after rows) (jobId : Nat)
    (old : jobId ≤ store.jobs.lastValue) :
    logOf after.events.rows jobId = logOf store.events.rows jobId := by
  have none : (rows.filter fun row => row.id = jobId) = [] := by
    rw [List.filter_eq_nil_iff]
    intro row member
    have beyond := defers.numbered row member
    simp only [decide_eq_true_eq]
    omega
  rw [defers.events, log_fold, none, List.flatMap_nil, List.append_nil]

/-- No event is there for a job that was not. -/
theorem log_undrawn (store : JobStore) (jobId : Nat) (undrawn : store.jobs.lastValue < jobId) :
    logOf store.events.rows jobId = [] := by
  rw [logOf, List.map_eq_nil_iff, List.filter_eq_nil_iff]
  intro event member about
  have there := store.eventJobs event member event.jobId rfl
  rw [of_decide_eq_true about, store.jobs.get_undrawn jobId undrawn] at there
  cases there

theorem Defers.log_new (defers : Defers jobs now store after rows) (row : Job) (new : row ∈ rows) :
    logOf after.events.rows row.id = (insertEvents now row).map Prod.fst := by
  have one := after.jobs.filter_eq_get row.id
  rw [defers.get_new row new, defers.added, List.filter_append] at one
  have none : (store.jobs.rows.filter fun old => old.id = row.id) = [] := by
    rw [List.filter_eq_nil_iff]
    intro old member
    have bound := store.jobs.drawn old member
    have beyond := defers.numbered row new
    simp only [decide_eq_true_eq]
    omega
  rw [none, List.nil_append, Option.toList_some] at one
  rw [defers.events, log_fold, log_undrawn store row.id (defers.numbered row new), one]
  simp

theorem Defers.view_old (defers : Defers jobs now store after rows) (jobId : Nat) (seen : View)
    (before : view store.toJobTables jobId = some seen) :
    view after.toJobTables jobId = some seen := by
  obtain ⟨found, logged⟩ := (view_eq_some_iff _ _ _).mp before
  refine (view_eq_some_iff _ _ _).mpr ⟨defers.get_old jobId seen.job found, ?_⟩
  obtain ⟨member, same⟩ := (store.jobs.get_eq_some_iff _ _).mp found
  rw [logged, defers.log_old jobId (same ▸ store.jobs.drawn seen.job member)]

theorem Defers.view_new (defers : Defers jobs now store after rows) (row : Job) (new : row ∈ rows) :
    view store.toJobTables row.id = none ∧
      view after.toJobTables row.id = some ⟨row, (insertEvents now row).map Prod.fst⟩ := by
  constructor
  · rw [view_eq_none_iff]
    exact store.jobs.get_undrawn row.id (defers.numbered row new)
  · refine (view_eq_some_iff _ _ _).mpr ⟨defers.get_new row new, ?_⟩
    exact (defers.log_new row new).symm

theorem fresh_of_shaped (jobs : List JobToDefer) (rows : List Job)
    (shaped : List.Forall₂ Deferred jobs rows) (row : Job) (member : row ∈ rows) : Fresh row := by
  induction shaped with
  | nil => cases member
  | cons first _ ih =>
      cases List.mem_cons.mp member with
      | inl here => exact here ▸ first.fresh
      | inr there => exact ih there

theorem Defers.outcome (allowed : MoveKind → Prop) (defers : Defers jobs now store after rows)
    (jobId : Nat) :
    Outcome allowed (store.jobs.lastValue < jobId) (view store.toJobTables jobId)
      (view after.toJobTables jobId) := by
  cases before : view store.toJobTables jobId with
  | some seen =>
      rw [defers.view_old jobId seen before]
      exact outcome_same allowed _ _
  | none =>
      cases later : view after.toJobTables jobId with
      | none => exact Outcome.absent
      | some seen =>
          obtain ⟨found, _⟩ := (view_eq_some_iff _ _ _).mp later
          have absent := (view_eq_none_iff _ _).mp before
          cases defers.get_cases jobId seen.job found with
          | inl old =>
              rw [absent] at old
              cases old
          | inr new =>
              have sameId := ((after.jobs.get_eq_some_iff _ _).mp found).2
              have now' := (defers.view_new seen.job new.1).2
              rw [sameId, later] at now'
              rw [now']
              exact Outcome.deferred seen.job now (fresh_of_shaped jobs rows defers.shaped _ new.1) new.2

end Deferring

/-- A tick that is known changes nothing. -/
structure KnownTick (job : PeriodicJob) (taskName periodicId : String) (store after : JobStore) :
    Prop where
  known : ∃ tick ∈ store.periodicDefers.rows,
    periodicDefersUnique tick = some (taskName, periodicId, job.deferTimestamp)
  jobs : after.jobs = store.jobs
  events : after.events = store.events
  workers : after.workers = store.workers
  ticks : after.periodicDefers.rows = store.periodicDefers.rows

/-- A new tick is deferred, linked to its job, and takes the place of the older
ones. `made` is the store once the job is deferred. -/
structure NewTick (job : PeriodicJob) (taskName periodicId : String) (now : Instant)
    (store inserted made after : JobStore) (row : Job) : Prop where
  unknown : ∀ tick ∈ store.periodicDefers.rows,
    periodicDefersUnique tick ≠ some (taskName, periodicId, job.deferTimestamp)
  insertedJobs : inserted.jobs = store.jobs
  insertedEvents : inserted.events = store.events
  insertedWorkers : inserted.workers = store.workers
  defers : Defers [⟨job.queueName, job.taskName, job.priority, job.lock, job.queueingLock, job.args,
    none⟩] now inserted made [row]
  jobs : after.jobs = made.jobs
  events : after.events = made.events
  workers : after.workers = made.workers
  ticks : after.periodicDefers.rows = (store.periodicDefers.rows ++
    [PeriodicDefer.mk (store.periodicDefers.lastValue + 1) taskName job.deferTimestamp
      (some row.id) periodicId]).filter fun tick => !job.outdates tick

theorem defer_periodic_spec (job : PeriodicJob) (now : Instant) (store after : JobStore)
    (jobId : Option Nat) (deferred : deferPeriodicJobV2 job now store = .ok (jobId, after)) :
    ∃ taskName periodicId, varchar128 job.taskName = .ok taskName ∧
      varchar128 job.periodicId = .ok periodicId ∧
      (jobId = none ∧ KnownTick job taskName periodicId store after ∨
        ∃ inserted made row, jobId = some row.id ∧
          NewTick job taskName periodicId now store inserted made after row) := by
  obtain ⟨taskName, taskFits, deferred⟩ := bind_ok _ _ _ deferred
  obtain ⟨periodicId, periodicFits, deferred⟩ := bind_ok _ _ _ deferred
  refine ⟨taskName, periodicId, taskFits, periodicFits, ?_⟩
  dsimp only at deferred
  split at deferred
  · rename_i known
    obtain ⟨drawn, admitted, deferred⟩ := bind_ok _ _ _ deferred
    cases deferred
    have tables := accept_tables _ _ admitted
    obtain ⟨tick, member, same⟩ := List.any_eq_true.mp known
    refine Or.inl ⟨rfl, ⟨tick, member, of_decide_eq_true same⟩, ?_, ?_, ?_, ?_⟩
    all_goals rw [tables]
    rfl
  · rename_i unknown
    obtain ⟨inserted, insertedOk, deferred⟩ := bind_ok _ _ _ deferred
    obtain ⟨⟨ids, made⟩, madeOk, deferred⟩ := bind_ok _ _ _ deferred
    obtain ⟨linked, linkedOk, deferred⟩ := bind_ok _ _ _ deferred
    obtain ⟨pruned, prunedOk, deferred⟩ := bind_ok _ _ _ deferred
    cases deferred
    have insertedTables := accept_tables _ _ insertedOk
    have linkedTables := accept_tables _ _ linkedOk
    have prunedTables := accept_tables _ _ prunedOk
    obtain ⟨rows, defers, idsAre⟩ := defer_jobs_spec _ _ _ _ _ madeOk
    obtain ⟨row, rest, shape, restShaped, rowsAre⟩ := List.forall₂_cons_left_iff.mp defers.shaped
    rw [List.forall₂_nil_left_iff] at restShaped
    subst restShaped
    subst rowsAre
    have firstId : ids.bind List.head? = some row.id := by
      rw [idsAre, if_neg (List.cons_ne_nil _ _)]
      rfl
    have kept : ∀ tick ∈ store.periodicDefers.rows,
        (if decide (tick.id = store.periodicDefers.lastValue + 1) = true then
          { tick with jobId := some row.id } else tick) = tick := by
      intro tick member
      have bound := store.periodicDefers.drawn tick member
      rw [if_neg]
      simp only [decide_eq_true_eq]
      omega
    have insertedTicks : made.periodicDefers.rows = store.periodicDefers.rows ++
        [PeriodicDefer.mk (store.periodicDefers.lastValue + 1) taskName job.deferTimestamp none
          periodicId] := by
      rw [defers.periodicDefers, insertedTables]
      rfl
    have linkedTicks : linked.periodicDefers.rows = store.periodicDefers.rows ++
        [PeriodicDefer.mk (store.periodicDefers.lastValue + 1) taskName job.deferTimestamp
          (some row.id) periodicId] := by
      rw [linkedTables]
      simp only [SerialTable.update_rows, insertedTicks, firstId, List.map_append, List.map_cons,
        List.map_nil, decide_true, if_true]
      rw [List.map_congr_left kept, List.map_id']
    refine Or.inr ⟨inserted, made, row, firstId, ?_, ?_, ?_, ?_, defers, ?_, ?_, ?_, ?_⟩
    · intro tick member same
      exact unknown (List.any_eq_true.mpr ⟨tick, member, decide_eq_true same⟩)
    · rw [insertedTables]
    · rw [insertedTables]
    · rw [insertedTables]
    · rw [prunedTables, linkedTables]
    · rw [prunedTables, linkedTables]
    · rw [prunedTables, linkedTables]
    · rw [prunedTables, SerialTable.delete_rows, linkedTicks]

/-! ## Fetching -/

/-- The row a fetch locks is still due and was a candidate of its snapshot. -/
theorem lock_candidate_spec (snapshot : List Job) (locked : List Nat)
    (targetQueueNames : Option (List String)) (now : Instant) (store : JobStore) (candidate : Job)
    (picked : lockCandidate snapshot locked targetQueueNames now store = some candidate) :
    store.jobs.get? candidate.id = some candidate ∧ due targetQueueNames now candidate = true ∧
      candidate.id ∉ locked ∧
      ∃ seen ∈ candidates snapshot targetQueueNames now, seen.id = candidate.id := by
  obtain ⟨seen, member, chosen⟩ := List.exists_of_findSome?_eq_some picked
  split_ifs at chosen with skipped
  obtain ⟨found, qualifies⟩ := Option.filter_eq_some_iff.mp chosen
  have sameId := ((store.jobs.get_eq_some_iff seen.id candidate).mp found).2
  refine ⟨sameId ▸ found, qualifies, ?_, seen, member, sameId.symm⟩
  rwa [sameId]

/-- The fetched row, as it is afterwards. -/
def startedBy (workerId : Option Nat) (job : Job) : Job :=
  { job with status := .doing, workerId := workerId }

theorem fetch_job_spec (snapshot : List Job) (locked : List Nat)
    (targetQueueNames : Option (List String)) (workerId : Option Nat) (now : Instant)
    (store after : JobStore) (found : Option Job)
    (fetched : fetchJobV2Among snapshot locked targetQueueNames workerId now store =
      .ok (found, after)) :
    (lockCandidate snapshot locked targetQueueNames now store = none ∧ found = none ∧
        after = store) ∨
      ∃ candidate, lockCandidate snapshot locked targetQueueNames now store = some candidate ∧
        found = some (startedBy workerId candidate) ∧
        after.toJobTables = updateJobs ⟨true, false⟩ now (fun job => job.id = candidate.id)
          (startedBy workerId) (fun _ => rfl) store.toJobTables := by
  unfold fetchJobV2Among at fetched
  cases picked : lockCandidate snapshot locked targetQueueNames now store with
  | none =>
      rw [picked] at fetched
      cases fetched
      exact Or.inl ⟨rfl, rfl, rfl⟩
  | some candidate =>
      rw [picked] at fetched
      obtain ⟨made, admitted, fetched⟩ := bind_ok _ _ _ fetched
      cases fetched
      have tables := accept_tables _ _ admitted
      obtain ⟨live, _⟩ := lock_candidate_spec _ _ _ _ _ _ picked
      refine Or.inr ⟨candidate, rfl, ?_, tables⟩
      rw [tables]
      simp only [updateJobs, SerialTable.update_get, live, Option.map_some, decide_true, if_true]
      rfl

/-! ## Ending, cancelling and retrying -/

/-- `UPDATE` of `procrastinate_finish_job_v1`. -/
def finishedAs (endStatus : JobStatus) (job : Job) : Job :=
  { job with
    status := endStatus
    abortRequested := false
    attempts := if job.status = .doing then job.attempts + 1 else job.attempts }

theorem finish_job_spec (jobId : Nat) (endStatus : JobStatus) (deleteJob : Bool) (now : Instant)
    (store after : JobStore)
    (finished : finishJobV1 jobId endStatus deleteJob now store = .ok after) :
    endStatus ∈ [JobStatus.succeeded, .failed, .aborted] ∧
      (returned (jobIn jobId [.todo, .doing]) store).isSome ∧
      after.toJobTables = if deleteJob then deleteJobs (jobIn jobId [.todo, .doing]) store.toJobTables
        else updateJobs ⟨true, true⟩ now (jobIn jobId [.todo, .doing]) (finishedAs endStatus)
          (fun _ => rfl) store.toJobTables := by
  unfold finishJobV1 at finished
  dsimp only at finished
  by_cases ends : endStatus ∈ [JobStatus.succeeded, .failed, .aborted]
  · rw [if_neg (not_not.mpr ends)] at finished
    obtain ⟨made, admitted, finished⟩ := bind_ok _ _ _ finished
    have tables := accept_tables _ _ admitted
    cases known : returned (jobIn jobId [.todo, .doing]) store with
    | none =>
        rw [known] at finished
        cases finished
    | some value =>
        rw [known] at finished
        cases finished
        exact ⟨ends, rfl, tables⟩
  · rw [if_pos ends] at finished
    cases finished

/-- `UPDATE`s of `procrastinate_cancel_job_v1`. -/
def cancelledAs (abort : Bool) (job : Job) : Job :=
  if abort then
    { job with
      abortRequested := true
      status := if job.status = .todo then .cancelled else job.status }
  else { job with status := .cancelled }

theorem cancel_job_spec (jobId : Nat) (abort deleteJob : Bool) (now : Instant)
    (store after : JobStore) (cancelled : Option Nat)
    (ended : cancelJobV1 jobId abort deleteJob now store = .ok (cancelled, after)) :
    after.toJobTables = deleteJobs (jobIn jobId [.todo]) store.toJobTables ∨
      ∃ keeps, after.toJobTables = updateJobs ⟨true, abort⟩ now
        (jobIn jobId (if abort then [.todo, .doing] else [.todo])) (cancelledAs abort) keeps
        store.toJobTables := by
  obtain ⟨made, admitted, shape⟩ : ∃ made, accept made = .ok after ∧
      (made = deleteJobs (jobIn jobId [.todo]) store.toJobTables ∨
        ∃ keeps, made = updateJobs ⟨true, abort⟩ now
          (jobIn jobId (if abort then [.todo, .doing] else [.todo])) (cancelledAs abort) keeps
          store.toJobTables) := by
    unfold cancelJobV1 at ended
    dsimp only at ended
    cases taken : if deleteJob then returned (jobIn jobId [.todo]) store else none with
    | some deleted =>
        rw [taken] at ended
        obtain ⟨made, admitted, ended⟩ := bind_ok _ _ _ ended
        cases ended
        exact ⟨_, admitted, Or.inl rfl⟩
    | none =>
        rw [taken] at ended
        cases abort with
        | true =>
            obtain ⟨made, admitted, ended⟩ := bind_ok _ _ _ ended
            obtain ⟨_, _, ended⟩ := bind_ok _ _ _ ended
            cases ended
            exact ⟨_, admitted, Or.inr ⟨fun _ => rfl, rfl⟩⟩
        | false =>
            obtain ⟨made, admitted, ended⟩ := bind_ok _ _ _ ended
            cases ended
            exact ⟨_, admitted, Or.inr ⟨fun _ => rfl, rfl⟩⟩
  rw [accept_tables _ _ admitted]
  exact shape

theorem retry_job_spec (jobId : Nat) (change : RetryChange) (aborting : Bool)
    (from_ : List JobStatus) (complaint : String) (now : Instant) (store after : JobStore)
    (retried : retryJob jobId change aborting from_ complaint now store = .ok after) :
    (aborting = true ∧ after.toJobTables = updateJobs ⟨true, false⟩ now (jobIn jobId [.doing])
        (fun job => { job with status := .failed }) (fun _ => rfl) store.toJobTables) ∨
      (aborting = false ∧ ∃ queueName,
        after.toJobTables = updateJobs ⟨true, false⟩ now (jobIn jobId from_)
          (change.apply queueName) (fun _ => rfl) store.toJobTables) := by
  unfold retryJob at retried
  dsimp only at retried
  cases known : returned (jobIn jobId (if aborting then [.doing] else from_)) store with
  | none =>
      rw [known] at retried
      cases retried
  | some value =>
      rw [known] at retried
      cases aborting with
      | true => exact Or.inl ⟨rfl, accept_tables _ _ retried⟩
      | false =>
          obtain ⟨queueName, _, retried⟩ := bind_ok _ _ _ retried
          exact Or.inr ⟨rfl, queueName, accept_tables _ _ retried⟩

/-! ## What a step does -/

theorem job_in_iff (jobId : Nat) (statuses : List JobStatus) (job : Job) :
    jobIn jobId statuses job = true ↔ job.id = jobId ∧ job.status ∈ statuses := by
  simp [jobIn]

theorem find_job_in (store : JobStore) (jobId : Nat) (statuses : List JobStatus) (job : Job)
    (found : store.jobs.get? jobId = some job) (status : job.status ∈ statuses) :
    store.jobs.rows.find? (jobIn jobId statuses) = some job := by
  obtain ⟨member, same⟩ := (store.jobs.get_eq_some_iff jobId job).mp found
  cases picked : store.jobs.rows.find? (jobIn jobId statuses) with
  | none =>
      have absent := List.find?_eq_none.mp picked job member
      exact absurd ((job_in_iff _ _ _).mpr ⟨same, status⟩) absent
  | some other =>
      have otherId := ((job_in_iff _ _ _).mp (List.find?_some picked)).1
      rw [store.jobs.eq_of_id other job (List.mem_of_find?_eq_some picked) member
        (otherId.trans same.symm)]

/-- The one change that a call commits, unless it defers a periodic job. -/
inductive Changed (allowed : Nat → MoveKind → Prop) (store next : JobStore) : Prop where
  | deferred (jobs : List JobToDefer) (now : Instant) (rows : List Job)
      (defers : Defers jobs now store next rows)
  | updated (columns : SetColumns) (now : Instant) (chosen : Job → Bool) (set : Job → Job)
      (keeps : ∀ job, (set job).id = job.id)
      (tables : next.toJobTables = updateJobs columns now chosen set keeps store.toJobTables)
      (moves : ∀ job ∈ store.jobs.rows, chosen job = true → ∃ kind, allowed job.id kind ∧
        Move kind job (set job) ((updateEvents columns now job (set job)).map Prod.fst))
  | deleted (gone : Job → Bool) (tables : next.toJobTables = deleteJobs gone store.toJobTables)
      (unfinished : ∀ job, gone job = true →
        (job.status = .todo ∨ job.status = .doing) ∧ allowed job.id (.delete job.status))
  | unlinked (now : Instant) (gone : Worker → Bool)
      (tables : next.toJobTables = deleteWorkers now gone store.toJobTables)
      (may : ∀ jobId, allowed jobId .unlink)
  | aside (jobs : next.jobs.rows = store.jobs.rows) (events : next.events.rows = store.events.rows)
      (ticks : next.periodicDefers.rows = store.periodicDefers.rows)
      (drawn : store.jobs.lastValue ≤ next.jobs.lastValue)

section Changes

variable (allowed : Nat → MoveKind → Prop) (now : Instant) (store after : JobStore)

theorem fetch_changed (may : ∀ jobId, allowed jobId .start) (snapshot : List Job)
    (locked : List Nat) (targetQueueNames : Option (List String)) (workerId : Option Nat)
    (found : Option Job)
    (fetched : fetchJobV2Among snapshot locked targetQueueNames workerId now store =
      .ok (found, after)) : Changed allowed store after := by
  rcases fetch_job_spec _ _ _ _ _ _ _ _ fetched with ⟨_, _, same⟩ | ⟨candidate, picked, _, tables⟩
  · rw [same]
    exact Changed.aside rfl rfl rfl le_rfl
  · obtain ⟨live, qualifies, _⟩ := lock_candidate_spec _ _ _ _ _ _ picked
    apply Changed.updated _ _ _ _ _ tables
    intro job member chosen
    have same := store.jobs.eq_of_id job candidate member
      ((store.jobs.get_eq_some_iff _ _).mp live).1 (of_decide_eq_true chosen)
    subst same
    have waits : job.status = .todo := by
      simp only [due, Bool.and_eq_true, decide_eq_true_eq] at qualifies
      exact qualifies.1.1
    have events : (updateEvents ⟨true, false⟩ now job (startedBy workerId job)).map Prod.fst =
        [.started] := by
      simp [updateEvents, scheduledEvents, startedBy, statusEvent, waits]
    rw [events]
    exact ⟨.start, may job.id, Move.start job workerId waits⟩

theorem finish_changed (jobId : Nat) (endStatus : JobStatus) (deleteJob : Bool)
    (finished : finishJobV1 jobId endStatus deleteJob now store = .ok after)
    (may : allowed jobId .finish) (mayDelete : ∀ status, allowed jobId (.delete status)) :
    Changed allowed store after := by
  obtain ⟨ends, _, tables⟩ := finish_job_spec _ _ _ _ _ _ finished
  have unfinished : ∀ job, jobIn jobId [.todo, .doing] job = true →
      job.id = jobId ∧ (job.status = .todo ∨ job.status = .doing) := by
    intro job chosen
    simpa using (job_in_iff _ _ _).mp chosen
  split_ifs at tables with deleted
  · apply Changed.deleted _ tables
    intro job chosen
    obtain ⟨named, still⟩ := unfinished job chosen
    rw [named]
    exact ⟨still, mayDelete job.status⟩
  · apply Changed.updated _ _ _ _ _ tables
    intro job _ chosen
    obtain ⟨named, still⟩ := unfinished job chosen
    have quiet : scheduledEvents (finishedAs endStatus job) = [] := by
      simp only [List.mem_cons, List.not_mem_nil, or_false] at ends
      rcases ends with ends | ends | ends <;> rw [ends] <;> rfl
    have events : (updateEvents ⟨true, true⟩ now job (finishedAs endStatus job)).map Prod.fst =
        (statusEvent job.status endStatus).toList := by
      rw [updateEvents, quiet]
      cases logged : statusEvent job.status endStatus with
      | none => simp [finishedAs, logged]
      | some type => simp [finishedAs, logged]
    rw [events, named]
    exact ⟨.finish, may, Move.finish job endStatus still ends⟩

theorem cancel_changed (jobId : Nat) (abort deleteJob : Bool) (cancelled : Option Nat)
    (ended : cancelJobV1 jobId abort deleteJob now store = .ok (cancelled, after))
    (mayCancel : allowed jobId .cancel) (mayRequest : allowed jobId .requestAbort)
    (mayDelete : allowed jobId (.delete .todo)) : Changed allowed store after := by
  rcases cancel_job_spec _ _ _ _ _ _ _ ended with tables | ⟨keeps, tables⟩
  · apply Changed.deleted _ tables
    intro job chosen
    obtain ⟨named, status⟩ := (job_in_iff _ _ _).mp chosen
    have waits : job.status = .todo := by simpa using status
    rw [waits, named]
    exact ⟨Or.inl rfl, mayDelete⟩
  · apply Changed.updated _ _ _ _ _ tables
    intro job _ chosen
    obtain ⟨named, status⟩ := (job_in_iff _ _ _).mp chosen
    rw [named]
    cases abort with
    | false =>
        have waits : job.status = .todo := by simpa using status
        have events : (updateEvents ⟨true, false⟩ now job (cancelledAs false job)).map Prod.fst =
            [.cancelled] := by
          simp [updateEvents, scheduledEvents, cancelledAs, statusEvent, waits]
        rw [events]
        exact ⟨.cancel, mayCancel, Move.cancel job waits⟩
    | true =>
        have unfinished : job.status = .todo ∨ job.status = .doing := by simpa using status
        cases unfinished with
        | inl waits =>
            have events : (updateEvents ⟨true, true⟩ now job (cancelledAs true job)).map Prod.fst =
                [.abortRequested, .cancelled] := by
              simp [updateEvents, scheduledEvents, cancelledAs, statusEvent, waits]
            have made : cancelledAs true job =
                { job with abortRequested := true, status := .cancelled } := by
              simp [cancelledAs, waits]
            rw [events, made]
            exact ⟨.cancel, mayCancel, Move.cancelAbort job waits⟩
        | inr runs =>
            have events : (updateEvents ⟨true, true⟩ now job (cancelledAs true job)).map Prod.fst =
                [.abortRequested] := by
              simp [updateEvents, scheduledEvents, cancelledAs, statusEvent, runs]
            have made : cancelledAs true job = { job with abortRequested := true } := by
              simp [cancelledAs, runs]
            rw [events, made]
            exact ⟨.requestAbort, mayRequest, Move.requestAbort job runs⟩

theorem retry_events (change : RetryChange) (queueName : Option String) (job : Job) :
    (updateEvents ⟨true, false⟩ now job (change.apply queueName job)).map Prod.fst =
      (if change.retryAt.isSome then [.scheduled] else []) ++
        (statusEvent job.status .todo).toList := by
  have scheduled : scheduledEvents (change.apply queueName job) =
      (change.retryAt.map fun retryAt => (JobEventType.scheduled, retryAt)).toList := by
    unfold scheduledEvents RetryChange.apply
    cases change.retryAt <;> rfl
  have status : (change.apply queueName job).status = .todo := rfl
  rw [updateEvents, scheduled, status]
  cases change.retryAt <;> cases statusEvent job.status .todo <;> rfl

/-- A retry, where what was read of the job before is what the row says. -/
theorem retry_changed (jobId : Nat) (change : RetryChange) (aborting : Bool)
    (from_ : List JobStatus) (complaint : String)
    (retried : retryJob jobId change aborting from_ complaint now store = .ok after)
    (read : aborting = true → ∀ job ∈ store.jobs.rows, jobIn jobId [.doing] job = true →
      job.abortRequested = true)
    (ran : ∀ status ∈ from_, status = .doing ∨ status = .failed)
    (mayFail : allowed jobId .failAborting)
    (mayRetry : ∀ status ∈ from_, allowed jobId (.retry change status)) :
    Changed allowed store after := by
  rcases retry_job_spec _ _ _ _ _ _ _ _ retried with ⟨aborts, tables⟩ | ⟨_, queueName, tables⟩
  · apply Changed.updated _ _ _ _ _ tables
    intro job member chosen
    obtain ⟨named, status⟩ := (job_in_iff _ _ _).mp chosen
    have runs : job.status = .doing := by simpa using status
    have events : (updateEvents ⟨true, false⟩ now job { job with status := .failed }).map Prod.fst =
        [.failed] := by
      simp [updateEvents, scheduledEvents, statusEvent, runs]
    rw [events]
    exact ⟨.failAborting, named ▸ mayFail, Move.failAborting job runs (read aborts job member chosen)⟩
  · have allowedRows := after.checked
    rw [tables] at allowedRows
    apply Changed.updated _ _ _ _ _ tables
    intro job member chosen
    obtain ⟨named, status⟩ := (job_in_iff _ _ _).mp chosen
    have calm : job.abortRequested = false := by
      have there : change.apply queueName job ∈ (updateJobs ⟨true, false⟩ now (jobIn jobId from_)
          (change.apply queueName) (fun _ => rfl) store.toJobTables).jobs.rows :=
        List.mem_map.mpr ⟨job, member, if_pos chosen⟩
      have checked := allowedRows _ there
      cases requested : job.abortRequested with
      | false => rfl
      | true => exact absurd ⟨rfl, requested⟩ checked
    rw [retry_events, named]
    exact ⟨.retry change job.status, mayRetry _ status,
      Move.retry job change queueName (ran _ status) calm⟩

end Changes

theorem map_snd_ok {Value : Type} (made : Except SqlError (Value × JobStore)) (after : JobStore)
    (mapped : made.map Prod.snd = .ok after) : ∃ value, made = .ok (value, after) := by
  cases made with
  | error raised => cases mapped
  | ok result =>
      cases mapped
      exact ⟨result.1, rfl⟩

/-- Both retries read the row they then change. -/
theorem read_same (store : JobStore) (jobId : Nat) (statuses : List JobStatus) (job other : Job)
    (member : job ∈ store.jobs.rows) (chosen : jobIn jobId [.doing] job = true)
    (found : store.jobs.rows.find? (jobIn jobId statuses) = some other) : other = job :=
  store.jobs.eq_of_id other job (List.mem_of_find?_eq_some found) member
    (((job_in_iff _ _ _).mp (List.find?_some found)).1.trans ((job_in_iff _ _ _).mp chosen).1.symm)

theorem step_changed (store next : JobStore) (action : Action) (stepped : step store action = some next)
    (plain : ∀ job now, action ≠ .deferPeriodicJob job now) :
    Changed (fun jobId => action.allows jobId) store next := by
  have called := step_call store next action stepped
  cases action with
  | deferJobs jobs now =>
      obtain ⟨ids, deferred⟩ := map_snd_ok _ _ called
      obtain ⟨rows, defers, _⟩ := defer_jobs_spec _ _ _ _ _ deferred
      exact Changed.deferred jobs now rows defers
  | deferPeriodicJob job now => exact absurd rfl (plain job now)
  | fetchJob snapshot locked targetQueueNames workerId now =>
      obtain ⟨found, fetched⟩ := map_snd_ok _ _ called
      exact fetch_changed _ _ _ _ (fun _ => trivial) _ _ _ _ _ fetched
  | finishJob finishedId endStatus deleteJob now =>
      exact finish_changed _ _ _ _ _ _ _ called rfl fun _ => rfl
  | cancelJob cancelledId abort deleteJob now =>
      obtain ⟨cancelled, ended⟩ := map_snd_ok _ _ called
      exact cancel_changed _ _ _ _ _ _ _ _ ended rfl rfl ⟨rfl, rfl⟩
  | retryJobV1 retriedId change now =>
      apply retry_changed _ _ _ _ _ _ _ _ _ called
      · intro aborting job member chosen
        have read := of_decide_eq_true aborting
        obtain ⟨other, found, aborts⟩ := Option.map_eq_some_iff.mp read
        exact read_same store retriedId _ job other member chosen found ▸ aborts
      · intro status member
        exact Or.inl (by simpa using member)
      · exact rfl
      · intro status member
        exact ⟨rfl, rfl, by simpa using member⟩
  | retryJobV2 retriedId change now =>
      apply retry_changed _ _ _ _ _ _ _ _ _ called
      · intro aborting job member chosen
        cases found : store.jobs.rows.find? (jobIn retriedId [.doing, .failed]) with
        | none =>
            rw [found] at aborting
            cases aborting
        | some other =>
            rw [found, Option.any_some, Bool.and_eq_true] at aborting
            exact read_same store retriedId _ job other member chosen found ▸ aborting.2
      · intro status member
        simpa using member
      · exact rfl
      · intro status _
        exact ⟨rfl, rfl⟩
  | registerWorker now =>
      obtain ⟨made, registered⟩ := map_snd_ok _ _ called
      obtain ⟨made, admitted, registered⟩ := bind_ok _ _ _ registered
      cases registered
      have tables := accept_tables _ _ admitted
      apply Changed.aside <;> rw [tables]
  | unregisterWorker workerId now =>
      exact Changed.unlinked _ _ (accept_tables _ _ called) fun _ => trivial
  | updateHeartbeat workerId now =>
      have tables := accept_tables _ _ called
      apply Changed.aside <;> rw [tables]
  | pruneStalledWorkers sinceHeartbeat now =>
      obtain ⟨made, pruned⟩ := map_snd_ok _ _ called
      obtain ⟨made, admitted, pruned⟩ := bind_ok _ _ _ pruned
      cases pruned
      exact Changed.unlinked _ _ (accept_tables _ _ admitted) fun _ => trivial
  | rolledBack jobs periodicDefers events workers =>
      have tables := accept_tables _ _ called
      apply Changed.aside <;> rw [tables]
      · rfl
      · rfl
      · rfl
      · exact Nat.le_add_right _ _

/-! ## What it does to a job -/

/-- What unlinking a worker keeps, deleting workers keeps. -/
theorem delete_workers_keeps (now : Instant) (gone : Worker → Bool) (invariant : JobTables → Prop)
    (tables : JobTables) (initial : invariant { tables with workers := tables.workers.delete gone })
    (unlink : ∀ middle, invariant middle → ∀ workerId, invariant (unlinkWorker now workerId middle)) :
    invariant (deleteWorkers now gone tables) :=
  List.foldlRecOn _ _ initial fun middle held workerId _ => unlink middle held workerId

theorem unlink_moves (allowed : MoveKind → Prop) (may : allowed .unlink) (now : Instant)
    (workerId : Nat) (tables : JobTables) (jobId : Nat) :
    Option.Rel (Moves allowed) (view tables jobId) (view (unlinkWorker now workerId tables) jobId) := by
  apply update_moves
  intro job _ _ _
  have events : (updateEvents ⟨false, false⟩ now job { job with workerId := none }).map Prod.fst =
      (scheduledEvents job).map Prod.fst := by
    simp only [updateEvents, Bool.false_and, Bool.false_eq_true, if_false, List.nil_append,
      List.append_nil]
    rfl
  rw [events]
  exact ⟨.unlink, may, Move.unlink job⟩

theorem delete_workers_moves (allowed : MoveKind → Prop) (may : allowed .unlink) (now : Instant)
    (gone : Worker → Bool) (tables : JobTables) (jobId : Nat) :
    Option.Rel (Moves allowed) (view tables jobId) (view (deleteWorkers now gone tables) jobId) := by
  apply delete_workers_keeps now gone
    (fun middle => Option.Rel (Moves allowed) (view tables jobId) (view middle jobId))
  · rw [view_same tables { tables with workers := tables.workers.delete gone } jobId rfl rfl]
    exact moves_refl allowed _
  · intro middle held workerId
    exact moves_trans allowed _ _ _ held (unlink_moves allowed may now workerId middle jobId)

theorem Changed.outcome (allowed : Nat → MoveKind → Prop) (store next : JobStore)
    (changed : Changed allowed store next) (jobId : Nat) :
    Outcome (allowed jobId) (store.jobs.lastValue < jobId) (view store.toJobTables jobId)
      (view next.toJobTables jobId) := by
  cases changed with
  | deferred jobs now rows defers => exact defers.outcome _ jobId
  | updated columns now chosen set keeps tables moves =>
      rw [tables]
      apply moves_outcome
      apply update_moves
      intro job member picked same
      exact same ▸ moves job member picked
  | deleted gone tables unfinished =>
      rw [tables]
      apply delete_outcome
      intro job picked same
      exact same ▸ unfinished job picked
  | unlinked now gone tables may =>
      rw [tables]
      exact moves_outcome _ _ _ _ (delete_workers_moves _ (may jobId) now gone _ jobId)
  | aside jobs events _ _ =>
      rw [view_same _ _ jobId jobs events]
      exact outcome_same _ _ _

theorem step_outcome (store next : JobStore) (action : Action) (stepped : step store action = some next)
    (jobId : Nat) :
    Outcome (action.allows jobId) (store.jobs.lastValue < jobId) (view store.toJobTables jobId)
      (view next.toJobTables jobId) := by
  cases action with
  | deferPeriodicJob job now =>
      obtain ⟨made, deferred⟩ := map_snd_ok _ _ (step_call store next _ stepped)
      obtain ⟨_, _, _, _, ⟨_, known⟩ | ⟨inserted, deferredStore, row, _, new⟩⟩ :=
        defer_periodic_spec _ _ _ _ _ deferred
      · rw [view_same _ _ jobId (by rw [known.jobs]) (by rw [known.events])]
        exact outcome_same _ _ _
      · have first := view_same store.toJobTables inserted.toJobTables jobId
          (by rw [new.insertedJobs]) (by rw [new.insertedEvents])
        have last := view_same deferredStore.toJobTables next.toJobTables jobId
          (by rw [new.jobs]) (by rw [new.events])
        rw [last, ← first, ← new.insertedJobs]
        exact new.defers.outcome _ jobId
  | _ =>
      apply (step_changed store next _ stepped _).outcome
      intro job now same
      cases same

/-- Over a run, with the moves that any of its actions allows. -/
theorem run_leads (allowed : MoveKind → Prop) (jobId : Nat) (actions : List Action)
    (store final : JobStore)
    (within : ∀ action ∈ actions, ∀ kind, action.allows jobId kind → allowed kind)
    (ran : runFrom step actions store = some final) :
    Leads allowed (view store.toJobTables jobId) (view final.toJobTables jobId) := by
  induction actions generalizing store with
  | nil =>
      cases ran
      exact Relation.ReflTransGen.refl
  | cons action rest ih =>
      obtain ⟨next, stepped, later⟩ := run_from_cons step action rest store final ran
      have first := outcome_mono _ allowed (within action List.mem_cons_self) _ _ _
        (step_outcome store next action stepped jobId)
      exact (ih next (fun other member => within other (List.mem_cons_of_mem _ member)) later).head first

end Morai.Procrastinate.Effects
