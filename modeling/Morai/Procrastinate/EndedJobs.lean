import Morai.Procrastinate.Effects

/-!
# Jobs that have ended, and jobs left running

What has succeeded, was cancelled or aborted is not touched again, and neither
is a job that a retry failed because its abort was requested: the retry of a
failed job runs into `check_not_todo_abort_requested`. A running job that
nobody finishes or retries keeps its lock to itself, whoever ran it.
-/

namespace Morai.Procrastinate.EndedJobs

open Morai.Foundation.Runs Morai.Foundation.Serial Morai.Procrastinate.Schema
open Morai.Procrastinate.Functions Morai.Procrastinate.JobViews Morai.Procrastinate.Steps
open Morai.Procrastinate.Effects Morai.Python

set_option autoImplicit false

/-! ## Ended jobs -/

structure Ended (job : Job) : Prop where
  waits : job.status ≠ .todo
  runs : job.status ≠ .doing
  retriable : job.status = .failed → job.abortRequested = true

/-- The row and its log, but for a worker that has gone. -/
def Unchanged (job : Job) (log : List JobEventType) (seen : View) : Prop :=
  ∃ workerId, seen = ⟨{ job with workerId := workerId }, log⟩

theorem move_ended (job : Job) (log : List JobEventType) (ended : Ended job) (kind : MoveKind)
    (before after : Job) (old events : List JobEventType) (move : Move kind before after events)
    (held : Unchanged job log ⟨before, old⟩) : Unchanged job log ⟨after, old ++ events⟩ := by
  obtain ⟨workerId, same⟩ := held
  cases same
  cases move with
  | start _ _ waits => exact absurd waits ended.waits
  | finish _ _ unfinished _ => exact (unfinished.elim ended.waits ended.runs).elim
  | cancel _ waits => exact absurd waits ended.waits
  | cancelAbort _ waits => exact absurd waits ended.waits
  | requestAbort _ runs => exact absurd runs ended.runs
  | failAborting _ runs _ => exact absurd runs ended.runs
  | retry _ _ _ ran calm =>
      cases ran with
      | inl runs => exact absurd runs ended.runs
      | inr broke =>
          have aborting := ended.retriable broke
          rw [show job.abortRequested = false from calm] at aborting
          cases aborting
  | unlink _ =>
      have silent : scheduledEvents { job with workerId := workerId } = [] := by
        unfold scheduledEvents
        split
        · rename_i waits _
          exact absurd waits ended.waits
        · rfl
      refine ⟨none, ?_⟩
      rw [silent, List.map_nil, List.append_nil]

theorem ended_stays (actions : List Action) (store final : JobStore)
    (ran : runFrom step actions store = some final) (job : Job) (member : job ∈ store.jobs.rows)
    (ended : Ended job) :
    ∃ workerId, final.jobs.get? job.id = some { job with workerId := workerId } ∧
      logOf final.events.rows job.id = logOf store.events.rows job.id := by
  let log := logOf store.events.rows job.id
  have seen : view store.toJobTables job.id = some ⟨job, log⟩ :=
    (view_eq_some_iff _ _ _).mpr ⟨store.jobs.get_of_mem job member, rfl⟩
  have leads := run_leads (fun _ => True) job.id actions store final (fun _ _ _ _ => trivial) ran
  rw [seen] at leads
  have undeleted : ∀ seen : View, Unchanged job log seen →
      seen.job.status = .todo ∨ seen.job.status = .doing → ¬True := by
    rintro seen ⟨workerId, rfl⟩ unfinished
    exact (unfinished.elim ended.waits ended.runs).elim
  have initial : Unchanged job log ⟨job, log⟩ := ⟨job.workerId, rfl⟩
  obtain ⟨later, found, workerId, rfl⟩ := leads_stays (fun _ => True) (Unchanged job log) undeleted
    (fun kind before after old events move _ => move_ended job log ended kind before after old events
      move) _ _ leads initial
  obtain ⟨row, logged⟩ := (view_eq_some_iff _ _ _).mp found
  exact ⟨workerId, row, logged.symm⟩

/-- What is over stays over: no call of any function brings such a job back,
changes its row or logs anything for it. -/
theorem ended_job_unchanged (actions : List Action) (store final : JobStore)
    (ran : runFrom step actions store = some final) (job : Job) (member : job ∈ store.jobs.rows)
    (ended : Ended job) :
    ∃ workerId, { job with workerId := workerId } ∈ final.jobs.rows ∧
      logOf final.events.rows job.id = logOf store.events.rows job.id := by
  obtain ⟨workerId, found, logged⟩ := ended_stays actions store final ran job member ended
  exact ⟨workerId, ((final.jobs.get_eq_some_iff _ _).mp found).1, logged⟩

/-- The worker is pruned and another one comes. -/
def workerReplaced : List Action := [.pruneStalledWorkers 10 50, .registerWorker 51]

theorem ended_job_unchanged_pruned :
    ∃ (store final : JobStore) (job : Job), runFrom step firstServed .empty = some store ∧
      runFrom step workerReplaced store = some final ∧ job.status = .succeeded ∧
      ∃ workerId, { job with workerId := workerId } ∈ final.jobs.rows ∧
        logOf final.events.rows job.id = logOf store.events.rows job.id := by
  have reads : ((runFrom step firstServed .empty).any fun store =>
      (runFrom step workerReplaced store).isSome &&
        store.jobs.rows.any fun job => decide (job.status = .succeeded)) = true := by decide +kernel
  obtain ⟨present, served⟩ := (Option.any_eq_true_iff_get _ _).mp reads
  obtain ⟨later, found⟩ := Bool.and_eq_true_iff.mp served
  obtain ⟨final, ran⟩ := Option.isSome_iff_exists.mp later
  obtain ⟨job, member, shape⟩ := List.any_eq_true.mp found
  have succeeded := of_decide_eq_true shape
  have ended : Ended job := ⟨by simp [succeeded], by simp [succeeded], by simp [succeeded]⟩
  exact ⟨_, final, job, (Option.some_get present).symm, ran, succeeded,
    ended_job_unchanged _ _ final ran job member ended⟩

/-! ## A retry while the abort is requested -/

theorem accept_unchecked (tables : JobTables) (job : Job) (member : job ∈ tables.jobs.rows)
    (breaks : ¬NotTodoAbortRequested job) :
    accept tables = .error (.checkViolation "check_not_todo_abort_requested") := by
  unfold accept
  rw [dif_neg]
  intro checked
  exact breaks (checked job member)

/-- Neither retry brings back a job that failed while its abort was
requested. -/
theorem retry_aborted_raises (store : JobStore) (jobId : Nat) (job : Job)
    (found : store.jobs.get? jobId = some job) (broke : job.status = .failed)
    (aborting : job.abortRequested = true) (change : RetryChange) (now : Instant)
    (fits : ∀ name ∈ change.newQueueName, ∃ stored, varchar128 name = .ok stored) :
    Functions.retryJobV2 jobId change now store =
      .error (.checkViolation "check_not_todo_abort_requested") := by
  have picked := find_job_in store jobId [.doing, .failed] job found (by simp [broke])
  have read : (store.jobs.rows.find? (jobIn jobId [.doing, .failed])).any
      (fun job => job.status = .doing && job.abortRequested) = false := by
    simp [picked, broke]
  obtain ⟨queueName, fitting⟩ : ∃ queueName, change.newQueueName.mapM varchar128 = .ok queueName := by
    cases named : change.newQueueName with
    | none => exact ⟨none, rfl⟩
    | some name =>
        obtain ⟨stored, fitting⟩ := fits name named
        exact ⟨some stored, by simp [Option.mapM_some, fitting]⟩
  unfold Functions.retryJobV2
  dsimp only
  rw [read]
  unfold retryJob
  simp only [Bool.false_eq_true, if_false, returned, picked, Option.map_some, fitting]
  apply accept_unchecked _ (change.apply queueName job)
  · obtain ⟨member, same⟩ := (store.jobs.get_eq_some_iff jobId job).mp found
    exact List.mem_map.mpr ⟨job, member, if_pos ((job_in_iff _ _ _).mpr ⟨same, by simp [broke]⟩)⟩
  · intro checked
    exact checked ⟨rfl, aborting⟩

/-- The retry of a running job whose abort is requested fails it. -/
theorem retry_aborting (store middle : JobStore) (jobId : Nat) (job : Job) (change : RetryChange)
    (now : Instant) (found : store.jobs.get? jobId = some job) (runs : job.status = .doing)
    (aborting : job.abortRequested = true)
    (retried : step store (.retryJobV1 jobId change now) = some middle ∨
      step store (.retryJobV2 jobId change now) = some middle) :
    middle.jobs.get? jobId = some { job with status := .failed } := by
  obtain ⟨from_, complaint, made⟩ : ∃ from_ complaint,
      retryJob jobId change true from_ complaint now store = .ok middle := by
    cases retried with
    | inl first =>
        have called := step_call store middle _ first
        have read : ((store.jobs.rows.find? (jobIn jobId [.doing])).map Job.abortRequested) =
            some true := by
          rw [find_job_in store jobId [.doing] job found (by simp [runs]), Option.map_some, aborting]
        simp only [call, Functions.retryJobV1, read, decide_true] at called
        exact ⟨_, _, called⟩
    | inr second =>
        have called := step_call store middle _ second
        have read : (store.jobs.rows.find? (jobIn jobId [.doing, .failed])).any
            (fun job => job.status = .doing && job.abortRequested) = true := by
          rw [find_job_in store jobId [.doing, .failed] job found (by simp [runs])]
          simp [runs, aborting]
        simp only [call, Functions.retryJobV2, read] at called
        exact ⟨_, _, called⟩
  rcases retry_job_spec _ _ _ _ _ _ _ _ made with ⟨_, tables⟩ | ⟨never, _⟩
  · rw [tables]
    have chosen : jobIn jobId [.doing] job = true :=
      (job_in_iff _ _ _).mpr ⟨((store.jobs.get_eq_some_iff _ _).mp found).2, by simp [runs]⟩
    simp only [updateJobs, SerialTable.update_get, found, Option.map_some, chosen, if_true]
  · cases never

/-- A running job whose abort is requested and which its worker retries is lost
for good: it stays failed whatever is called later, and its own retry raises. -/
theorem aborted_retry_lost (store middle final : JobStore) (jobId : Nat) (job : Job)
    (change : RetryChange) (now : Instant) (found : store.jobs.get? jobId = some job)
    (runs : job.status = .doing) (aborting : job.abortRequested = true)
    (retried : step store (.retryJobV1 jobId change now) = some middle ∨
      step store (.retryJobV2 jobId change now) = some middle)
    (actions : List Action) (ran : runFrom step actions middle = some final) :
    (∃ workerId, final.jobs.get? jobId =
        some { job with status := .failed, workerId := workerId }) ∧
      ∀ again later, (∀ name ∈ again.newQueueName, ∃ stored, varchar128 name = .ok stored) →
        Functions.retryJobV2 jobId again later final =
          .error (.checkViolation "check_not_todo_abort_requested") := by
  have failed := retry_aborting store middle jobId job change now found runs aborting retried
  obtain ⟨member, same⟩ := (middle.jobs.get_eq_some_iff _ _).mp failed
  have ended : Ended { job with status := .failed } :=
    ⟨by simp, by simp, fun _ => aborting⟩
  have sameId : job.id = jobId := same
  subst sameId
  obtain ⟨workerId, kept, _⟩ := ended_stays actions middle final ran _ member ended
  refine ⟨⟨workerId, kept⟩, ?_⟩
  intro again later fits
  exact retry_aborted_raises final job.id _ kept rfl aborting again later fits

/-- The abort of the running job is requested. -/
def abortAsked : List Action := firstFetched ++ [.cancelJob 1 true false 2]

theorem aborted_retry_lost_pruned :
    ∃ (store middle final : JobStore) (job : Job), runFrom step abortAsked .empty = some store ∧
      step store (.retryJobV1 1 ⟨none, none, none, none⟩ 3) = some middle ∧
      runFrom step workerReplaced middle = some final ∧
      (∃ workerId, final.jobs.get? 1 = some { job with status := .failed, workerId := workerId }) ∧
      Functions.retryJobV2 1 ⟨none, none, none, none⟩ 60 final =
        .error (.checkViolation "check_not_todo_abort_requested") := by
  have reads : ((runFrom step abortAsked .empty).any fun store =>
      ((step store (.retryJobV1 1 ⟨none, none, none, none⟩ 3)).any fun middle =>
        (runFrom step workerReplaced middle).isSome) &&
        (store.jobs.get? 1).any fun job => decide (job.status = .doing ∧ job.abortRequested = true)) =
          true := by
    decide +kernel
  obtain ⟨present, asked⟩ := (Option.any_eq_true_iff_get _ _).mp reads
  obtain ⟨later, found⟩ := Bool.and_eq_true_iff.mp asked
  obtain ⟨stepped, replaced⟩ := (Option.any_eq_true_iff_get _ _).mp later
  obtain ⟨final, ran⟩ := Option.isSome_iff_exists.mp replaced
  obtain ⟨there, shape⟩ := (Option.any_eq_true_iff_get _ _).mp found
  obtain ⟨runs, aborting⟩ := of_decide_eq_true shape
  have retried := (Option.some_get stepped).symm
  obtain ⟨failed, raises⟩ := aborted_retry_lost _ _ final 1 _ _ 3 (Option.some_get there).symm runs
    aborting (Or.inl retried) _ ran
  exact ⟨_, _, final, _, (Option.some_get present).symm, retried, ran, failed,
    raises _ 60 (by simp)⟩

/-! ## A job left running -/

/-- The calls that take a job out of `doing`. -/
def Action.releases (jobId : Nat) : Action → Prop
  | .finishJob finished _ _ _ => finished = jobId
  | .retryJobV1 retried _ _ => retried = jobId
  | .retryJobV2 retried _ _ => retried = jobId
  | _ => False

/-- The moves other than out of `doing`. -/
def MoveKind.remains : MoveKind → Prop
  | .finish => False
  | .failAborting => False
  | .retry _ _ => False
  | .delete from_ => from_ = .todo
  | _ => True

theorem unreleased_remains (jobId : Nat) (action : Action) (kind : MoveKind)
    (may : action.allows jobId kind) (unreleased : ¬Action.releases jobId action) :
    MoveKind.remains kind := by
  unfold Action.allows at may
  split at may
  · trivial
  · exact absurd may unreleased
  · exact absurd may unreleased
  · trivial
  · trivial
  · exact may.2
  · exact absurd may unreleased
  · exact absurd may.1 unreleased
  · exact absurd may unreleased
  · exact absurd may.1 unreleased
  · trivial
  · trivial
  · exact may.elim

def Running (lock : Option String) (seen : View) : Prop :=
  seen.job.status = .doing ∧ seen.job.lock = lock

theorem move_running (lock : Option String) (kind : MoveKind) (before after : Job)
    (log events : List JobEventType) (move : Move kind before after events)
    (may : MoveKind.remains kind) (held : Running lock ⟨before, log⟩) :
    Running lock ⟨after, log ++ events⟩ := by
  cases move with
  | start _ _ waits => exact absurd (held.1.symm.trans waits) (by simp)
  | finish _ _ _ _ => exact may.elim
  | cancel _ waits => exact absurd (held.1.symm.trans waits) (by simp)
  | cancelAbort _ waits => exact absurd (held.1.symm.trans waits) (by simp)
  | requestAbort _ _ => exact held
  | failAborting _ _ _ => exact may.elim
  | retry _ _ _ _ _ => exact may.elim
  | unlink _ => exact held

/-- As long as nobody finishes or retries a running job, no other job with its
lock runs, even where its worker is gone and fetches overlap. -/
theorem running_job_keeps_lock (actions : List Action) (store final : JobStore)
    (ran : runFrom step actions store = some final) (job : Job) (member : job ∈ store.jobs.rows)
    (runs : job.status = .doing) (lock : String) (locked : job.lock = some lock)
    (unreleased : ∀ action ∈ actions, ¬Action.releases job.id action) :
    (∃ later ∈ final.jobs.rows, later.id = job.id ∧ later.status = .doing) ∧
      ∀ other ∈ final.jobs.rows, other.lock = some lock → other.status = .doing →
        other.id = job.id := by
  have seen : view store.toJobTables job.id = some ⟨job, logOf store.events.rows job.id⟩ :=
    (view_eq_some_iff _ _ _).mpr ⟨store.jobs.get_of_mem job member, rfl⟩
  have leads := run_leads MoveKind.remains job.id actions store final
    (fun action listed kind may =>
      unreleased_remains job.id action kind may (unreleased action listed)) ran
  rw [seen] at leads
  have undeleted : ∀ seen : View, Running (some lock) seen →
      seen.job.status = .todo ∨ seen.job.status = .doing →
        ¬MoveKind.remains (.delete seen.job.status) := by
    intro seen held _ may
    rw [held.1] at may
    cases may
  obtain ⟨later, found, held⟩ := leads_stays MoveKind.remains (Running (some lock)) undeleted
    (move_running (some lock)) _ _ leads ⟨runs, locked⟩
  obtain ⟨row, _⟩ := (view_eq_some_iff _ _ _).mp found
  obtain ⟨laterMember, laterId⟩ := (final.jobs.get_eq_some_iff _ _).mp row
  refine ⟨⟨later.job, laterMember, laterId, held.1⟩, ?_⟩
  intro other otherMember otherLock otherRuns
  have apart := (indexed_iff final.jobs lockIdx).mp final.locks other otherMember later.job laterMember
    lock (by simp [lockIdx, otherRuns, otherLock]) (by simp [lockIdx, held.1, held.2])
  exact apart.trans laterId

theorem running_job_keeps_lock_pruned :
    ∃ store final, runFrom step firstFetched .empty = some store ∧
      runFrom step workerReplaced store = some final ∧
      (∃ later ∈ final.jobs.rows, later.id = 1 ∧ later.status = .doing) ∧
      ∀ other ∈ final.jobs.rows, other.lock = some "user 1" → other.status = .doing →
        other.id = 1 := by
  have reads : ((runFrom step firstFetched .empty).any fun store =>
      (runFrom step workerReplaced store).isSome && store.jobs.rows.any fun job =>
        decide (job.id = 1 ∧ job.status = .doing ∧ job.lock = some "user 1")) = true := by
    decide +kernel
  obtain ⟨present, fetched⟩ := (Option.any_eq_true_iff_get _ _).mp reads
  obtain ⟨later, found⟩ := Bool.and_eq_true_iff.mp fetched
  obtain ⟨final, ran⟩ := Option.isSome_iff_exists.mp later
  obtain ⟨job, member, shape⟩ := List.any_eq_true.mp found
  obtain ⟨first, runs, locked⟩ := of_decide_eq_true shape
  have keeps := running_job_keeps_lock workerReplaced _ final ran job member runs "user 1" locked
    (by simp [workerReplaced, Action.releases])
  rw [first] at keeps
  exact ⟨_, final, (Option.some_get present).symm, ran, keeps⟩

end Morai.Procrastinate.EndedJobs
