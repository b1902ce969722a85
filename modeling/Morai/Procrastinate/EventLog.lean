import Morai.Procrastinate.Effects

/-!
# What the event log tells about a job

The triggers write the log row by row, and nothing reads it back. Over every
run it accounts for the attempts the row counts, and it tells the row's status
except where a job was ended before it ever started.
-/

namespace Morai.Procrastinate.EventLog

open Morai.Foundation.Runs Morai.Foundation.Serial Morai.Procrastinate.Schema
open Morai.Procrastinate.Functions Morai.Procrastinate.JobViews Morai.Procrastinate.Steps
open Morai.Procrastinate.Effects Morai.Python

set_option autoImplicit false

/-- What holds of a fresh job and is kept by every move holds of every job a
run leaves. -/
theorem run_holds (invariant : View → Prop)
    (fresh : ∀ job now, Fresh job → invariant ⟨job, (insertEvents now job).map Prod.fst⟩)
    (keeps : ∀ kind before after log events, Move kind before after events →
      invariant ⟨before, log⟩ → invariant ⟨after, log ++ events⟩)
    (actions : List Action) (final : JobStore)
    (ran : runFrom step actions .empty = some final) (job : Job) (member : job ∈ final.jobs.rows) :
    invariant ⟨job, logOf final.events.rows job.id⟩ := by
  have leads := run_leads (fun _ => True) job.id actions .empty final (fun _ _ _ _ => trivial) ran
  have seen : view final.toJobTables job.id = some ⟨job, logOf final.events.rows job.id⟩ :=
    (view_eq_some_iff _ _ _).mpr ⟨final.jobs.get_of_mem job member, rfl⟩
  refine leads_keeps (fun _ => True) invariant fresh ?_ _ _ leads ?_ _ seen
  · intro kind before after log events move _ held
    exact keeps kind before after log events move held
  · intro seen none
    cases none

/-! ## Attempts -/

/-- A job that a retry failed because its abort was requested. -/
def AbortedRetry (job : Job) : Prop := job.status = .failed ∧ job.abortRequested = true

instance (job : Job) : Decidable (AbortedRetry job) := inferInstanceAs (Decidable (_ ∧ _))

/-- Every start is followed by one ending or one retry, unless the job runs
now; every ending and every retry counts one attempt, an ending by an aborted
retry apart. -/
structure Accounted (job : Job) (log : List JobEventType) : Prop where
  deferred : log.count .deferred = 1
  started : log.count .started = log.count .deferredForRetry + log.count .succeeded +
    log.count .failed + log.count .aborted + if job.status = .doing then 1 else 0
  attempts : job.attempts + (if AbortedRetry job then 1 else 0) = log.count .deferredForRetry +
    log.count .succeeded + log.count .failed + log.count .aborted + log.count .retried

theorem scheduled_uncounted (job : Job) (type : JobEventType) (other : type ≠ .scheduled) :
    ((scheduledEvents job).map Prod.fst).count type = 0 := by
  rw [List.count_eq_zero]
  intro member
  unfold scheduledEvents at member
  split at member
  · exact other (by simpa using member)
  · cases member

theorem fresh_accounted (job : Job) (now : Instant) (fresh : Fresh job) :
    Accounted job ((insertEvents now job).map Prod.fst) := by
  have log : (insertEvents now job).map Prod.fst =
      (scheduledEvents job).map Prod.fst ++ [.deferred] := by
    simp [insertEvents, fresh.status]
  rw [log]
  constructor
  · simp [List.count_append, scheduled_uncounted]
  · simp [List.count_append, scheduled_uncounted, fresh.status]
  · simp [List.count_append, scheduled_uncounted, fresh.status, fresh.attempts, AbortedRetry]

theorem move_accounted (kind : MoveKind) (before after : Job) (log events : List JobEventType)
    (move : Move kind before after events) (held : Accounted before log) :
    Accounted after (log ++ events) := by
  obtain ⟨deferred, started, attempts⟩ := held
  cases move with
  | start _ workerId waits =>
      simp only [waits, AbortedRetry, reduceCtorEq, false_and, if_false] at started attempts
      refine ⟨?_, ?_, ?_⟩ <;> simp [AbortedRetry, deferred, started, attempts]
  | finish _ endStatus unfinished ends =>
      simp only [List.mem_cons, List.not_mem_nil, or_false] at ends
      rcases unfinished with waits | runs
      · simp only [waits, AbortedRetry, reduceCtorEq, false_and, if_false] at started attempts
        rcases ends with rfl | rfl | rfl <;> refine ⟨?_, ?_, ?_⟩ <;>
          simp [AbortedRetry, statusEvent, waits, deferred, started, attempts]
      · simp only [runs, AbortedRetry, reduceCtorEq, false_and, if_false, if_true] at started attempts
        rcases ends with rfl | rfl | rfl <;> refine ⟨?_, ?_, ?_⟩ <;>
          simp [AbortedRetry, statusEvent, runs, deferred, started] <;> omega
  | cancel _ waits =>
      simp only [waits, AbortedRetry, reduceCtorEq, false_and, if_false] at started attempts
      refine ⟨?_, ?_, ?_⟩ <;> simp [AbortedRetry, deferred, started, attempts]
  | cancelAbort _ waits =>
      simp only [waits, AbortedRetry, reduceCtorEq, false_and, if_false] at started attempts
      refine ⟨?_, ?_, ?_⟩ <;> simp [AbortedRetry, deferred, started, attempts]
  | requestAbort _ runs =>
      simp only [runs, AbortedRetry, reduceCtorEq, false_and, if_false, if_true] at started attempts
      refine ⟨?_, ?_, ?_⟩ <;> simp [AbortedRetry, runs, deferred, started, attempts]
  | failAborting _ runs aborting =>
      simp only [runs, AbortedRetry, reduceCtorEq, false_and, if_false, if_true] at started attempts
      refine ⟨?_, ?_, ?_⟩ <;> simp [AbortedRetry, aborting, deferred, started] <;> omega
  | retry _ change queueName ran calm =>
      have quiet : ∀ type : JobEventType, type ≠ .scheduled →
          (if change.retryAt.isSome = true then [JobEventType.scheduled] else []).count type = 0 := by
        intro type other
        split_ifs
        · simp [Ne.symm other]
        · rfl
      have todo : (change.apply queueName before).status = .todo := rfl
      have counted : (change.apply queueName before).attempts = before.attempts + 1 := rfl
      rcases ran with runs | broke
      · simp only [runs, AbortedRetry, reduceCtorEq, false_and, if_false, if_true] at started attempts
        refine ⟨?_, ?_, ?_⟩ <;>
          simp [quiet, AbortedRetry, todo, counted, runs, statusEvent, deferred, started] <;> omega
      · simp only [broke, AbortedRetry, calm, reduceCtorEq, Bool.false_eq_true, and_false,
          if_false] at started attempts
        refine ⟨?_, ?_, ?_⟩ <;>
          simp [quiet, AbortedRetry, todo, counted, broke, statusEvent, deferred, started]
        omega
  | unlink _ =>
      refine ⟨?_, ?_, ?_⟩ <;> simp [List.count_append, scheduled_uncounted, deferred, started]
      exact attempts

theorem attempts_accounted (actions : List Action) (final : JobStore)
    (ran : runFrom step actions .empty = some final) (job : Job) (member : job ∈ final.jobs.rows) :
    Accounted job (logOf final.events.rows job.id) :=
  run_holds (fun seen => Accounted seen.job seen.log) fresh_accounted
    (fun kind before after log events => move_accounted kind before after log events)
    actions final ran job member

theorem attempts_accounted_retried :
    ∃ final job,
      runFrom step (firstFetched ++ [.retryJobV1 1 ⟨some 5, none, none, none⟩ 2,
        fetchRow (lockedRow 1 0) 5, .finishJob 1 .failed false 6]) .empty = some final ∧
        job.attempts = 2 ∧ Accounted job (logOf final.events.rows job.id) := by
  have reads : ((runFrom step (firstFetched ++ [.retryJobV1 1 ⟨some 5, none, none, none⟩ 2,
      fetchRow (lockedRow 1 0) 5, .finishJob 1 .failed false 6]) .empty).any fun final =>
        final.jobs.rows.any fun job => decide (job.attempts = 2)) = true := by decide +kernel
  obtain ⟨present, counted⟩ := (Option.any_eq_true_iff_get _ _).mp reads
  obtain ⟨job, member, twice⟩ := List.any_eq_true.mp counted
  have ran := (Option.some_get present).symm
  exact ⟨_, job, ran, of_decide_eq_true twice, attempts_accounted _ _ ran job member⟩

/-! ## Status -/

/-- The status an event stands for. -/
def statusOf : JobEventType → Option JobStatus
  | .deferred => some .todo
  | .started => some .doing
  | .deferredForRetry => some .todo
  | .failed => some .failed
  | .succeeded => some .succeeded
  | .cancelled => some .cancelled
  | .abortRequested => none
  | .aborted => some .aborted
  | .scheduled => none
  | .retried => some .todo

/-- What a reader of the log takes the job's status to be. -/
def statusTold (log : List JobEventType) : Option JobStatus := (log.filterMap statusOf).getLast?

theorem status_told_append (log events : List JobEventType) :
    statusTold (log ++ events) = (statusTold events).or (statusTold log) := by
  simp [statusTold, List.getLast?_append]

/-- The log tells the status, or the job was ended while it still waited: then
success and failure are logged as a cancellation and an abortion not at all. -/
inductive Told (job : Job) (log : List JobEventType) : Prop where
  | logged (told : statusTold log = some job.status)
  | endedWaiting (told : statusTold log = some .cancelled)
      (ended : job.status = .succeeded ∨ job.status = .failed)
  | abortedWaiting (told : statusTold log = some .todo) (ended : job.status = .aborted)

/-- For a job that waits or runs there is only the first case. -/
theorem told_unfinished (job : Job) (log : List JobEventType) (told : Told job log)
    (unfinished : job.status = .todo ∨ job.status = .doing) :
    statusTold log = some job.status := by
  cases told with
  | logged told => exact told
  | endedWaiting told ended => rcases unfinished with same | same <;> simp [same] at ended
  | abortedWaiting told ended => rcases unfinished with same | same <;> simp [same] at ended

theorem fresh_told (job : Job) (now : Instant) (fresh : Fresh job) :
    Told job ((insertEvents now job).map Prod.fst) := by
  apply Told.logged
  have last : (insertEvents now job).map Prod.fst =
      (scheduledEvents job).map Prod.fst ++ [.deferred] := by
    simp [insertEvents, fresh.status]
  rw [last, status_told_append, fresh.status]
  rfl

theorem move_told (kind : MoveKind) (before after : Job) (log events : List JobEventType)
    (move : Move kind before after events) (held : Told before log) : Told after (log ++ events) := by
  cases move with
  | start _ workerId waits =>
      apply Told.logged
      rw [status_told_append]
      rfl
  | finish _ endStatus unfinished ends =>
      have was := told_unfinished before log held unfinished
      simp only [List.mem_cons, List.not_mem_nil, or_false] at ends
      rcases unfinished with waits | runs
      · rw [waits] at was ⊢
        rcases ends with rfl | rfl | rfl
        · exact Told.endedWaiting (by rw [status_told_append]; rfl) (Or.inl rfl)
        · exact Told.endedWaiting (by rw [status_told_append]; rfl) (Or.inr rfl)
        · exact Told.abortedWaiting (by rw [status_told_append, was]; rfl) rfl
      · rw [runs]
        apply Told.logged
        rw [status_told_append]
        rcases ends with rfl | rfl | rfl <;> rfl
  | cancel _ waits =>
      apply Told.logged
      rw [status_told_append]
      rfl
  | cancelAbort _ waits =>
      apply Told.logged
      rw [status_told_append]
      rfl
  | requestAbort _ runs =>
      apply Told.logged
      rw [status_told_append, told_unfinished before log held (Or.inr runs)]
      rfl
  | failAborting _ runs aborting =>
      apply Told.logged
      rw [status_told_append]
      rfl
  | retry _ change queueName ran calm =>
      apply Told.logged
      rw [status_told_append, status_told_append]
      rcases ran with runs | broke
      · rw [runs]
        rfl
      · rw [broke]
        rfl
  | unlink _ =>
      have silent : statusTold ((scheduledEvents before).map Prod.fst) = none := by
        unfold scheduledEvents
        split <;> rfl
      have same : statusTold (log ++ (scheduledEvents before).map Prod.fst) = statusTold log := by
        rw [status_told_append, silent, Option.none_or]
      cases held with
      | logged told => exact Told.logged (same.trans told)
      | endedWaiting told ended => exact Told.endedWaiting (same.trans told) ended
      | abortedWaiting told ended => exact Told.abortedWaiting (same.trans told) ended

theorem log_tells_status (actions : List Action) (final : JobStore)
    (ran : runFrom step actions .empty = some final) (job : Job) (member : job ∈ final.jobs.rows) :
    Told job (logOf final.events.rows job.id) :=
  run_holds (fun seen => Told seen.job seen.log) fresh_told
    (fun kind before after log events => move_told kind before after log events)
    actions final ran job member

theorem log_tells_status_unstarted :
    ∃ final job, runFrom step [.deferJobs [lockedJob 0] 0, .finishJob 1 .aborted false 1] .empty =
        some final ∧ job.status = .aborted ∧ Told job (logOf final.events.rows job.id) := by
  have reads : ((runFrom step [.deferJobs [lockedJob 0] 0, .finishJob 1 .aborted false 1] .empty).any
      fun final => final.jobs.rows.any fun job => decide (job.status = .aborted)) = true := by
    decide +kernel
  obtain ⟨present, reached⟩ := (Option.any_eq_true_iff_get _ _).mp reads
  obtain ⟨job, member, aborted⟩ := List.any_eq_true.mp reached
  have ran := (Option.some_get present).symm
  exact ⟨_, job, ran, of_decide_eq_true aborted, log_tells_status _ _ ran job member⟩

end Morai.Procrastinate.EventLog
