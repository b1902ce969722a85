import Morai.Foundation.Runs
import Morai.Procrastinate.JobViews

/-!
# Runs of the job queue

A run is a sequence of committed transactions, each one call of a function.
A fetch may overlap others: it sees any earlier state of the jobs and skips
any rows. Deferrals do not overlap one another, so jobs are committed in the
order of their ids. A call that raises is not a step; what it drew from the sequences is
the `rolledBack` action.
-/

namespace Morai.Procrastinate.Steps

open Morai.Foundation.Serial Morai.Foundation.Runs Morai.Procrastinate.Schema
open Morai.Procrastinate.Functions Morai.Procrastinate.JobViews Morai.Python

set_option autoImplicit false

inductive Action where
  | deferJobs (jobs : List JobToDefer) (now : Instant)
  | deferPeriodicJob (job : PeriodicJob) (now : Instant)
  | fetchJob (snapshot : List Job) (locked : List Nat) (targetQueueNames : Option (List String))
      (workerId : Option Nat) (now : Instant)
  | finishJob (jobId : Nat) (endStatus : JobStatus) (deleteJob : Bool) (now : Instant)
  | cancelJob (jobId : Nat) (abort deleteJob : Bool) (now : Instant)
  | retryJobV1 (jobId : Nat) (change : RetryChange) (now : Instant)
  | retryJobV2 (jobId : Nat) (change : RetryChange) (now : Instant)
  | registerWorker (now : Instant)
  | unregisterWorker (workerId : Nat) (now : Instant)
  | updateHeartbeat (workerId : Nat) (now : Instant)
  | pruneStalledWorkers (sinceHeartbeat : Int) (now : Instant)
  | rolledBack (jobs periodicDefers events workers : Nat)

def call (store : JobStore) : Action → Except SqlError JobStore
  | .deferJobs jobs now => (deferJobsV1 jobs now store).map Prod.snd
  | .deferPeriodicJob job now => (deferPeriodicJobV2 job now store).map Prod.snd
  | .fetchJob snapshot locked targetQueueNames workerId now =>
      (fetchJobV2Among snapshot locked targetQueueNames workerId now store).map Prod.snd
  | .finishJob jobId endStatus deleteJob now => finishJobV1 jobId endStatus deleteJob now store
  | .cancelJob jobId abort deleteJob now =>
      (cancelJobV1 jobId abort deleteJob now store).map Prod.snd
  | .retryJobV1 jobId change now => Functions.retryJobV1 jobId change now store
  | .retryJobV2 jobId change now => Functions.retryJobV2 jobId change now store
  | .registerWorker now => (registerWorkerV1 now store).map Prod.snd
  | .unregisterWorker workerId now => unregisterWorkerV1 workerId now store
  | .updateHeartbeat workerId now => updateHeartbeatV1 workerId now store
  | .pruneStalledWorkers sinceHeartbeat now =>
      (pruneStalledWorkersV1 sinceHeartbeat now store).map Prod.snd
  | .rolledBack jobs periodicDefers events workers =>
      accept
        { workers := store.workers.draw workers
          jobs := store.jobs.draw jobs
          periodicDefers := store.periodicDefers.draw periodicDefers
          events := store.events.draw events }

def step (store : JobStore) (action : Action) : Option JobStore := (call store action).toOption

theorem ok_of_to_option {Value : Type} (result : Except SqlError Value) (value : Value)
    (found : result.toOption = some value) : result = .ok value := by
  cases result with
  | error raised => cases found
  | ok made =>
      cases found
      rfl

theorem step_call (store next : JobStore) (action : Action) (stepped : step store action = some next) :
    call store action = .ok next :=
  ok_of_to_option _ _ stepped

/-! ## How a job moves -/

inductive MoveKind where
  | start
  | finish
  | cancel
  | requestAbort
  | failAborting
  | retry (change : RetryChange) (from_ : JobStatus)
  | unlink
  | delete (from_ : JobStatus)

/-- From one version of a job to the next, with what the triggers log. -/
inductive Move : MoveKind → Job → Job → List JobEventType → Prop where
  | start (job : Job) (workerId : Option Nat) (waits : job.status = .todo) :
      Move .start job { job with status := .doing, workerId := workerId } [.started]
  | finish (job : Job) (endStatus : JobStatus) (unfinished : job.status = .todo ∨ job.status = .doing)
      (ends : endStatus ∈ [JobStatus.succeeded, .failed, .aborted]) :
      Move .finish job
        { job with
          status := endStatus
          abortRequested := false
          attempts := if job.status = .doing then job.attempts + 1 else job.attempts }
        (statusEvent job.status endStatus).toList
  | cancel (job : Job) (waits : job.status = .todo) :
      Move .cancel job { job with status := .cancelled } [.cancelled]
  | cancelAbort (job : Job) (waits : job.status = .todo) :
      Move .cancel job { job with abortRequested := true, status := .cancelled }
        [.abortRequested, .cancelled]
  | requestAbort (job : Job) (runs : job.status = .doing) :
      Move .requestAbort job { job with abortRequested := true } [.abortRequested]
  | failAborting (job : Job) (runs : job.status = .doing) (aborting : job.abortRequested = true) :
      Move .failAborting job { job with status := .failed } [.failed]
  | retry (job : Job) (change : RetryChange) (queueName : Option String)
      (ran : job.status = .doing ∨ job.status = .failed) (calm : job.abortRequested = false) :
      Move (.retry change job.status) job (change.apply queueName job)
        ((if change.retryAt.isSome then [.scheduled] else []) ++ (statusEvent job.status .todo).toList)
  | unlink (job : Job) :
      Move .unlink job { job with workerId := none } ((scheduledEvents job).map Prod.fst)

/-- What a job just deferred looks like. -/
structure Fresh (job : Job) : Prop where
  status : job.status = .todo
  attempts : job.attempts = 0
  abortRequested : job.abortRequested = false
  workerId : job.workerId = none

/-- The moves an action can make a job take. -/
def Action.allows (jobId : Nat) : Action → MoveKind → Prop
  | .fetchJob _ _ _ _ _, .start => True
  | .finishJob finished _ _ _, .finish => finished = jobId
  | .finishJob finished _ _ _, .delete _ => finished = jobId
  | .cancelJob cancelled _ _ _, .cancel => cancelled = jobId
  | .cancelJob cancelled _ _ _, .requestAbort => cancelled = jobId
  | .cancelJob cancelled _ _ _, .delete from_ => cancelled = jobId ∧ from_ = .todo
  | .retryJobV1 retried _ _, .failAborting => retried = jobId
  | .retryJobV1 retried change _, .retry made from_ => retried = jobId ∧ made = change ∧ from_ = .doing
  | .retryJobV2 retried _ _, .failAborting => retried = jobId
  | .retryJobV2 retried change _, .retry made _ => retried = jobId ∧ made = change
  | .unregisterWorker _ _, .unlink => True
  | .pruneStalledWorkers _ _, .unlink => True
  | _, _ => False

inductive MoveStep (allowed : MoveKind → Prop) : View → View → Prop where
  | of (kind : MoveKind) (before after : Job) (log events : List JobEventType)
      (move : Move kind before after events) (may : allowed kind) :
      MoveStep allowed ⟨before, log⟩ ⟨after, log ++ events⟩

def Moves (allowed : MoveKind → Prop) : View → View → Prop :=
  Relation.ReflTransGen (MoveStep allowed)

/-- What one transaction makes of a job; `undrawn` is that its number was not
drawn before. -/
inductive Outcome (allowed : MoveKind → Prop) (undrawn : Prop) :
    Option View → Option View → Prop where
  | absent : Outcome allowed undrawn none none
  | moved (before after : View) (moves : Moves allowed before after) :
      Outcome allowed undrawn (some before) (some after)
  | deferred (job : Job) (now : Instant) (fresh : Fresh job) (new : undrawn) :
      Outcome allowed undrawn none (some ⟨job, (insertEvents now job).map Prod.fst⟩)
  | deleted (job : Job) (log : List JobEventType)
      (unfinished : job.status = .todo ∨ job.status = .doing) (may : allowed (.delete job.status)) :
      Outcome allowed undrawn (some ⟨job, log⟩) none

/-- What a run makes of it. -/
def Leads (allowed : MoveKind → Prop) : Option View → Option View → Prop :=
  Relation.ReflTransGen (Outcome allowed True)

theorem outcome_same (allowed : MoveKind → Prop) (undrawn : Prop) (seen : Option View) :
    Outcome allowed undrawn seen seen := by
  cases seen with
  | none => exact Outcome.absent
  | some seen => exact Outcome.moved seen seen Relation.ReflTransGen.refl

theorem moves_mono (allowed wider : MoveKind → Prop) (within : ∀ kind, allowed kind → wider kind)
    (before after : View) (moves : Moves allowed before after) : Moves wider before after := by
  refine Relation.ReflTransGen.mono ?_ before after moves
  intro first second step
  cases step with
  | of kind old new log events move may =>
      exact MoveStep.of kind old new log events move (within kind may)

theorem outcome_mono (allowed wider : MoveKind → Prop) (within : ∀ kind, allowed kind → wider kind)
    (undrawn : Prop) (before after : Option View) (outcome : Outcome allowed undrawn before after) :
    Outcome wider True before after := by
  cases outcome with
  | absent => exact Outcome.absent
  | moved old new moves => exact Outcome.moved old new (moves_mono allowed wider within old new moves)
  | deferred job now fresh _ => exact Outcome.deferred job now fresh trivial
  | deleted job log unfinished may => exact Outcome.deleted job log unfinished (within _ may)

theorem moves_keeps (allowed : MoveKind → Prop) (invariant : View → Prop)
    (keeps : ∀ kind before after log events, Move kind before after events → allowed kind →
      invariant ⟨before, log⟩ → invariant ⟨after, log ++ events⟩)
    (before after : View) (moves : Moves allowed before after) (initial : invariant before) :
    invariant after := by
  induction moves with
  | refl => exact initial
  | tail _ last ih =>
      cases last with
      | of kind old new log events move may => exact keeps kind old new log events move may ih

/-- What every move keeps of a job that is there, and every fresh job has. -/
theorem leads_keeps (allowed : MoveKind → Prop) (invariant : View → Prop)
    (fresh : ∀ job now, Fresh job → invariant ⟨job, (insertEvents now job).map Prod.fst⟩)
    (keeps : ∀ kind before after log events, Move kind before after events → allowed kind →
      invariant ⟨before, log⟩ → invariant ⟨after, log ++ events⟩)
    (before after : Option View) (leads : Leads allowed before after)
    (initial : ∀ seen ∈ before, invariant seen) : ∀ seen ∈ after, invariant seen := by
  induction leads with
  | refl => exact initial
  | tail _ last ih =>
      intro seen found
      cases last with
      | absent => cases found
      | moved old new moves =>
          cases found
          exact moves_keeps allowed invariant keeps old seen moves (ih old rfl)
      | deferred job now isFresh _ =>
          cases found
          exact fresh job now isFresh
      | deleted job log unfinished may => cases found

/-- A job that no allowed move deletes stays, with what its moves keep. -/
theorem leads_stays (allowed : MoveKind → Prop) (invariant : View → Prop)
    (undeleted : ∀ seen, invariant seen → seen.job.status = .todo ∨ seen.job.status = .doing →
      ¬allowed (.delete seen.job.status))
    (keeps : ∀ kind before after log events, Move kind before after events → allowed kind →
      invariant ⟨before, log⟩ → invariant ⟨after, log ++ events⟩)
    (seen : View) (after : Option View) (leads : Leads allowed (some seen) after)
    (initial : invariant seen) : ∃ later, after = some later ∧ invariant later := by
  induction leads with
  | refl => exact ⟨seen, rfl, initial⟩
  | tail _ last ih =>
      obtain ⟨middle, rfl, held⟩ := ih
      cases last with
      | moved old new moves => exact ⟨_, rfl, moves_keeps allowed invariant keeps _ _ moves held⟩
      | deleted job log unfinished may => exact absurd may (undeleted _ held unfinished)

theorem view_same (tables after : JobTables) (jobId : Nat)
    (jobs : after.jobs.rows = tables.jobs.rows) (events : after.events.rows = tables.events.rows) :
    view after jobId = view tables jobId := by
  simp only [view, SerialTable.get?, jobs, events]

theorem moves_outcome (allowed : MoveKind → Prop) (undrawn : Prop) (before after : Option View)
    (moved : Option.Rel (Moves allowed) before after) : Outcome allowed undrawn before after := by
  cases moved with
  | none => exact Outcome.absent
  | some moves => exact Outcome.moved _ _ moves

theorem moves_refl (allowed : MoveKind → Prop) (seen : Option View) :
    Option.Rel (Moves allowed) seen seen := by
  cases seen with
  | none => exact Option.Rel.none
  | some seen => exact Option.Rel.some Relation.ReflTransGen.refl

theorem moves_trans (allowed : MoveKind → Prop) (before middle after : Option View)
    (first : Option.Rel (Moves allowed) before middle)
    (second : Option.Rel (Moves allowed) middle after) :
    Option.Rel (Moves allowed) before after := by
  cases first with
  | none => exact second
  | some moves =>
      cases second with
      | some later => exact Option.Rel.some (moves.trans later)

/-- A statement that moves the rows it chooses. -/
theorem update_moves (allowed : MoveKind → Prop) (columns : SetColumns) (now : Instant)
    (chosen : Job → Bool) (set : Job → Job) (keeps : ∀ job, (set job).id = job.id)
    (tables : JobTables) (jobId : Nat)
    (moves : ∀ job ∈ tables.jobs.rows, chosen job = true → job.id = jobId → ∃ kind, allowed kind ∧
      Move kind job (set job) ((updateEvents columns now job (set job)).map Prod.fst)) :
    Option.Rel (Moves allowed) (view tables jobId)
      (view (updateJobs columns now chosen set keeps tables) jobId) := by
  rw [update_jobs_view]
  cases found : view tables jobId with
  | none => exact Option.Rel.none
  | some seen =>
      obtain ⟨row, _⟩ := (view_eq_some_iff tables jobId seen).mp found
      obtain ⟨member, same⟩ := (tables.jobs.get_eq_some_iff jobId seen.job).mp row
      rw [Option.map_some]
      split_ifs with picked
      · obtain ⟨kind, may, move⟩ := moves seen.job member picked same
        exact Option.Rel.some
          (Relation.ReflTransGen.single (MoveStep.of kind _ _ seen.log _ move may))
      · exact moves_refl allowed (some seen)

theorem delete_outcome (allowed : MoveKind → Prop) (undrawn : Prop) (gone : Job → Bool)
    (tables : JobTables) (jobId : Nat)
    (unfinished : ∀ job, gone job = true → job.id = jobId →
      (job.status = .todo ∨ job.status = .doing) ∧ allowed (.delete job.status)) :
    Outcome allowed undrawn (view tables jobId) (view (deleteJobs gone tables) jobId) := by
  rw [delete_jobs_view]
  cases found : view tables jobId with
  | none => exact Outcome.absent
  | some seen =>
      by_cases picked : gone seen.job = true
      · obtain ⟨row, _⟩ := (view_eq_some_iff tables jobId seen).mp found
        have same := ((tables.jobs.get_eq_some_iff jobId seen.job).mp row).2
        obtain ⟨still, may⟩ := unfinished seen.job picked same
        rw [Option.filter_some_neg (by simpa using picked)]
        exact Outcome.deleted _ _ still may
      · rw [Option.filter_some_pos (by simpa using picked)]
        exact outcome_same allowed undrawn _

/-! ## Short runs -/

/-- One user's jobs have one lock. -/
def lockedJob (priority : Int) : JobToDefer :=
  ⟨"default", "sync_user", priority, some "user 1", none, .object [], none⟩

/-- The row of `lockedJob` while it waits. -/
def lockedRow (id : Nat) (priority : Int) : Job :=
  ⟨id, "default", "sync_user", priority, some "user 1", none, .object [], .todo, none, 0, false, none⟩

def fetchRow (job : Job) (now : Instant) : Action := .fetchJob [job] [] none (some 1) now

/-- Two jobs with one lock, of which the first runs. -/
def firstFetched : List Action :=
  [.registerWorker 0, .deferJobs [lockedJob 0, lockedJob 0] 0, fetchRow (lockedRow 1 0) 1]

/-- The same with the first one done. -/
def firstServed : List Action := firstFetched ++ [.finishJob 1 .succeeded false 2]

/-- A worker's offer of one tick of the periodic sync. -/
def offerTick (deferTimestamp : Int) : Action :=
  .deferPeriodicJob
    ⟨"default", none, none, "sync_all_connected_users", 0, "", deferTimestamp,
      .object [("timestamp", .int deferTimestamp)]⟩
    deferTimestamp

end Morai.Procrastinate.Steps
