import Morai.Procrastinate.FetchOrder

/-!
# The order of the jobs with one lock

A fetch decides by the jobs as its statement saw them, which may be long ago
once it writes. Where retries leave locks and priorities alone and nobody
retries a failed job, this never lets a job overtake one with its lock that
was deferred earlier with no lower priority.
-/

namespace Morai.Procrastinate.LockOrder

open Morai.Foundation.Runs Morai.Foundation.Serial Morai.Procrastinate.Schema
open Morai.Procrastinate.Functions Morai.Procrastinate.JobViews Morai.Procrastinate.Steps
open Morai.Procrastinate.Effects Morai.Procrastinate.FetchOrder Morai.Db Morai.Python

set_option autoImplicit false

/-! ## Numbers -/

theorem changed_drawn (allowed : Nat → MoveKind → Prop) (store next : JobStore)
    (changed : Changed allowed store next) : store.jobs.lastValue ≤ next.jobs.lastValue := by
  cases changed with
  | deferred jobs now rows defers =>
      have drawn := defers.drawn
      omega
  | updated columns now chosen set keeps tables _ =>
      rw [tables]
      exact le_rfl
  | deleted gone tables _ =>
      rw [tables]
      exact le_rfl
  | unlinked now gone tables _ =>
      rw [tables]
      apply delete_workers_keeps now gone
        (fun middle => store.jobs.lastValue ≤ middle.jobs.lastValue)
      · exact le_rfl
      · intro middle held workerId
        exact held
  | aside _ _ _ drawn => exact drawn

/-- No step gives a number back. -/
theorem step_drawn (store next : JobStore) (action : Action) (stepped : step store action = some next) :
    store.jobs.lastValue ≤ next.jobs.lastValue := by
  cases action with
  | deferPeriodicJob job now =>
      obtain ⟨made, deferred⟩ := map_snd_ok _ _ (step_call store next _ stepped)
      obtain ⟨_, _, _, _, ⟨_, known⟩ | ⟨inserted, deferredStore, row, _, new⟩⟩ :=
        defer_periodic_spec _ _ _ _ _ deferred
      · rw [known.jobs]
      · rw [new.jobs, new.defers.drawn, new.insertedJobs]
        omega
  | _ =>
      apply changed_drawn _ _ _ (step_changed store next _ stepped _)
      intro job now same
      cases same

/-! ## Steps that keep the order -/

/-- A retry that leaves the job's place in line. -/
def RetryChange.InPlace (change : RetryChange) : Prop :=
  change.newPriority = none ∧ change.newLock = none

/-- No retry moves a job within its line or puts a failed one back into it. -/
def Orderly (store : JobStore) : Action → Prop
  | .retryJobV1 _ change _ => RetryChange.InPlace change
  | .retryJobV2 retriedId change _ =>
      RetryChange.InPlace change ∧
        ∀ job ∈ store.jobs.rows, job.id = retriedId → job.status ≠ .failed
  | _ => True

instance (store : JobStore) (action : Action) : Decidable (Orderly store action) := by
  unfold Orderly RetryChange.InPlace
  cases action <;> infer_instance

/-- Neither waits nor runs. -/
def Over (job : Job) : Prop := job.status ≠ .todo ∧ job.status ≠ .doing

/-- What a step may do with a job where it keeps the order. -/
def InLine (kind : MoveKind) : Prop :=
  ∀ change from_, kind = .retry change from_ → RetryChange.InPlace change

theorem orderly_in_line (store : JobStore) (action : Action) (orderly : Orderly store action)
    (jobId : Nat) (kind : MoveKind) (may : action.allows jobId kind) : InLine kind := by
  intro change from_ same
  subst same
  cases action with
  | retryJobV1 retriedId made now => exact may.2.1 ▸ orderly
  | retryJobV2 retriedId made now => exact may.2 ▸ orderly.1
  | _ => exact may.elim

theorem moves_same_place (allowed : MoveKind → Prop) (inLine : ∀ kind, allowed kind → InLine kind)
    (before after : View) (moves : Moves allowed before after) :
    after.job.lock = before.job.lock ∧ after.job.priority = before.job.priority := by
  refine moves_keeps allowed
    (fun seen => seen.job.lock = before.job.lock ∧ seen.job.priority = before.job.priority) ?_
    before after moves ⟨rfl, rfl⟩
  intro kind old new log events move may held
  cases move with
  | retry _ change _ _ _ =>
      obtain ⟨priority, lock⟩ := inLine _ may change _ rfl
      refine ⟨?_, ?_⟩
      · simp only [RetryChange.apply, lock, Option.none_or]
        exact held.1
      · simp only [RetryChange.apply, priority, Option.getD_none]
        exact held.2
  | _ => exact held

/-- A job that is over stays so in an orderly step. -/
theorem moves_over (store : JobStore) (action : Action) (orderly : Orderly store action)
    (before after : View) (row : store.jobs.get? before.job.id = some before.job)
    (moves : Moves (action.allows before.job.id) before after) (over_ : Over before.job) :
    Over after.job := by
  by_cases broke : before.job.status = .failed
  · -- Only a retry from `failed` brings it back.
    have unretried : ∀ change, ¬action.allows before.job.id (.retry change .failed) := by
      intro change may
      cases action with
      | retryJobV1 retriedId made now => cases may.2.2
      | retryJobV2 retriedId made now =>
          obtain ⟨member, _⟩ := (store.jobs.get_eq_some_iff _ _).mp row
          exact orderly.2 before.job member may.1.symm broke
      | _ => exact may
    refine moves_keeps _ (fun seen => Over seen.job) ?_ before after moves over_
    intro kind old new log events move may held
    cases move with
    | start _ _ waits => exact absurd waits held.1
    | finish _ _ unfinished _ => exact (unfinished.elim held.1 held.2).elim
    | cancel _ waits => exact absurd waits held.1
    | cancelAbort _ waits => exact absurd waits held.1
    | requestAbort _ runs => exact absurd runs held.2
    | failAborting _ runs _ => exact absurd runs held.2
    | retry _ change _ ran _ =>
        have failed := ran.resolve_left held.2
        rw [failed] at may
        exact absurd may (unretried change)
    | unlink _ => exact held
  · refine (moves_keeps _ (fun seen => Over seen.job ∧ seen.job.status ≠ .failed) ?_ before after
      moves ⟨over_, broke⟩).1
    intro kind old new log events move may held
    cases move with
    | start _ _ waits => exact absurd waits held.1.1
    | finish _ _ unfinished _ => exact (unfinished.elim held.1.1 held.1.2).elim
    | cancel _ waits => exact absurd waits held.1.1
    | cancelAbort _ waits => exact absurd waits held.1.1
    | requestAbort _ runs => exact absurd runs held.1.2
    | failAborting _ runs _ => exact absurd runs held.1.2
    | retry _ _ _ ran _ => exact (ran.elim held.1.2 held.2).elim
    | unlink _ => exact held

/-! ## Everything ahead of a job is over -/

/-- A place in a line: the lock, and who counts as ahead. -/
structure Place where
  jobId : Nat
  lock : Option String
  priority : Int

/-- The job's own row, as long as it is there, is in its place, and whatever
is ahead of it is over. -/
structure Clear (place : Place) (store : JobStore) : Prop where
  drawn : place.jobId ≤ store.jobs.lastValue
  own : ∀ job ∈ store.jobs.rows, job.id = place.jobId →
    job.lock = place.lock ∧ job.priority = place.priority
  ahead : ∀ job ∈ store.jobs.rows, job.lock.isSome → job.lock = place.lock → job.id < place.jobId →
    place.priority ≤ job.priority → Over job

theorem step_clear (place : Place) (store : JobStore) (action : Action) (next : JobStore)
    (clear : Clear place store) (orderly : Orderly store action)
    (stepped : step store action = some next) : Clear place next := by
  -- A row of an old number was there before, in the same place.
  have earlier : ∀ job ∈ next.jobs.rows, job.id ≤ place.jobId →
      ∃ old ∈ store.jobs.rows, old.id = job.id ∧ job.lock = old.lock ∧
        job.priority = old.priority ∧ (Over old → Over job) := by
    intro job member old
    have seen : view next.toJobTables job.id = some ⟨job, logOf next.events.rows job.id⟩ :=
      (view_eq_some_iff _ _ _).mpr ⟨next.jobs.get_of_mem job member, rfl⟩
    have outcome := step_outcome store next action stepped job.id
    generalize was : view store.toJobTables job.id = before at outcome
    generalize is : view next.toJobTables job.id = after at outcome
    cases outcome with
    | absent => cases seen.symm.trans is
    | deleted _ _ _ _ => cases seen.symm.trans is
    | deferred _ _ _ new =>
        have drawn := clear.drawn
        omega
    | moved before _ moves =>
        cases Option.some.inj (seen.symm.trans is)
        obtain ⟨row, _⟩ := (view_eq_some_iff _ _ _).mp was
        obtain ⟨there, sameId⟩ := (store.jobs.get_eq_some_iff _ _).mp row
        rw [← sameId] at moves row
        obtain ⟨lock, priority⟩ := moves_same_place _ (orderly_in_line store action orderly _) _ _ moves
        exact ⟨before.job, there, sameId, lock, priority,
          moves_over store action orderly _ _ row moves⟩
  constructor
  · exact clear.drawn.trans (step_drawn store next action stepped)
  · intro job member same
    obtain ⟨old, there, sameId, lock, priority, _⟩ := earlier job member same.le
    rw [lock, priority]
    exact clear.own old there (sameId.trans same)
  · intro job member locked lock less priority
    obtain ⟨old, there, sameId, sameLock, samePriority, stays⟩ := earlier job member less.le
    exact stays (clear.ahead old there (sameLock ▸ locked) (sameLock.symm.trans lock) (by omega)
      (by omega))

/-- What a candidate of some state is ahead of, for all that happens since. -/
theorem candidate_clear (targetQueueNames : Option (List String)) (now : Instant) (store : JobStore)
    (job : Job) (candidate : job ∈ candidates store.jobs.rows targetQueueNames now) :
    Clear ⟨job.id, job.lock, job.priority⟩ store := by
  obtain ⟨member, unblocked, _⟩ := (mem_candidates _ _ _ _).mp candidate
  constructor
  · exact store.jobs.drawn job member
  · intro other otherMember same
    rw [store.jobs.eq_of_id other job otherMember member same]
    exact ⟨rfl, rfl⟩
  · intro other otherMember locked sameLock less notLower
    obtain ⟨lock, otherLock⟩ := Option.isSome_iff_exists.mp locked
    have jobLock : job.lock = some lock := sameLock.symm.trans otherLock
    have free : ¬blocked store.jobs.rows job = true := by
      rw [unblocked]
      exact Bool.false_ne_true
    rw [blocked_iff] at free
    refine ⟨fun waits => free ?_, fun runs => free ?_⟩
    · have before : Before other job := by
        cases notLower.lt_or_eq with
        | inl higher => exact Or.inl higher
        | inr equal => exact Or.inr ⟨equal.symm, less⟩
      exact ⟨lock, jobLock, other, otherMember, otherLock, Or.inr ⟨waits, before⟩⟩
    · exact ⟨lock, jobLock, other, otherMember, otherLock, Or.inl runs⟩

/-- A lock's jobs start in their order, where deferrals do not overlap. A fetch
may decide by a state from before any number of other transactions and skip any
rows: once it has taken a job, no job with its lock that was deferred earlier
with no lower priority waits or runs, then or ever after. -/
theorem lock_starts_in_order (seen store after final : JobStore) (between later : List Action)
    (orderly : Meets step Orderly between seen) (ran : runFrom step between seen = some store)
    (locked : List Nat) (targetQueueNames : Option (List String)) (workerId : Option Nat)
    (now : Instant) (job : Job)
    (fetched : fetchJobV2Among seen.jobs.rows locked targetQueueNames workerId now store =
      .ok (some job, after))
    (stillOrderly : Meets step Orderly later after) (ranLater : runFrom step later after = some final)
    (lock : String) (held : job.lock = some lock) :
    ∀ earlier ∈ final.jobs.rows, earlier.lock = some lock → earlier.id < job.id →
      job.priority ≤ earlier.priority → earlier.status ≠ .todo ∧ earlier.status ≠ .doing := by
  have stepped : step store (.fetchJob seen.jobs.rows locked targetQueueNames workerId now) =
      some after := by
    simp only [step, call, fetched]
    rfl
  rcases fetch_job_spec _ _ _ _ _ _ _ _ fetched with ⟨_, none_, _⟩ | ⟨candidate, picked, found, _⟩
  · cases none_
  cases found
  obtain ⟨row, _, _, old, isCandidate, sameId⟩ := lock_candidate_spec _ _ _ _ _ _ picked
  have first := candidate_clear targetQueueNames now seen old isCandidate
  have beforeFetch := run_keeps step Orderly (Clear ⟨old.id, old.lock, old.priority⟩)
    (fun store action next => step_clear _ store action next) between seen store first orderly ran
  have fetchOrderly : Orderly store
      (.fetchJob seen.jobs.rows locked targetQueueNames workerId now) := trivial
  have afterFetch := step_clear _ store _ after beforeFetch fetchOrderly stepped
  have atLast := run_keeps step Orderly (Clear ⟨old.id, old.lock, old.priority⟩)
    (fun store action next => step_clear _ store action next) later after final afterFetch stillOrderly
    ranLater
  -- The snapshot's row had the lock and the priority it has now.
  obtain ⟨member, _⟩ := (store.jobs.get_eq_some_iff _ _).mp row
  obtain ⟨sameLock, samePriority⟩ := beforeFetch.own candidate member sameId.symm
  intro earlier earlierMember earlierLock less notLower
  have aheadOfIt := atLast.ahead earlier earlierMember (by rw [earlierLock]; rfl)
  refine aheadOfIt (earlierLock.trans (held.symm.trans sameLock)) ?_ ?_
  · rw [sameId]
    exact less
  · rw [← samePriority]
    exact notLower

theorem lock_starts_in_order_second :
    ∃ (seen store after : JobStore) (job : Job), runFrom step firstServed .empty = some seen ∧
      runFrom step [.updateHeartbeat 1 3] seen = some store ∧
      fetchJobV2Among seen.jobs.rows [] none (some 1) 4 store = .ok (some job, after) ∧
      ∀ earlier ∈ after.jobs.rows, earlier.lock = some "user 1" → earlier.id < job.id →
        job.priority ≤ earlier.priority → earlier.status ≠ .todo ∧ earlier.status ≠ .doing := by
  have reads : ((runFrom step firstServed .empty).any fun seen =>
      (runFrom step [.updateHeartbeat 1 3] seen).any fun store =>
        (fetchJobV2Among seen.jobs.rows [] none (some 1) 4 store).toOption.any fun fetched =>
          fetched.1.any fun job => decide (job.lock = some "user 1")) = true := by
    decide +kernel
  obtain ⟨present, later⟩ := (Option.any_eq_true_iff_get _ _).mp reads
  obtain ⟨beaten, answers⟩ := (Option.any_eq_true_iff_get _ _).mp later
  obtain ⟨answered, found⟩ := (Option.any_eq_true_iff_get _ _).mp answers
  obtain ⟨some_, locked⟩ := (Option.any_eq_true_iff_get _ _).mp found
  have fetched := ok_of_to_option _ _ (Option.some_get answered).symm
  rw [← Prod.mk.eta (p := Option.get _ answered), ← Option.some_get some_] at fetched
  have ran := (Option.some_get beaten).symm
  have orderly : Meets step Orderly [.updateHeartbeat 1 3] (Option.get _ present) :=
    ⟨trivial, fun _ _ => trivial⟩
  exact ⟨_, _, _, _, (Option.some_get present).symm, ran, fetched,
    lock_starts_in_order _ _ _ _ _ [] orderly ran [] none (some 1) 4 _ fetched trivial rfl "user 1"
      (of_decide_eq_true locked)⟩

end Morai.Procrastinate.LockOrder
