import Morai.Procrastinate.Effects

/-!
# What the web process can do to the queue

The web process calls the queue as `morai_app`, the worker as the owner of its
tables. A statement asks for its privileges before it looks at any row, so a
call that lacks one raises whatever there is. Under the grants the app role
can defer jobs and nothing else: jobs that are there already are out of its
reach.
-/

namespace Morai.Procrastinate.AppRole

open Morai.Foundation.Runs Morai.Foundation.Serial Morai.Procrastinate.Schema
open Morai.Procrastinate.Functions Morai.Procrastinate.JobViews Morai.Procrastinate.Steps
open Morai.Procrastinate.Effects Morai.Python

set_option autoImplicit false

inductive Role where
  | moraiApp
  | owner
  deriving DecidableEq, Repr

/-- The tables of the queue and the sequences of their keys. -/
inductive Relation where
  | jobs
  | jobsIdSeq
  | events
  | eventsIdSeq
  | periodicDefers
  | workers
  deriving DecidableEq, Repr

inductive Privilege where
  | select
  | insert
  | update
  | delete
  | usage
  deriving DecidableEq, Repr

/-- The grants of the migrations to `morai_app`. -/
def granted : Relation → List Privilege
  | .jobs => [.insert, .select]
  | .jobsIdSeq => [.usage, .select]
  | .events => [.insert]
  | .eventsIdSeq => [.usage, .select]
  | .periodicDefers => []
  | .workers => []

/-- What the first statement a call comes to asks for, with its triggers. A
`WHERE` or a `RETURNING` reads, `FOR UPDATE` asks for `UPDATE`. -/
def needs : Action → List (Relation × Privilege)
  | .deferJobs jobs _ =>
      [(.jobs, .insert), (.jobs, .select)] ++
        if jobs = [] then []
        else [(.jobsIdSeq, .usage), (.events, .insert), (.eventsIdSeq, .usage)]
  | .deferPeriodicJob _ _ => [(.periodicDefers, .insert), (.periodicDefers, .select)]
  | .fetchJob _ _ _ _ _ => [(.jobs, .select), (.jobs, .update)]
  | .finishJob _ endStatus deleteJob _ =>
      if endStatus ∉ [JobStatus.succeeded, .failed, .aborted] then []
      else [(.jobs, .select), (.jobs, if deleteJob then .delete else .update)]
  | .cancelJob _ _ deleteJob _ =>
      [(.jobs, .select), (.jobs, if deleteJob then .delete else .update)]
  | .retryJobV1 _ _ _ => [(.jobs, .select), (.jobs, .update)]
  | .retryJobV2 _ _ _ => [(.jobs, .select), (.jobs, .update)]
  | .registerWorker _ => [(.workers, .insert), (.workers, .select)]
  | .unregisterWorker _ _ => [(.workers, .select), (.workers, .delete)]
  | .updateHeartbeat _ _ => [(.workers, .select), (.workers, .update)]
  | .pruneStalledWorkers _ _ => [(.workers, .select), (.workers, .delete)]
  | .rolledBack _ _ _ _ => []

def Permitted (role : Role) (action : Action) : Prop :=
  role = .owner ∨ ∀ need ∈ needs action, need.2 ∈ granted need.1

instance (role : Role) (action : Action) : Decidable (Permitted role action) :=
  inferInstanceAs (Decidable (_ ∨ _))

structure Call where
  role : Role
  action : Action

/-- A call that lacks a privilege raises, and is not a step. -/
def stepAs (store : JobStore) (call : Call) : Option JobStore :=
  if Permitted call.role call.action then step store call.action else none

/-! ## What the app role can call -/

def Action.defers : Action → Prop
  | .deferJobs _ _ => True
  | .rolledBack _ _ _ _ => True
  | _ => False

/-- The grants are enough to defer. -/
theorem deferral_permitted (jobs : List JobToDefer) (now : Instant) (store : JobStore) :
    stepAs store ⟨.moraiApp, .deferJobs jobs now⟩ = step store (.deferJobs jobs now) := by
  refine if_pos (Or.inr ?_)
  by_cases none_ : jobs = []
  · simp [needs, none_, granted]
  · simp [needs, none_, granted]

theorem app_role_step (store next : JobStore) (action : Action)
    (stepped : stepAs store ⟨.moraiApp, action⟩ = some next) : Action.defers action := by
  unfold stepAs at stepped
  split_ifs at stepped with permitted
  obtain owner | allowed := permitted
  · cases owner
  cases action with
  | deferJobs jobs now => trivial
  | rolledBack jobs periodicDefers events workers => trivial
  | finishJob jobId endStatus deleteJob now =>
      by_cases ends : endStatus ∈ [JobStatus.succeeded, .failed, .aborted]
      · have denied := allowed (.jobs, if deleteJob then .delete else .update) (by simp [needs, ends])
        cases deleteJob <;> simp [granted] at denied
      · have raised := step_call store next _ stepped
        simp only [call, finishJobV1, if_pos ends] at raised
        cases raised
  | cancelJob jobId abort deleteJob now =>
      have denied := allowed (.jobs, if deleteJob then .delete else .update) (by simp [needs])
      cases deleteJob <;> simp [granted] at denied
  | deferPeriodicJob job now => simp [needs, granted] at allowed
  | fetchJob snapshot locked targetQueueNames workerId now => simp [needs, granted] at allowed
  | retryJobV1 jobId change now => simp [needs, granted] at allowed
  | retryJobV2 jobId change now => simp [needs, granted] at allowed
  | registerWorker now => simp [needs, granted] at allowed
  | unregisterWorker workerId now => simp [needs, granted] at allowed
  | updateHeartbeat workerId now => simp [needs, granted] at allowed
  | pruneStalledWorkers sinceHeartbeat now => simp [needs, granted] at allowed

theorem deferral_moves_nothing (action : Action) (defers : Action.defers action) (jobId : Nat)
    (kind : MoveKind) : ¬action.allows jobId kind := by
  cases action with
  | deferJobs jobs now => exact id
  | rolledBack jobs periodicDefers events workers => exact id
  | _ => exact defers.elim

/-! ## Runs -/

theorem run_of_calls (calls : List Call) (store final : JobStore)
    (ran : runFrom stepAs calls store = some final) :
    runFrom step (calls.map Call.action) store = some final ∧
      ∀ call ∈ calls, call.role = .moraiApp → Action.defers call.action := by
  induction calls generalizing store with
  | nil => exact ⟨ran, by simp⟩
  | cons call rest ih =>
      obtain ⟨next, stepped, later⟩ := run_from_cons stepAs call rest store final ran
      obtain ⟨restRan, restDefers⟩ := ih next later
      have made : step store call.action = some next := by
        unfold stepAs at stepped
        split_ifs at stepped
        exact stepped
      refine ⟨?_, List.forall_mem_cons.mpr ⟨?_, restDefers⟩⟩
      · rw [List.map_cons, runFrom, made]
        exact restRan
      · intro app
        have shape : call = ⟨.moraiApp, call.action⟩ := by rw [← app]
        rw [shape] at stepped
        exact app_role_step store next call.action stepped

/-- The moves that the owner's calls of a run can make a job take. -/
def OwnerMay (calls : List Call) (jobId : Nat) (kind : MoveKind) : Prop :=
  ∃ call ∈ calls, call.role = .owner ∧ call.action.allows jobId kind

/-- Nothing allowed, nothing changed. -/
theorem leads_nowhere (allowed : MoveKind → Prop) (seen : View) (after : Option View)
    (leads : Leads allowed (some seen) after) (nothing : ∀ kind, ¬allowed kind) :
    after = some seen := by
  obtain ⟨later, found, same⟩ := leads_stays allowed (fun view => view = seen)
    (fun _ _ _ may => nothing _ may) (fun kind _ _ _ _ _ may => absurd may (nothing kind)) seen after
    leads rfl
  rw [found, same]

/-- However calls of the web process and of the worker interleave: the web
process defers as the worker would and gets nothing else through, a job that
was there moves by calls of the worker alone, and without one its row and its
log stay as they were. -/
theorem app_role_only_defers (calls : List Call) (store final : JobStore)
    (ran : runFrom stepAs calls store = some final) :
    (∀ call ∈ calls, call.role = .moraiApp → Action.defers call.action) ∧
      (∀ jobs now, stepAs final ⟨.moraiApp, .deferJobs jobs now⟩ =
        step final (.deferJobs jobs now)) ∧
      ∀ job ∈ store.jobs.rows,
        Leads (OwnerMay calls job.id) (some ⟨job, logOf store.events.rows job.id⟩)
            (view final.toJobTables job.id) ∧
          ((∀ kind, ¬OwnerMay calls job.id kind) →
            job ∈ final.jobs.rows ∧
              logOf final.events.rows job.id = logOf store.events.rows job.id) := by
  obtain ⟨plain, defers⟩ := run_of_calls calls store final ran
  refine ⟨defers, fun jobs now => deferral_permitted jobs now final, fun job member => ?_⟩
  have within : ∀ action ∈ calls.map Call.action, ∀ kind, action.allows job.id kind →
      OwnerMay calls job.id kind := by
    intro action listed kind may
    obtain ⟨call, made, same⟩ := List.mem_map.mp listed
    subst same
    cases role : call.role with
    | owner => exact ⟨call, made, role, may⟩
    | moraiApp => exact absurd may (deferral_moves_nothing _ (defers call made role) _ _)
  have seen : view store.toJobTables job.id = some ⟨job, logOf store.events.rows job.id⟩ :=
    (view_eq_some_iff _ _ _).mpr ⟨store.jobs.get_of_mem job member, rfl⟩
  have leads := run_leads (OwnerMay calls job.id) job.id (calls.map Call.action) store final within plain
  rw [seen] at leads
  refine ⟨leads, fun nothing => ?_⟩
  obtain ⟨row, logged⟩ :=
    (view_eq_some_iff _ _ _).mp (leads_nowhere _ _ _ leads nothing)
  exact ⟨((final.jobs.get_eq_some_iff _ _).mp row).1, logged.symm⟩

/-- The worker's first job runs while the web process defers another one. -/
def deferredBeside : List Call :=
  [⟨.moraiApp, .deferJobs [lockedJob 0] 5⟩, ⟨.owner, .updateHeartbeat 1 6⟩]

theorem app_role_only_defers_beside :
    ∃ (store final : JobStore) (job : Job), runFrom step firstFetched .empty = some store ∧
      runFrom stepAs deferredBeside store = some final ∧ job.status = .doing ∧
      job ∈ final.jobs.rows ∧ logOf final.events.rows job.id = logOf store.events.rows job.id ∧
      stepAs store ⟨.moraiApp, .finishJob 1 .succeeded false 7⟩ = none := by
  have reads : ((runFrom step firstFetched .empty).any fun store =>
      (runFrom stepAs deferredBeside store).isSome &&
        store.jobs.rows.any fun job => decide (job.status = .doing)) = true := by decide +kernel
  obtain ⟨present, fetched⟩ := (Option.any_eq_true_iff_get _ _).mp reads
  obtain ⟨later, found⟩ := Bool.and_eq_true_iff.mp fetched
  obtain ⟨final, ran⟩ := Option.isSome_iff_exists.mp later
  obtain ⟨job, member, runs⟩ := List.any_eq_true.mp found
  have nothing : ∀ kind, ¬OwnerMay deferredBeside job.id kind := by
    rintro kind ⟨call, made, owner, may⟩
    simp only [deferredBeside, List.mem_cons, List.not_mem_nil, or_false] at made
    cases made with
    | inl first =>
        rw [first] at owner
        cases owner
    | inr second =>
        rw [second] at may
        exact may
  obtain ⟨_, _, kept⟩ := app_role_only_defers deferredBeside _ final ran
  obtain ⟨row, logged⟩ := (kept job member).2 nothing
  refine ⟨_, final, job, (Option.some_get present).symm, ran, of_decide_eq_true runs, row, logged, ?_⟩
  exact if_neg (by decide)

end Morai.Procrastinate.AppRole
