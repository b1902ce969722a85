import Morai.Foundation.NewestTicks
import Morai.Procrastinate.Effects

/-!
# The ticks of a periodic task

Every worker offers every tick to `procrastinate_defer_periodic_job_v2`, and
the one that inserts the row defers the job. The table forgets the older ticks
of the task then, so what it holds is a register of the newest ones.
-/

namespace Morai.Procrastinate.PeriodicTicks

open Morai.Foundation.NewestTicks Morai.Foundation.Runs Morai.Foundation.Serial
open Morai.Procrastinate.Schema Morai.Procrastinate.Functions Morai.Procrastinate.Steps
open Morai.Procrastinate.Effects Morai.Db Morai.Python

set_option autoImplicit false

/-- A row's timestamp, where it is one of the task's. -/
def tickOf (taskName periodicId : String) (tick : PeriodicDefer) : Option Int :=
  if tick.taskName = taskName ∧ tick.periodicId = periodicId then some tick.deferTimestamp else none

def knownTicks (taskName periodicId : String) (tables : JobTables) : List Int :=
  tables.periodicDefers.rows.filterMap (tickOf taskName periodicId)

/-- The tick an action offers for the task. -/
def offeredTick (taskName periodicId : String) : Action → Option Int
  | .deferPeriodicJob job _ =>
      if job.taskName = taskName ∧ job.periodicId = periodicId then some job.deferTimestamp else none
  | _ => none

/-- The same, where the function answers with a job. -/
def deferredTick (taskName periodicId : String) (store : JobStore) : Action → Option Int
  | .deferPeriodicJob job now =>
      match deferPeriodicJobV2 job now store with
      | .ok (some _, _) => offeredTick taskName periodicId (.deferPeriodicJob job now)
      | _ => none
  | _ => none

/-- The ticks of the task that a run defers a job for. -/
def deferredTicks (taskName periodicId : String) : List Action → JobStore → List Int
  | [], _ => []
  | action :: rest, store =>
      match step store action with
      | none => []
      | some next =>
          (deferredTick taskName periodicId store action).toList ++
            deferredTicks taskName periodicId rest next

/-- The names of a periodic task are stored as they are. -/
def Action.Fits : Action → Prop
  | .deferPeriodicJob job _ => job.taskName.length ≤ 128 ∧ job.periodicId.length ≤ 128
  | _ => True

instance : DecidablePred Action.Fits
  | .deferPeriodicJob job _ =>
      inferInstanceAs (Decidable (job.taskName.length ≤ 128 ∧ job.periodicId.length ≤ 128))
  | .deferJobs _ _ => isTrue trivial
  | .fetchJob _ _ _ _ _ => isTrue trivial
  | .finishJob _ _ _ _ => isTrue trivial
  | .cancelJob _ _ _ _ => isTrue trivial
  | .retryJobV1 _ _ _ => isTrue trivial
  | .retryJobV2 _ _ _ => isTrue trivial
  | .registerWorker _ => isTrue trivial
  | .unregisterWorker _ _ => isTrue trivial
  | .updateHeartbeat _ _ => isTrue trivial
  | .pruneStalledWorkers _ _ => isTrue trivial
  | .rolledBack _ _ _ _ => isTrue trivial

/-! ## One step -/

section

variable (taskName periodicId : String)

theorem delete_jobs_ticks (gone : Job → Bool) (tables : JobTables) :
    knownTicks taskName periodicId (deleteJobs gone tables) =
      knownTicks taskName periodicId tables := by
  simp only [knownTicks, deleteJobs, SerialTable.update, List.filterMap_map]
  apply List.filterMap_congr
  intro tick _
  simp only [Function.comp_apply]
  split_ifs <;> rfl

/-- Only a tick touches the ticks. -/
theorem changed_ticks (allowed : Nat → MoveKind → Prop) (store next : JobStore)
    (changed : Changed allowed store next) :
    knownTicks taskName periodicId next.toJobTables =
      knownTicks taskName periodicId store.toJobTables := by
  cases changed with
  | deferred jobs now rows defers => simp only [knownTicks, defers.periodicDefers]
  | updated columns now chosen set keeps tables _ =>
      rw [tables]
      rfl
  | deleted gone tables _ =>
      rw [tables]
      exact delete_jobs_ticks taskName periodicId gone store.toJobTables
  | unlinked now gone tables _ =>
      rw [tables]
      apply delete_workers_keeps now gone (fun middle =>
        knownTicks taskName periodicId middle = knownTicks taskName periodicId store.toJobTables)
      · rfl
      · intro middle held workerId
        exact held
  | aside _ _ ticks _ => simp only [knownTicks, ticks]

theorem outdated_ticks (job : PeriodicJob) (rows : List PeriodicDefer) :
    (rows.filter fun tick => !job.outdates tick).filterMap (tickOf taskName periodicId) =
      if job.taskName = taskName ∧ job.periodicId = periodicId then
        (rows.filterMap (tickOf taskName periodicId)).filter fun tick => job.deferTimestamp ≤ tick
      else rows.filterMap (tickOf taskName periodicId) := by
  rw [List.filterMap_filter]
  split_ifs with named
  · obtain ⟨rfl, rfl⟩ := named
    rw [List.filter_filterMap]
    apply List.filterMap_congr
    intro tick _
    unfold tickOf PeriodicJob.outdates
    by_cases own : tick.taskName = job.taskName ∧ tick.periodicId = job.periodicId
    · by_cases older : tick.deferTimestamp < job.deferTimestamp
      · simp [own, older, Option.filter]
      · simp [own, older, Option.filter, not_lt.mp older]
    · simp [own]
  · apply List.filterMap_congr
    intro tick _
    unfold tickOf PeriodicJob.outdates
    split_ifs <;> simp_all

theorem varchar_fits (text : String) (short : text.length ≤ 128) : varchar128 text = .ok text :=
  if_pos short

/-- A step that offers no tick of the task. -/
theorem step_unoffered (store next : JobStore) (action : Action)
    (stepped : step store action = some next) (fits : Action.Fits action)
    (unoffered : offeredTick taskName periodicId action = none) :
    deferredTick taskName periodicId store action = none ∧
      knownTicks taskName periodicId next.toJobTables =
        knownTicks taskName periodicId store.toJobTables := by
  cases action with
  | deferPeriodicJob job now =>
      have apart : ¬(job.taskName = taskName ∧ job.periodicId = periodicId) := by
        intro named
        simp only [offeredTick, if_pos named] at unoffered
        cases unoffered
      refine ⟨?_, ?_⟩
      · simp only [deferredTick, unoffered]
        split <;> rfl
      · obtain ⟨made, deferred⟩ := map_snd_ok _ _ (step_call store next _ stepped)
        obtain ⟨storedName, storedId, nameFits, idFits, ⟨_, known⟩ | ⟨inserted, middle, row, _, new⟩⟩ :=
          defer_periodic_spec _ _ _ _ _ deferred
        · simp only [knownTicks, known.ticks]
        · rw [varchar_fits _ fits.1] at nameFits
          rw [varchar_fits _ fits.2] at idFits
          cases nameFits
          cases idFits
          simp only [knownTicks, new.ticks, outdated_ticks, if_neg apart, List.filterMap_append]
          simp [tickOf, apart]
  | _ =>
      refine ⟨rfl, changed_ticks taskName periodicId _ _ _ (step_changed store next _ stepped ?_)⟩
      intro job now same
      cases same

/-- A step that offers one: the register takes it and a job is deferred, or it
is known and nothing happens. -/
theorem step_offered (store next : JobStore) (action : Action)
    (stepped : step store action = some next) (fits : Action.Fits action) (tick : Int)
    (offered : offeredTick taskName periodicId action = some tick) :
    (offer (knownTicks taskName periodicId store.toJobTables) tick = none ∧
        deferredTick taskName periodicId store action = none ∧
        knownTicks taskName periodicId next.toJobTables =
          knownTicks taskName periodicId store.toJobTables) ∨
      (offer (knownTicks taskName periodicId store.toJobTables) tick =
          some (knownTicks taskName periodicId next.toJobTables) ∧
        deferredTick taskName periodicId store action = some tick) := by
  cases action with
  | deferPeriodicJob job now =>
      simp only [offeredTick] at offered
      split_ifs at offered with named
      cases offered
      obtain ⟨made, deferred⟩ := map_snd_ok _ _ (step_call store next _ stepped)
      obtain ⟨storedName, storedId, nameFits, idFits, found⟩ := defer_periodic_spec _ _ _ _ _ deferred
      rw [varchar_fits _ fits.1] at nameFits
      rw [varchar_fits _ fits.2] at idFits
      cases nameFits
      cases idFits
      obtain ⟨rfl, rfl⟩ := named
      -- A row of the key and a known tick are the same.
      have key : ∀ row : PeriodicDefer,
          periodicDefersUnique row = some (job.taskName, job.periodicId, job.deferTimestamp) ↔
            tickOf job.taskName job.periodicId row = some job.deferTimestamp := by
        intro row
        simp only [periodicDefersUnique, tickOf, Option.some.injEq, Prod.mk.injEq]
        constructor
        · rintro ⟨sameName, sameId, sameTick⟩
          rw [if_pos ⟨sameName, sameId⟩, sameTick]
        · intro same
          split_ifs at same with named
          exact ⟨named.1, named.2, Option.some.inj same⟩
      rcases found with ⟨none_, known⟩ | ⟨inserted, middle, row, some_, new⟩
      · subst none_
        obtain ⟨row, member, same⟩ := known.known
        have old : job.deferTimestamp ∈ knownTicks job.taskName job.periodicId store.toJobTables :=
          List.mem_filterMap.mpr ⟨row, member, (key row).mp same⟩
        refine Or.inl ⟨(offer_eq_none_iff _ _).mpr old, ?_, ?_⟩
        · simp only [deferredTick, deferred]
        · simp only [knownTicks, known.ticks]
      · subst some_
        have unknown : job.deferTimestamp ∉ knownTicks job.taskName job.periodicId store.toJobTables := by
          intro old
          obtain ⟨row, member, same⟩ := List.mem_filterMap.mp old
          exact new.unknown row member ((key row).mpr same)
        refine Or.inr ⟨?_, ?_⟩
        · rw [offer, if_neg unknown]
          simp only [knownTicks, new.ticks, outdated_ticks, and_self, if_true,
            List.filterMap_append, List.filter_append]
          simp [tickOf]
        · simp only [deferredTick, deferred, offeredTick, and_self, if_true]
  | _ => cases offered

/-! ## Runs -/

/-- The table of ticks is a register of the newest ones: a run defers jobs for
the ticks that the register takes of those offered, and leaves what it holds. -/
theorem run_ticks (actions : List Action) (store final : JobStore)
    (ran : runFrom step actions store = some final)
    (fits : ∀ action ∈ actions, Action.Fits action) :
    deferredTicks taskName periodicId actions store =
        taken (actions.filterMap (offeredTick taskName periodicId))
          (knownTicks taskName periodicId store.toJobTables) ∧
      knownTicks taskName periodicId final.toJobTables =
        held (actions.filterMap (offeredTick taskName periodicId))
          (knownTicks taskName periodicId store.toJobTables) := by
  induction actions generalizing store with
  | nil =>
      cases ran
      exact ⟨rfl, rfl⟩
  | cons action rest ih =>
      obtain ⟨next, stepped, later⟩ := run_from_cons step action rest store final ran
      obtain ⟨restDeferred, restKnown⟩ := ih next later fun other member =>
        fits other (List.mem_cons_of_mem _ member)
      have fit := fits action List.mem_cons_self
      simp only [deferredTicks, stepped]
      cases offered : offeredTick taskName periodicId action with
      | none =>
          obtain ⟨silent, same⟩ := step_unoffered taskName periodicId store next action stepped fit
            offered
          rw [silent, restDeferred, restKnown, same, List.filterMap_cons_none offered]
          exact ⟨rfl, rfl⟩
      | some tick =>
          rw [List.filterMap_cons_some offered, taken, held]
          rcases step_offered taskName periodicId store next action stepped fit tick offered with
            ⟨old, silent, same⟩ | ⟨took, deferred⟩
          · rw [old, silent, restDeferred, restKnown, same]
            exact ⟨rfl, rfl⟩
          · rw [took, deferred, restDeferred, restKnown]
            exact ⟨rfl, rfl⟩

/-- However many workers offer the ticks and whatever else goes on, a tick is
deferred again only once a newer tick of its task was. -/
theorem tick_deferred_again_after_newer (actions : List Action) (store final : JobStore)
    (ran : runFrom step actions store = some final)
    (fits : ∀ action ∈ actions, Action.Fits action) (before between after : List Int) (tick : Int)
    (twice : deferredTicks taskName periodicId actions store =
      before ++ tick :: (between ++ tick :: after)) : ∃ newer ∈ between, tick < newer := by
  rw [(run_ticks taskName periodicId actions store final ran fits).1] at twice
  exact taken_again_after_newer _ _ before between after tick twice

theorem late_tick_deferred_again :
    ∃ final, runFrom step [offerTick 10, offerTick 20, offerTick 10] .empty = some final ∧
      ∃ newer ∈ [(20 : Int)], 10 < newer := by
  have reads : (runFrom step [offerTick 10, offerTick 20, offerTick 10] .empty).isSome := by
    decide +kernel
  obtain ⟨final, ran⟩ := Option.isSome_iff_exists.mp reads
  exact ⟨final, ran, tick_deferred_again_after_newer "sync_all_connected_users" "" _ .empty final ran
    (by decide) [] [20] [] 10 (by decide +kernel)⟩

/-- Where the ticks come in order, as often as may be, each of them is deferred
exactly once and the table keeps one row at most. -/
theorem ordered_ticks_deferred_once (actions : List Action) (final : JobStore)
    (ran : runFrom step actions .empty = some final)
    (fits : ∀ action ∈ actions, Action.Fits action)
    (ordered : (actions.filterMap (offeredTick taskName periodicId)).Pairwise (· ≤ ·)) :
    (deferredTicks taskName periodicId actions .empty).Pairwise (· < ·) ∧
      (∀ tick, tick ∈ deferredTicks taskName periodicId actions .empty ↔
        tick ∈ actions.filterMap (offeredTick taskName periodicId)) ∧
      (knownTicks taskName periodicId final.toJobTables).length ≤ 1 := by
  obtain ⟨deferred, known⟩ := run_ticks taskName periodicId actions .empty final ran fits
  have none_ : knownTicks taskName periodicId JobStore.empty.toJobTables = [] := rfl
  rw [deferred, known, none_]
  obtain ⟨ascends, exactly⟩ := taken_ascending (actions.filterMap (offeredTick taskName periodicId)) []
    ordered (by simp)
  refine ⟨ascends, fun tick => ?_, held_ordered _ [] ordered (by simp) (by simp)⟩
  rw [exactly]
  simp

end

theorem ticks_of_two_workers_deferred_once :
    ∃ final, runFrom step [offerTick 10, offerTick 10, offerTick 20, offerTick 20] .empty =
        some final ∧
      (deferredTicks "sync_all_connected_users" ""
        [offerTick 10, offerTick 10, offerTick 20, offerTick 20] .empty).Pairwise (· < ·) := by
  have reads : (runFrom step [offerTick 10, offerTick 10, offerTick 20, offerTick 20] .empty).isSome :=
    by decide +kernel
  obtain ⟨final, ran⟩ := Option.isSome_iff_exists.mp reads
  exact ⟨final, ran, (ordered_ticks_deferred_once "sync_all_connected_users" "" _ final ran
    (by decide) (by decide)).1⟩

end Morai.Procrastinate.PeriodicTicks
