import Morai.Worker.SyncQueue

/-!
# A tick of the scheduled sync, from the queue to the recorded runs

The periodic task defers one `sync_user` job per connected user, each in a
transaction of its own, and the one worker takes them one after the other.
-/

namespace Morai.Worker.SyncTick

open Morai.Crypto Morai.Db Morai.Python Morai.Foundation.PrimaryKey Morai.Foundation.Runs
open Morai.Foundation.Serial Morai.Ingest.ElementsLand Morai.Ingest.SyncWindows
open Morai.Ingest.SyncUser Morai.Worker.SyncUserTask Morai.Worker.SyncQueue
open Morai.Procrastinate.Schema Morai.Procrastinate.Functions Morai.Procrastinate.Steps
open Morai.Procrastinate.Effects Morai.Procrastinate.LoneWorker

set_option autoImplicit false

section Worker

variable (keys : KeyService) (pydantic : Pydantic) (settings : Settings) (options : TaskOptions)
variable (scan : ScanOrder SchwabConnection) (users : List Uuid) (workerId : Nat)

/-! ## The fan-out -/

/-- A `sync_user` job of the scheduler. -/
abbrev ScheduledJob (userId : Uuid) (job : Job) : Prop := SyncJob options userId none job

theorem defer_each_ok (deferredAt : Uuid → Instant) (fits : ChannelFits options.queue)
    (unlocked : options.queueingLock = none) (userIds : List Uuid) (store : JobStore) :
    ∃ after rows, deferEach options deferredAt userIds store = (.ok (), after) ∧
      after.jobs.rows = store.jobs.rows ++ rows ∧
      List.Forall₂ (ScheduledJob options) userIds rows ∧ after.workers = store.workers := by
  induction userIds generalizing store with
  | nil => exact ⟨store, [], rfl, (List.append_nil _).symm, List.Forall₂.nil, rfl⟩
  | cons userId rest ih =>
      obtain ⟨ids, middle, row, deferred, rows, workers, isSync⟩ :=
        sync_job_deferred options fits unlocked userId none (deferredAt userId) store
      obtain ⟨after, later, ran, added, shaped, laterWorkers⟩ := ih middle
      refine ⟨after, row :: later, ?_, ?_, List.Forall₂.cons isSync shaped,
        laterWorkers.trans workers⟩
      · rw [deferEach, deferred]
        exact ran
      · rw [added, rows, List.append_assoc, List.singleton_append]

theorem sync_job_of_mem (userIds : List Uuid) (jobs : List Job)
    (shaped : List.Forall₂ (ScheduledJob options) userIds jobs) (job : Job) (member : job ∈ jobs) :
    ∃ userId, ScheduledJob options userId job := by
  induction shaped with
  | nil => cases member
  | cons isSync _ ih =>
      cases List.mem_cons.mp member with
      | inl same => exact ⟨_, same ▸ isSync⟩
      | inr later => exact ih later

/-- A job's row in the end, beside the run its task recorded. -/
def EndedAs (final : JobStore) (job : Job) (run : SyncRun) : Prop :=
  ∃ row ∈ final.jobs.rows, row.id = job.id ∧ Agrees row.status run

/-- What scheduled jobs leave are their users' runs, one each. -/
theorem scheduled_jobs_leave (final : JobStore) (userIds : List Uuid) (jobs : List Job)
    (added : List (List SyncRun)) (shaped : List.Forall₂ (ScheduledJob options) userIds jobs)
    (there : ∀ userId ∈ userIds, userId ∈ users)
    (left : List.Forall₂ (LeftBy users final) jobs added) :
    added.flatten.map SyncRun.userId = userIds ∧
      (∀ run ∈ added.flatten, run.trigger = SyncTrigger.scheduled.value) ∧
      List.Forall₂ (EndedAs final) jobs added.flatten := by
  induction shaped generalizing added with
  | nil =>
      cases left
      exact ⟨rfl, by simp, List.Forall₂.nil⟩
  | cons isSync _ ih =>
      cases left with
      | cons leftBy rest =>
          obtain ⟨owners, triggers, ended⟩ :=
            ih _ (fun userId member => there userId (List.mem_cons_of_mem _ member)) rest
          obtain ⟨row, member, sameId, leaves⟩ := leftBy
          obtain ⟨run, only, owner, trigger, agrees⟩ :=
            deferred_leaves users _ _ _ _ none isSync.args (there _ List.mem_cons_self) leaves
          rw [only, List.flatten_cons, List.singleton_append]
          refine ⟨?_, ?_, List.Forall₂.cons ⟨row, member, sameId, agrees⟩ ended⟩
          · rw [List.map_cons, owner, owners]
          · exact List.forall_mem_cons.mpr ⟨trigger, triggers⟩

/-! ## The whole tick -/

/-- Jobs deferred while one runs do not run beside it. -/
theorem busy_grows (store after : JobStore) (job : Job) (rows : List Job) (busy : Busy store job)
    (added : after.jobs.rows = store.jobs.rows ++ rows) (wait : ∀ row ∈ rows, row.status = .todo) :
    Busy after job := by
  obtain ⟨member, same⟩ := (store.jobs.get_eq_some_iff _ _).mp busy.row
  refine ⟨?_, busy.runs, ?_⟩
  · refine (after.jobs.get_eq_some_iff _ _).mpr ⟨?_, same⟩
    rw [added]
    exact List.mem_append_left _ member
  · intro other otherMember runs
    rw [added] at otherMember
    cases List.mem_append.mp otherMember with
    | inl old => exact busy.only other old runs
    | inr new =>
        rw [wait other new] at runs
        cases runs

theorem tick_turn (fits : ChannelFits options.queue) (unlocked : options.queueingLock = none)
    (turn : WorkerTurn) (rest : List WorkerTurn) (store : JobStore) (db : Database) (tick : Job)
    (registered : (store.workers.get? workerId).isSome) (idle : Idle store)
    (waits : waiting store = [tick]) (named : tick.taskName = "sync_all_connected_users")
    (args : bindsTimestamp tick.args = true) (isDue : due none turn.fetchedAt tick = true) :
    ∃ finished, work keys pydantic settings options scan users workerId (turn :: rest) store db =
        work keys pydantic settings options scan users workerId rest finished db ∧
      Idle finished ∧ finished.workers = store.workers ∧
      List.Forall₂ (ScheduledJob options) (connectedUsers scan db) (waiting finished) ∧
      ∃ row ∈ finished.jobs.rows, row.id = tick.id ∧ row.status = .succeeded := by
  have ready : ∀ other ∈ waiting store, due none turn.fetchedAt other = true := by
    intro other member
    rw [waits, List.mem_singleton] at member
    exact member ▸ isDue
  obtain ⟨first, fetched, member, _, fetchedOk, _, busy, fewer, workers⟩ :=
    turn_fetches workerId turn.fetchedAt store registered idle ready (by simp [waits])
  rw [waits, List.mem_singleton] at member
  subst member
  rw [waits] at fewer
  have none_ : waiting fetched = [] := by
    rw [fewer]
    simp
  obtain ⟨deferred, rows, deferredOk, added, shaped, deferredWorkers⟩ := defer_each_ok options
    turn.deferredAt fits unlocked (connectedUsers scan db) fetched
  have wait : ∀ row ∈ rows, row.status = .todo := by
    intro row rowMember
    obtain ⟨_, shape⟩ := sync_job_of_mem options _ _ shaped row rowMember
    exact shape.waits
  have stillBusy := busy_grows fetched deferred _ rows busy added wait
  have queued := waiting_append fetched deferred rows added wait
  rw [none_, List.nil_append] at queued
  have ranTask : runTask keys pydantic settings options scan users turn
      (startedBy (some workerId) first) fetched db = some (.succeeded, deferred, db) := by
    unfold runTask
    rw [if_neg (by simp [startedBy, named]), if_pos (by simp [startedBy, named]),
      if_pos (by simpa [startedBy] using args)]
    simp only [syncAllConnectedUsers, deferredOk, Except.map]
  obtain ⟨finished, worked, stillIdle, same, finishedWorkers, finishedRows⟩ :=
    worked_turn keys pydantic settings options scan users workerId turn rest store fetched deferred
      db db _ .succeeded fetchedOk ranTask stillBusy (Or.inl rfl)
  refine ⟨finished, worked, stillIdle, (finishedWorkers.trans deferredWorkers).trans workers, ?_, ?_⟩
  · rw [same, queued]
    exact shaped
  · obtain ⟨row, _⟩ := (deferred.jobs.get_eq_some_iff _ _).mp stillBusy.row
    refine ⟨finishedAs .succeeded (startedBy (some workerId) first), ?_, rfl, rfl⟩
    rw [finishedRows]
    exact List.mem_map.mpr ⟨_, row, if_pos rfl⟩

/-- A tick of the scheduled sync: its job, waiting alone for a worker that is
registered and idle, is worked off with a run for every connected user, one each
and in the order they were read, and each run and its job agree on how it went.
The users are there, as the foreign key of the connections says. -/
theorem tick_syncs_each_connected_user (moves : settings.schwabTxMaxRangeDays ≠ 0)
    (fits : ChannelFits options.queue) (unlocked : options.queueingLock = none)
    (turn : WorkerTurn) (turns : List WorkerTurn) (store : JobStore) (db : Database)
    (there : ∀ userId ∈ connectedUsers scan db, userId ∈ users) (tick : Job)
    (registered : (store.workers.get? workerId).isSome) (idle : Idle store)
    (waits : waiting store = [tick]) (named : tick.taskName = "sync_all_connected_users")
    (args : bindsTimestamp tick.args = true) (isDue : due none turn.fetchedAt tick = true)
    (enough : db.schwabConnections.rows.length ≤ turns.length) :
    ∃ final after jobs runs,
      work keys pydantic settings options scan users workerId (turn :: turns) store db =
          some (.ok (final, after)) ∧
        waiting final = [] ∧ (∃ row ∈ final.jobs.rows, row.id = tick.id ∧ row.status = .succeeded) ∧
        after.syncRuns = db.syncRuns ++ runs ∧ runs.map SyncRun.userId = connectedUsers scan db ∧
        (∀ run ∈ runs, run.trigger = SyncTrigger.scheduled.value) ∧
        (jobs.Pairwise fun earlier later => earlier.id < later.id) ∧
        List.Forall₂ (ScheduledJob options) (connectedUsers scan db) jobs ∧
        List.Forall₂ (EndedAs final) jobs runs := by
  obtain ⟨finished, worked, stillIdle, workers, shaped, row, rowMember, sameId, succeeded⟩ :=
    tick_turn keys pydantic settings options scan users workerId fits unlocked turn turns store db tick
      registered idle waits named args isDue
  have covered : (connectedUsers scan db).length ≤ turns.length := by
    rw [connectedUsers, List.length_map, (scan.perm _).length_eq]
    exact enough
  have each : ∀ job ∈ waiting finished, ∃ userId, ScheduledJob options userId job :=
    sync_job_of_mem options _ _ shaped
  have ready : ∀ job ∈ waiting finished, ∀ later ∈ turns, due none later.fetchedAt job = true := by
    intro job member later _
    obtain ⟨_, isSync⟩ := each job member
    simp [due, isSync.waits, isSync.scheduledAt]
  obtain ⟨jobs, final, after, added, ran, done, perm, order, recorded, left, stay⟩ :=
    sync_queue_worked keys pydantic settings options scan users workerId moves turns finished db
      (workers ▸ registered) stillIdle ready
      (fun job member => (each job member).elim fun _ isSync => isSync.taskName)
      (shaped.length_eq ▸ covered)
  have inOrder := alike_in_order finished jobs options.priority
    (fun job member => (each job member).elim fun _ isSync => isSync.priority) perm order
  rw [inOrder] at left
  obtain ⟨owners, triggers, ended⟩ :=
    scheduled_jobs_leave options users final _ _ added shaped there left
  refine ⟨final, after, waiting finished, added.flatten, worked.trans ran, done, ?_, recorded,
    owners, triggers, finished.jobs.ordered.sublist List.filter_sublist, shaped, ended⟩
  exact ⟨row, stay row rowMember (by simp [succeeded]), sameId, succeeded⟩

end Worker

theorem tick_syncs_one_user :
    ∃ store final after run, runFrom step [.registerWorker 0, offerTick 1781794800] .empty =
        some store ∧
      work plainKeys plainPydantic {} byName (.asStored _) [⟨1⟩] 1 [afternoonTurn, afternoonTurn] store
        syncedUser = some (.ok (final, after)) ∧
      after.syncRuns = [run] ∧ run.userId = ⟨1⟩ := by
  have reads : ((runFrom step [.registerWorker 0, offerTick 1781794800] .empty).any fun store =>
      (store.workers.get? 1).isSome && (decide (∀ job ∈ store.jobs.rows, job.status ≠ .doing) &&
        decide ((waiting store).length = 1 ∧ ∀ tick ∈ waiting store,
          tick.taskName = "sync_all_connected_users" ∧ bindsTimestamp tick.args = true ∧
            due none afternoon tick = true))) = true := by
    decide +kernel
  obtain ⟨present, holds⟩ := (Option.any_eq_true_iff_get _ _).mp reads
  obtain ⟨registered, rest⟩ := Bool.and_eq_true_iff.mp holds
  obtain ⟨unstarted, waits⟩ := Bool.and_eq_true_iff.mp rest
  obtain ⟨one, shapes⟩ := of_decide_eq_true waits
  obtain ⟨tick, only⟩ := List.length_eq_one_iff.mp one
  obtain ⟨named, args, isDue⟩ := shapes tick (only ▸ List.mem_singleton.mpr rfl)
  obtain ⟨final, after, _, runs, ran, _, _, recorded, owners, _⟩ :=
    tick_syncs_each_connected_user plainKeys plainPydantic {} byName (.asStored _) [⟨1⟩] 1
      (by decide) (by decide) rfl afternoonTurn [afternoonTurn] _ syncedUser (by decide) tick
      registered (fun job member => of_decide_eq_true unstarted job member) only named args isDue (by decide)
  have users : connectedUsers (.asStored _) syncedUser = [⟨1⟩] := by decide
  have none_ : syncedUser.syncRuns = [] := by decide
  rw [users] at owners
  obtain ⟨run, shape, owner⟩ := List.map_eq_singleton_iff.mp owners
  refine ⟨_, final, after, run, (Option.some_get present).symm, ran, ?_, owner⟩
  rw [recorded, none_, shape, List.nil_append]

end Morai.Worker.SyncTick
