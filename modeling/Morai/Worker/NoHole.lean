import Morai.Ingest.ExtractFills
import Morai.Worker.ConnectionTransactions

/-!
# Sync leaves no hole

Whatever order jobs and callbacks of one user run, fail and commit in, the
advisory lock makes the sync time a job found still the stored one when the
job commits. So the windows of the committed jobs join, from the lookback of
the first of them up to the stored sync time.
-/

namespace Morai.Worker.NoHole

open Morai.Crypto Morai.Db Morai.Python Morai.Foundation.Runs Morai.Foundation.HeldLocks
open Morai.Foundation.WindowCover Morai.Ingest.ExtractFills Morai.Ingest.SyncWindows
open Morai.Vendor.Connections
open Morai.Worker.ConnectionTransactions

set_option autoImplicit false

variable (keys : KeyService) (pydantic : Pydantic) (settings : Settings)
  (grantOf : JsonValue → Instant) (userId : Uuid)

/-- The plan was made from the sync time stored now. -/
def PlanCurrent (db : Database) (startedAt : Instant) (plan : Plan) : Prop :=
  plan.lastSyncedAt = storedLastSyncedAt userId db ∧
    syncWindows plan.lastSyncedAt startedAt settings = some (.ok plan.windows)

/-- What an open transaction may rely on. -/
def TxnCurrent (db : Database) : Txn → Prop
  | .waiting _ => True
  | .locked _ => True
  | .planned startedAt plan => PlanCurrent settings userId db startedAt plan
  | .fetching startedAt plan requested remaining _ _ =>
      PlanCurrent settings userId db startedAt plan ∧ requested ++ remaining = plan.windows
  | .persisted startedAt plan requested _ _ =>
      PlanCurrent settings userId db startedAt plan ∧ requested = plan.windows
  | .stamped startedAt plan requested _ pending =>
      PlanCurrent settings userId db startedAt plan ∧ requested = plan.windows ∧
        pending.userId = userId ∧ pending.lastSyncedAt = some startedAt
  | .callback pending =>
      pending.userId = userId ∧ pending.lastSyncedAt = storedLastSyncedAt userId db

theorem make_plan_current (startedAt : Instant) (db : Database) (plan : Plan)
    (made : makePlan keys pydantic settings userId startedAt db = some plan) :
    PlanCurrent settings userId db startedAt plan := by
  unfold makePlan at made
  split at made
  · rename_i connection read
    split at made
    · rename_i windows planned
      cases made
      obtain ⟨row, stored, readRow⟩ := read_connection_ok keys pydantic userId db connection read
      have columns := read_row_columns keys pydantic db userId row connection readRow
      refine ⟨?_, planned⟩
      rw [storedLastSyncedAt, stored, columns]
      rfl
    · cases made
  · cases made

theorem upserted_current (draw : UpsertDraw) (exchangedToken : ExchangedToken)
    (accountHash : String) (db after : Database) (row : SchwabConnection)
    (ran : upsertConnection keys draw userId exchangedToken accountHash db = .ok after)
    (found : after.schwabConnections.get? userId = some row) :
    row.userId = userId ∧ row.lastSyncedAt = storedLastSyncedAt userId db := by
  obtain ⟨dek, keyVersion, written, shape, upserted⟩ :=
    upsert_connection_ok keys draw userId exchangedToken accountHash db after ran
  rw [shape, store_connection_get, if_pos upserted.holds.owner] at found
  cases found
  exact ⟨upserted.holds.owner, upserted.synced⟩

theorem stamped_current (startedAt : Instant) (db : Database) (row : SchwabConnection)
    (found : (stampSynced userId startedAt db).schwabConnections.get? userId = some row) :
    row.userId = userId ∧ row.lastSyncedAt = some startedAt := by
  cases stored : db.schwabConnections.get? userId with
  | none =>
      simp only [stampSynced, stored] at found
      cases found
  | some old =>
      rw [stamp_synced_get userId startedAt db old stored] at found
      cases found
      exact ⟨connection_get_owner db userId old stored, rfl⟩

/-- A statement keeps its transaction current. -/
theorem execute_current (db : Database) (before : Option Txn) (statement : Statement pydantic)
    (txn : Txn) (current : ∀ old, before = some old → TxnCurrent settings userId db old)
    (executed : execute keys pydantic settings grantOf userId db before statement = some txn) :
    TxnCurrent settings userId db txn := by
  unfold execute at executed
  split at executed
  · cases executed
    trivial
  · split_ifs at executed
    split at executed
    · rename_i after ran
      obtain ⟨row, found, shape⟩ := Option.map_eq_some_iff.mp executed
      rw [← shape]
      exact upserted_current keys userId _ _ _ db after row ran found
    · cases executed
  · cases executed
    trivial
  · obtain ⟨plan, made, shape⟩ := Option.map_eq_some_iff.mp executed
    rw [← shape]
    exact make_plan_current keys pydantic settings userId _ db plan made
  · split at executed
    · cases executed
      exact ⟨current _ rfl, rfl⟩
    · cases executed
  · split_ifs at executed
    cases executed
    have old := current _ rfl
    exact old
  · cases executed
    have old := current _ rfl
    exact ⟨old.1, by rw [List.append_assoc]; exact old.2⟩
  · split at executed
    · cases executed
      have old := current _ rfl
      exact ⟨old.1, by rw [← old.2, List.append_nil]⟩
    · cases executed
  · obtain ⟨row, found, shape⟩ := Option.map_eq_some_iff.mp executed
    rw [← shape]
    have old := current _ rfl
    exact ⟨old.1, old.2, stamped_current userId _ _ row found⟩
  · cases executed

theorem txn_current_congr (left right : Database) (txn : Txn)
    (same : storedLastSyncedAt userId left = storedLastSyncedAt userId right)
    (current : TxnCurrent settings userId left txn) :
    TxnCurrent settings userId right txn.overtake := by
  cases txn <;> simp only [TxnCurrent, PlanCurrent, Txn.overtake, same] at current ⊢ <;>
    exact current

/-! ## Runs -/

/-- What the committed jobs fetched reaches from the first one's lookback to
the stored sync time. -/
def Coverage (state : System) : Prop :=
  match state.synced with
  | [] => storedLastSyncedAt userId state.db = none
  | first :: _ => ∃ last, storedLastSyncedAt userId state.db = some last ∧
      CoveredUpTo (state.synced.flatMap SyncedRun.windows)
        (first.startedAt - settings.schwabTxLookbackMaxDays * dayMicros) last
        (settings.schwabTxLookbackMaxDays ≠ 0)

structure SyncInvariant (state : System) : Prop where
  granted : Granted Txn.holds state.locking
  current : ∀ id txn, state.locking.txns id = some txn → TxnCurrent settings userId state.db txn
  planned : ∀ run ∈ state.synced,
    syncWindows run.lastSyncedAt run.startedAt settings = some (.ok run.windows)
  coverage : Coverage settings userId state

/-- One committed job moves the cover on to its own start. -/
theorem commit_covers (state : System) (startedAt : Instant) (plan : Plan)
    (pending : SchwabConnection) (locking : Locking Lock Txn)
    (overlap : 0 ≤ settings.schwabTxSyncOverlapDays)
    (coverage : Coverage settings userId state)
    (current : PlanCurrent settings userId state.db startedAt plan)
    (owner : pending.userId = userId) (stamped : pending.lastSyncedAt = some startedAt) :
    Coverage settings userId
      { db := storeConnection state.db pending
        locking := locking
        synced := state.synced ++ [⟨startedAt, plan.lastSyncedAt, plan.windows⟩] } := by
  obtain ⟨start, begins, spans, _⟩ := sync_windows_ok plan.lastSyncedAt startedAt settings
    plan.windows current.2
  have reached : storedLastSyncedAt userId (storeConnection state.db pending) = some startedAt := by
    rw [stored_last_synced_at_store state.db pending userId owner, stamped]
  unfold Coverage at coverage ⊢
  cases history : state.synced with
  | nil =>
      rw [history] at coverage
      have first : plan.lastSyncedAt = none := current.1.trans coverage
      rw [first] at begins
      have shape := days_before_eq startedAt start settings.schwabTxLookbackMaxDays begins
      refine ⟨startedAt, reached, ?_⟩
      simp only [List.nil_append, List.flatMap_cons, List.flatMap_nil, List.append_nil]
      rw [← shape]
      apply covered_up_to_first plan.windows start startedAt _ spans
      intro some same
      apply some
      unfold dayMicros at shape
      linarith
  | cons first rest =>
      rw [history] at coverage
      obtain ⟨last, stored, covered⟩ := coverage
      have incremental : plan.lastSyncedAt = some last := current.1.trans stored
      rw [incremental] at begins
      refine ⟨startedAt, reached, ?_⟩
      let run : SyncedRun := ⟨startedAt, plan.lastSyncedAt, plan.windows⟩
      have joined : ((first :: rest) ++ [run]).flatMap SyncedRun.windows =
          (first :: rest).flatMap SyncedRun.windows ++ plan.windows := by
        rw [List.flatMap_append, List.flatMap_singleton]
      show CoveredUpTo (((first :: rest) ++ [run]).flatMap SyncedRun.windows) _ _ _
      rw [joined]
      exact covered_up_to_extend _ plan.windows _ last start startedAt _ covered
        (sync_start_overlaps settings last startedAt start overlap begins) spans

theorem callback_keeps_coverage (state : System) (pending : SchwabConnection)
    (locking : Locking Lock Txn) (coverage : Coverage settings userId state)
    (same : storedLastSyncedAt userId (storeConnection state.db pending) =
      storedLastSyncedAt userId state.db) :
    Coverage settings userId
      { state with db := storeConnection state.db pending, locking := locking } := by
  unfold Coverage at coverage ⊢
  cases history : state.synced with
  | nil =>
      rw [history] at coverage
      exact same.trans coverage
  | cons first rest =>
      rw [history] at coverage
      obtain ⟨last, stored, covered⟩ := coverage
      exact ⟨last, same.trans stored, covered⟩

/-- A step of anyone keeps every open transaction current. -/
theorem current_step (state : System) (action : Action pydantic) (next : System)
    (granted : Granted Txn.holds state.locking)
    (current : ∀ id txn, state.locking.txns id = some txn → TxnCurrent settings userId state.db txn)
    (stepped : step keys pydantic settings grantOf userId state action = some next) :
    ∀ id txn, next.locking.txns id = some txn → TxnCurrent settings userId next.db txn := by
  intro other found present
  cases action with
  | execute id statement =>
      obtain ⟨sameDb, moves⟩ := execute_txns keys pydantic settings grantOf userId state next id
        statement stepped other found present
      rw [sameDb]
      cases moves with
      | inl moved =>
          exact execute_current keys pydantic settings grantOf userId state.db _ statement found
            (fun old oldFound => current id old oldFound) moved.2
      | inr unmoved => exact current other found unmoved.2
  | rollback id =>
      rw [rollback_step keys pydantic settings grantOf userId state next id stepped] at present ⊢
      exact current other found (finish_txns state.locking id other found present).2
  | commit id =>
      cases commit_step keys pydantic settings grantOf userId state next id stepped with
      | inl job =>
          obtain ⟨startedAt, plan, requested, stale, pending, own, shape⟩ := job
          rw [shape] at present
          have open' := finish_txns state.locking id other found present
          obtain ⟨begun, waiting⟩ := stamped_alone state granted id other startedAt plan
            requested stale pending found own open'.2 open'.1
          rw [waiting]
          trivial
      | inr callback =>
          obtain ⟨pending, own, shape⟩ := callback
          obtain ⟨owner, synced⟩ := current id _ own
          have same : storedLastSyncedAt userId (storeConnection state.db pending) =
              storedLastSyncedAt userId state.db := by
            rw [stored_last_synced_at_store state.db pending userId owner, synced]
          rw [shape] at present ⊢
          obtain ⟨old, oldFound, overtaken⟩ := Option.map_eq_some_iff.mp present
          rw [← overtaken]
          apply txn_current_congr settings userId state.db _ old same.symm
          exact current other old (finish_txns state.locking id other old oldFound).2

theorem sync_step_keeps (overlap : 0 ≤ settings.schwabTxSyncOverlapDays) (state : System)
    (action : Action pydantic) (next : System) (invariant : SyncInvariant settings userId state)
    (stepped : step keys pydantic settings grantOf userId state action = some next) :
    SyncInvariant settings userId next := by
  have granted := step_granted keys pydantic settings grantOf userId state action next
    invariant.granted stepped
  have current := current_step keys pydantic settings grantOf userId state action next
    invariant.granted invariant.current stepped
  cases action with
  | execute id statement =>
      obtain ⟨txn, _, _, sameDb, sameSynced⟩ :=
        execute_step keys pydantic settings grantOf userId state next id statement stepped
      refine ⟨granted, current, sameSynced ▸ invariant.planned, ?_⟩
      have coverage := invariant.coverage
      unfold Coverage at coverage ⊢
      rw [sameSynced, sameDb]
      exact coverage
  | rollback id =>
      have shape := rollback_step keys pydantic settings grantOf userId state next id stepped
      subst shape
      exact ⟨granted, current, invariant.planned, invariant.coverage⟩
  | commit id =>
      cases commit_step keys pydantic settings grantOf userId state next id stepped with
      | inl job =>
          obtain ⟨startedAt, plan, requested, stale, pending, found, shape⟩ := job
          obtain ⟨planCurrent, all, owner, stamped⟩ := invariant.current id _ found
          subst shape all
          refine ⟨granted, current, ?_, ?_⟩
          · intro run member
            cases List.mem_append.mp member with
            | inl old => exact invariant.planned run old
            | inr new =>
                rw [List.mem_singleton.mp new]
                exact planCurrent.2
          · exact commit_covers settings userId state startedAt plan pending _ overlap
              invariant.coverage planCurrent owner stamped
      | inr callback =>
          obtain ⟨pending, found, shape⟩ := callback
          obtain ⟨owner, synced⟩ := invariant.current id _ found
          have same : storedLastSyncedAt userId (storeConnection state.db pending) =
              storedLastSyncedAt userId state.db := by
            rw [stored_last_synced_at_store state.db pending userId owner, synced]
          subst shape
          exact ⟨granted, current, invariant.planned,
            callback_keeps_coverage settings userId state pending _ invariant.coverage same⟩

/-- The windows of one job: from its start to exactly its `now`, without gap
or overlap, none when there is nothing between, none wider than the range. -/
def JobWindows (lastSyncedAt : Option Instant) (now : Instant) (windows : List SyncWindow) :
    Prop :=
  ∃ start, syncStart lastSyncedAt now settings = .ok start ∧ Spans start now windows ∧
    ∀ window ∈ windows, window.2 - window.1 ≤ settings.schwabTxMaxRangeDays * dayMicros

/-- In every state of every run, once a job has committed, each moment from
the first committed job's lookback up to the stored sync time lies in a window
of a committed job. -/
theorem sync_leaves_no_hole (overlap : 0 ≤ settings.schwabTxSyncOverlapDays)
    (actions : List (Action pydantic)) (initial final : System) (quiet : Quiet initial)
    (unsynced : storedLastSyncedAt userId initial.db = none)
    (ran : runFrom (step keys pydantic settings grantOf userId) actions initial = some final) :
    (∀ first rest, final.synced = first :: rest →
      ∃ last, storedLastSyncedAt userId final.db = some last ∧
        ∀ moment, first.startedAt - settings.schwabTxLookbackMaxDays * dayMicros ≤ moment →
          moment ≤ last → moment < last ∨ settings.schwabTxLookbackMaxDays ≠ 0 →
            ∃ run ∈ final.synced, ∃ window ∈ run.windows,
              window.1 ≤ moment ∧ moment ≤ window.2) ∧
      (∀ run ∈ final.synced, JobWindows settings run.lastSyncedAt run.startedAt run.windows) ∧
      ∀ lastSyncedAt now windows, syncWindows lastSyncedAt now settings = some (.ok windows) →
        JobWindows settings lastSyncedAt now windows := by
  have start : SyncInvariant settings userId initial := by
    refine ⟨?_, ?_, ?_, ?_⟩
    · rw [quiet.1]
      apply granted_idle
    · intro id txn present
      rw [quiet.1] at present
      cases present
    · intro run member
      rw [quiet.2] at member
      cases member
    · unfold Coverage
      rw [quiet.2]
      exact unsynced
  have invariant := run_keeps (step keys pydantic settings grantOf userId) (fun _ _ => True)
    (SyncInvariant settings userId)
    (fun state action next held _ stepped => sync_step_keeps keys pydantic settings grantOf userId
      overlap state action next held stepped)
    actions initial final start (meets_trivial _ actions initial) ran
  refine ⟨?_, ?_, ?_⟩
  · intro first rest history
    have coverage := invariant.coverage
    unfold Coverage at coverage
    rw [history] at coverage
    obtain ⟨last, stored, covered⟩ := coverage
    refine ⟨last, stored, ?_⟩
    intro moment after before kept
    obtain ⟨window, member, reaches⟩ := covered moment after before kept
    obtain ⟨run, runMember, inRun⟩ := List.mem_flatMap.mp member
    rw [history]
    exact ⟨run, runMember, window, inRun, reaches⟩
  · intro run member
    exact sync_windows_ok _ _ settings run.windows (invariant.planned run member)
  · intro lastSyncedAt now windows made
    exact sync_windows_ok lastSyncedAt now settings windows made

/-- Two jobs commit and one between them fails after it has planned. -/
theorem sync_leaves_no_hole_three_jobs :
    ∃ final last, runFrom (step plainKeys plainPydantic {} plainGrant ⟨1⟩)
        (callbackOf 0 firstToken ++
          (openJob 1 20001 ++ List.replicate 7 (.execute 1 .request) ++ closeJob 1) ++
          (openJob 2 20003 ++ [.rollback 2]) ++
          (openJob 3 20002 ++ [.execute 3 .request] ++ closeJob 3))
        (quietSystem provisionedUser) = some final ∧
      storedLastSyncedAt ⟨1⟩ final.db = some last ∧
      ∀ moment, 19636 * dayMicros ≤ moment → moment ≤ last →
        ∃ run ∈ final.synced, ∃ window ∈ run.windows, window.1 ≤ moment ∧ moment ≤ window.2 := by
  have shape : ((runFrom (step plainKeys plainPydantic {} plainGrant ⟨1⟩)
      (callbackOf 0 firstToken ++
        (openJob 1 20001 ++ List.replicate 7 (.execute 1 .request) ++ closeJob 1) ++
        (openJob 2 20003 ++ [.rollback 2]) ++
        (openJob 3 20002 ++ [.execute 3 .request] ++ closeJob 3))
      (quietSystem provisionedUser)).any fun final =>
        decide (final.synced.map SyncedRun.startedAt = [20001 * dayMicros, 20002 * dayMicros])) =
      true := by decide +kernel
  obtain ⟨present, started⟩ := (Option.any_eq_true_iff_get _ _).mp shape
  have ran := (Option.some_get present).symm
  have holds := sync_leaves_no_hole plainKeys plainPydantic {} plainGrant ⟨1⟩ (by decide) _
    (quietSystem provisionedUser) _ ⟨rfl, rfl⟩ (by rfl) ran
  have dates := of_decide_eq_true started
  cases history : (Option.get _ present).synced with
  | nil =>
      rw [history] at dates
      cases dates
  | cons first rest =>
      rw [history] at dates
      have begun : first.startedAt = 20001 * dayMicros := (List.cons.inj dates).1
      obtain ⟨last, stored, covered⟩ := holds.1 first rest history
      refine ⟨_, last, ran, stored, ?_⟩
      intro moment after before
      apply covered moment _ before (Or.inr (by decide))
      rw [begun]
      exact after

/-- With no lookback the first job asks for nothing, and its own start lies in
no window. -/
theorem first_now_uncovered_without_lookback :
    (runFrom (step plainKeys plainPydantic { schwabTxLookbackMaxDays := 0 } plainGrant ⟨1⟩)
      (callbackOf 0 firstToken ++ (openJob 1 20001 ++ closeJob 1))
      (quietSystem provisionedUser)).any (fun final => decide (
        final.synced.map SyncedRun.startedAt = [20001 * dayMicros] ∧
        storedLastSyncedAt ⟨1⟩ final.db = some (20001 * dayMicros) ∧
        ¬∃ run ∈ final.synced, ∃ window ∈ run.windows,
          window.1 ≤ 20001 * dayMicros ∧ 20001 * dayMicros ≤ window.2)) = true := by
  decide +kernel

end Morai.Worker.NoHole
