import Morai.Foundation.Runs
import Morai.Ingest.ElementsLand
import Morai.Worker.SyncUserTask

/-!
# Accounts and what was fetched for them

Histories of one user: callbacks that store a grant, each for an account of
its own, and jobs that succeed. A segment is the time one account stays
stored. From the start of a segment's first successful job on, its account is
fetched without a hole, whatever was stored before it.
-/

namespace Morai.Worker.AccountHistory

open Morai.Crypto Morai.Db Morai.Python Morai.Foundation.PrimaryKey Morai.Foundation.Runs
open Morai.Foundation.WindowCover Morai.Ingest.SyncWindows Morai.Ingest.SyncUser
open Morai.Ingest.ExtractFills Morai.Ingest.ElementsLand Morai.Vendor.Connections
open Morai.Worker.SyncUserTask

set_option autoImplicit false

/-- The first successful job of a segment, with the sync time it found. -/
structure FirstRun where
  lastSyncedAt : Option Instant
  now : Instant
  deriving DecidableEq, Repr

/-- `storedAt` is the time of the callback that first stored the account. -/
structure Segment where
  accountHash : String
  storedAt : Instant
  firstRun : Option FirstRun
  deriving DecidableEq, Repr

structure History where
  db : Database
  fetched : List (String × SyncWindow)
  segment : Option Segment

inductive Action where
  | callback (time : Instant) (draw : UpsertDraw) (exchangedToken : ExchangedToken)
      (accountHash : String)
  | run (call : TaskCall) (vendor : VendorRun) (draws : SyncDraws)

def Segment.store (segment : Option Segment) (accountHash : String) (time : Instant) : Segment :=
  match segment with
  | none => ⟨accountHash, time, none⟩
  | some old => if old.accountHash = accountHash then old else ⟨accountHash, time, none⟩

def Segment.synced (segment : Segment) (lastSyncedAt : Option Instant) (now : Instant) : Segment :=
  match segment.firstRun with
  | none => { segment with firstRun := some ⟨lastSyncedAt, now⟩ }
  | some _ => segment

variable (keys : KeyService) (pydantic : Pydantic) (settings : Settings) (userId : Uuid)

/-- A committed callback or a successful job. -/
def step (state : History) : Action → Option History
  | .callback time draw exchangedToken accountHash =>
      match upsertConnection keys draw userId exchangedToken accountHash state.db with
      | .error _ => none
      | .ok db =>
          some { state with
                 db := db, segment := some (Segment.store state.segment accountHash time) }
  | .run call vendor draws =>
      match syncUserTask keys pydantic settings vendor draws userId call state.db with
      | some (.ok (), db) =>
          some { db := db
                 fetched := state.fetched ++
                   requestedCalls keys pydantic settings userId call.startedAt state.db
                 segment := state.segment.map fun segment =>
                   segment.synced (storedLastSyncedAt userId state.db) call.startedAt }
      | _ => none

/-- Before the first connect. -/
def Fresh (state : History) : Prop :=
  state.db.schwabConnections.get? userId = none ∧ state.fetched = [] ∧ state.segment = none

def fetchedFor (fetched : List (String × SyncWindow)) (accountHash : String) : List SyncWindow :=
  fetched.filterMap fun call => if call.1 = accountHash then some call.2 else none

theorem covers_fetched_iff (fetched : List (String × SyncWindow)) (accountHash : String)
    (moment : Instant) :
    Covers (fetchedFor fetched accountHash) moment ↔
      ∃ window, (accountHash, window) ∈ fetched ∧ window.1 ≤ moment ∧ moment ≤ window.2 := by
  unfold Covers fetchedFor
  constructor
  · intro found
    obtain ⟨window, member, reaches⟩ := found
    obtain ⟨call, listed, shape⟩ := List.mem_filterMap.mp member
    split_ifs at shape with own
    cases shape
    exact ⟨call.2, own ▸ listed, reaches⟩
  · intro found
    obtain ⟨window, listed, reaches⟩ := found
    exact ⟨window, List.mem_filterMap.mpr ⟨_, listed, if_pos rfl⟩, reaches⟩

theorem fetched_for_append (fetched : List (String × SyncWindow)) (accountHash : String)
    (windows : List SyncWindow) :
    fetchedFor (fetched ++ windows.map (Prod.mk accountHash)) accountHash =
      fetchedFor fetched accountHash ++ windows := by
  unfold fetchedFor
  have own : (fun call : String × SyncWindow =>
      if call.1 = accountHash then some call.2 else none) ∘ Prod.mk accountHash = some := by
    funext window
    exact if_pos rfl
  rw [List.filterMap_append, List.filterMap_map, own, List.filterMap_some]

/-- The cover of a segment that has been synced. -/
def SegmentCovered (fetched : List (String × SyncWindow)) (segment : Segment) (last : Instant) :
    Prop :=
  ∀ first, segment.firstRun = some first → ∃ start,
    syncStart first.lastSyncedAt first.now settings = .ok start ∧
      CoveredUpTo (fetchedFor fetched segment.accountHash) start last (start ≠ first.now)

/-- The row holds the segment's account, and what the segment fetched reaches
the row's sync time. -/
structure Grounded (state : History) (segment : Segment) (row : SchwabConnection) (dek : Bytes)
    (keyVersion : Int) (token : JsonValue) : Prop where
  current : currentDek keys state.db userId = .ok (dek, keyVersion)
  stored : state.db.schwabConnections.get? userId = some row
  holds : RowHolds keys userId dek keyVersion row segment.accountHash token
  marked : ∀ first, segment.firstRun = some first → ∃ last, row.lastSyncedAt = some last
  covered : ∀ last, row.lastSyncedAt = some last →
    SegmentCovered settings state.fetched segment last

def HistoryInvariant (state : History) : Prop :=
  match state.segment with
  | none => state.db.schwabConnections.get? userId = none
  | some segment => ∃ row dek keyVersion token,
      Grounded keys settings userId state segment row dek keyVersion token

theorem callback_keeps (time : Instant) (draw : UpsertDraw) (exchangedToken : ExchangedToken)
    (accountHash : String) (state : History) (db : Database)
    (invariant : HistoryInvariant keys settings userId state)
    (ran : upsertConnection keys draw userId exchangedToken accountHash state.db = .ok db) :
    HistoryInvariant keys settings userId { state with
      db := db, segment := some (Segment.store state.segment accountHash time) } := by
  obtain ⟨dek, keyVersion, row, shape, upserted⟩ :=
    upsert_connection_ok keys draw userId exchangedToken accountHash state.db db ran
  have stored : db.schwabConnections.get? userId = some row := by
    rw [shape, store_connection_get]
    exact if_pos upserted.holds.owner
  have current : currentDek keys db userId = .ok (dek, keyVersion) := by
    rw [shape]
    exact upserted.current
  have fresh : ∀ segment : Segment, segment.accountHash = accountHash →
      segment.firstRun = none → Grounded keys settings userId
        { state with db := db, segment := some segment } segment row dek keyVersion
        exchangedToken.token := by
    intro segment same unsynced
    refine ⟨current, stored, same ▸ upserted.holds, ?_, ?_⟩
    · intro first found
      rw [unsynced] at found
      cases found
    · intro last _ first found
      rw [unsynced] at found
      cases found
  unfold HistoryInvariant at invariant ⊢
  refine ⟨row, dek, keyVersion, exchangedToken.token, ?_⟩
  cases before : state.segment with
  | none =>
      have grounded := fresh ⟨accountHash, time, none⟩ rfl rfl
      exact ⟨grounded.current, grounded.stored, grounded.holds, grounded.marked,
        grounded.covered⟩
  | some segment =>
      rw [before] at invariant
      obtain ⟨old, _, _, _, grounded⟩ := invariant
      by_cases same : segment.accountHash = accountHash
      · have kept : Segment.store (some segment) accountHash time = segment := if_pos same
        have unmoved : row.lastSyncedAt = old.lastSyncedAt := by
          rw [upserted.synced, grounded.stored]
          rfl
        rw [kept]
        refine ⟨current, stored, same ▸ upserted.holds, ?_, ?_⟩
        · rw [unmoved]
          exact grounded.marked
        · rw [unmoved]
          exact grounded.covered
      · have replaced : Segment.store (some segment) accountHash time =
            ⟨accountHash, time, none⟩ := if_neg same
        rw [replaced]
        have grounded := fresh ⟨accountHash, time, none⟩ rfl rfl
        exact ⟨grounded.current, grounded.stored, grounded.holds, grounded.marked,
          grounded.covered⟩

theorem run_keeps_history (overlap : 0 ≤ settings.schwabTxSyncOverlapDays) (call : TaskCall)
    (vendor : VendorRun) (draws : SyncDraws) (state : History) (db : Database)
    (invariant : HistoryInvariant keys settings userId state)
    (ran : syncUserTask keys pydantic settings vendor draws userId call state.db =
      some (.ok (), db)) :
    ∃ segment row dek keyVersion token, Grounded keys settings userId
        { db := db
          fetched := state.fetched ++
            requestedCalls keys pydantic settings userId call.startedAt state.db
          segment := some segment } segment row dek keyVersion token ∧
      state.segment.map (fun segment =>
        segment.synced (storedLastSyncedAt userId state.db) call.startedAt) = some segment ∧
      row.lastSyncedAt = some call.startedAt ∧ ∃ first, segment.firstRun = some first := by
  unfold HistoryInvariant at invariant
  cases before : state.segment with
  | none =>
      rw [before] at invariant
      obtain ⟨outcome, middle, synced, _⟩ :=
        sync_user_task_ok keys pydantic settings vendor draws userId call state.db db ran
      obtain ⟨connection, windows, holder, final, stages⟩ := sync_user_ok keys pydantic settings
        vendor draws userId call.startedAt state.db middle outcome synced
      obtain ⟨row, stored, _⟩ := read_connection_ok keys pydantic userId state.db connection
        stages.read
      rw [invariant] at stored
      cases stored
  | some segment =>
      rw [before] at invariant
      obtain ⟨row, dek, keyVersion, token, grounded⟩ := invariant
      obtain ⟨windows, row', synced⟩ := sync_user_task_connection keys pydantic settings vendor draws
        userId call state.db db row dek keyVersion segment.accountHash token grounded.stored
        grounded.current grounded.holds ran
      obtain ⟨token', holds⟩ := synced.holds
      obtain ⟨start, begins, spans, _⟩ := sync_windows_ok row.lastSyncedAt call.startedAt settings
        windows synced.planned
      have found : storedLastSyncedAt userId state.db = row.lastSyncedAt := by
        rw [storedLastSyncedAt, grounded.stored]
        rfl
      have current : currentDek keys db userId = .ok (dek, keyVersion) := by
        rw [current_dek_congr keys db state.db userId synced.sameKeys]
        exact grounded.current
      have fetched : fetchedFor (state.fetched ++
          requestedCalls keys pydantic settings userId call.startedAt state.db)
          segment.accountHash = fetchedFor state.fetched segment.accountHash ++ windows := by
        rw [synced.requested, fetched_for_append]
      rw [found]
      cases unsynced : segment.firstRun with
      | none =>
          have next : segment.synced row.lastSyncedAt call.startedAt =
              { segment with firstRun := some ⟨row.lastSyncedAt, call.startedAt⟩ } := by
            unfold Segment.synced
            rw [unsynced]
          refine ⟨_, row', dek, keyVersion, token', ⟨current, synced.stored, ?_, ?_, ?_⟩,
            congrArg some next, synced.stamped, _, rfl⟩
          · exact holds
          · exact fun _ _ => ⟨call.startedAt, synced.stamped⟩
          · intro last reached first isFirst
            rw [synced.stamped] at reached
            cases reached
            cases isFirst
            refine ⟨start, begins, ?_⟩
            show CoveredUpTo (fetchedFor _ segment.accountHash) start call.startedAt _
            rw [fetched]
            apply covered_up_to_more
            exact covered_up_to_first windows start call.startedAt _ spans id
      | some first =>
          have next : segment.synced row.lastSyncedAt call.startedAt = segment := by
            unfold Segment.synced
            rw [unsynced]
          refine ⟨segment, row', dek, keyVersion, token', ⟨current, synced.stored, holds, ?_, ?_⟩,
            congrArg some next, synced.stamped, first, unsynced⟩
          · exact fun _ _ => ⟨call.startedAt, synced.stamped⟩
          · intro last reached first' isFirst
            rw [synced.stamped] at reached
            cases reached
            obtain ⟨old, marked⟩ := grounded.marked first unsynced
            obtain ⟨anchor, anchored, covered⟩ := grounded.covered old marked first' isFirst
            refine ⟨anchor, anchored, ?_⟩
            rw [fetched]
            rw [marked] at begins
            exact covered_up_to_extend _ windows anchor old start call.startedAt _ covered
              (sync_start_overlaps settings old call.startedAt start overlap begins) spans

theorem callback_step (state next : History) (time : Instant) (draw : UpsertDraw)
    (exchangedToken : ExchangedToken) (accountHash : String)
    (stepped : step keys pydantic settings userId state
      (.callback time draw exchangedToken accountHash) = some next) :
    ∃ db, upsertConnection keys draw userId exchangedToken accountHash state.db = .ok db ∧
      next = { state with
               db := db, segment := some (Segment.store state.segment accountHash time) } := by
  simp only [step] at stepped
  cases ran : upsertConnection keys draw userId exchangedToken accountHash state.db with
  | error raised => simp [ran] at stepped
  | ok db =>
      simp only [ran, Option.some.injEq] at stepped
      exact ⟨db, rfl, stepped.symm⟩

theorem run_step (state next : History) (call : TaskCall) (vendor : VendorRun) (draws : SyncDraws)
    (stepped : step keys pydantic settings userId state (.run call vendor draws) = some next) :
    ∃ db, syncUserTask keys pydantic settings vendor draws userId call state.db =
        some (.ok (), db) ∧
      next = { db := db
               fetched := state.fetched ++
                 requestedCalls keys pydantic settings userId call.startedAt state.db
               segment := state.segment.map fun segment =>
                 segment.synced (storedLastSyncedAt userId state.db) call.startedAt } := by
  simp only [step] at stepped
  split at stepped
  · rename_i db ran
    exact ⟨db, ran, (Option.some.inj stepped).symm⟩
  · cases stepped

theorem history_step_keeps (overlap : 0 ≤ settings.schwabTxSyncOverlapDays) (state : History)
    (action : Action) (next : History) (invariant : HistoryInvariant keys settings userId state)
    (stepped : step keys pydantic settings userId state action = some next) :
    HistoryInvariant keys settings userId next := by
  cases action with
  | callback time draw exchangedToken accountHash =>
      obtain ⟨db, ran, shape⟩ := callback_step keys pydantic settings userId state next time draw
        exchangedToken accountHash stepped
      rw [shape]
      exact callback_keeps keys settings userId time draw exchangedToken accountHash state db
        invariant ran
  | run call vendor draws =>
      obtain ⟨db, ran, shape⟩ := run_step keys pydantic settings userId state next call vendor draws
        stepped
      obtain ⟨segment, row, dek, keyVersion, token, grounded, same, _⟩ := run_keeps_history keys
        pydantic settings userId overlap call vendor draws state db invariant ran
      rw [shape, same]
      exact ⟨row, dek, keyVersion, token, grounded⟩

/-- After every successful job the stored account has been fetched without a
hole from the start of the first job that succeeded for it, up to the sync
time. -/
theorem stored_account_is_fetched (overlap : 0 ≤ settings.schwabTxSyncOverlapDays)
    (actions : List Action) (call : TaskCall) (vendor : VendorRun) (draws : SyncDraws)
    (initial final : History) (fresh : Fresh userId initial)
    (ran : runFrom (step keys pydantic settings userId)
      (actions ++ [.run call vendor draws]) initial = some final) :
    ∃ segment first start, final.segment = some segment ∧ segment.firstRun = some first ∧
      storedAccountHash keys userId final.db = some segment.accountHash ∧
      storedLastSyncedAt userId final.db = some call.startedAt ∧
      syncStart first.lastSyncedAt first.now settings = .ok start ∧
      (first.lastSyncedAt = none →
        start = first.now - settings.schwabTxLookbackMaxDays * dayMicros) ∧
      ∀ moment, start ≤ moment → moment ≤ call.startedAt →
        moment < call.startedAt ∨ start ≠ first.now →
          ∃ window, (segment.accountHash, window) ∈ final.fetched ∧
            window.1 ≤ moment ∧ moment ≤ window.2 := by
  obtain ⟨middle, before, last⟩ := run_from_concat _ actions _ initial final ran
  have start : HistoryInvariant keys settings userId initial := by
    unfold HistoryInvariant
    rw [fresh.2.2]
    exact fresh.1
  have meets : Meets (step keys pydantic settings userId) (fun _ _ => True) actions initial :=
    meets_trivial _ actions initial
  have invariant := run_keeps (step keys pydantic settings userId) (fun _ _ => True)
    (HistoryInvariant keys settings userId)
    (fun state action next held _ stepped =>
      history_step_keeps keys pydantic settings userId overlap state action next held stepped)
    actions initial middle start meets before
  obtain ⟨db, task, shape⟩ := run_step keys pydantic settings userId middle final call vendor draws
    last
  obtain ⟨segment, row, dek, keyVersion, token, grounded, same, stamped, first, isFirst⟩ :=
    run_keeps_history keys pydantic settings userId overlap call vendor draws middle db invariant
      task
  obtain ⟨anchor, anchored, covered⟩ := grounded.covered call.startedAt stamped first isFirst
  rw [shape, same]
  refine ⟨segment, first, anchor, rfl, isFirst, ?_, ?_, anchored, ?_, ?_⟩
  · exact stored_account_hash_of_holds keys db userId row dek keyVersion segment.accountHash token
      grounded.stored grounded.current grounded.holds
  · exact (congrArg (fun found => found.bind SchwabConnection.lastSyncedAt) grounded.stored).trans
      stamped
  · intro firstConnect
    rw [firstConnect] at anchored
    exact days_before_eq _ _ _ anchored
  · intro moment after before kept
    exact (covers_fetched_iff _ _ moment).mp (covered moment after before kept)

/-! ## Two short histories -/

def connect (day : Int) (accountHash : String) : Action :=
  .callback (day * dayMicros) ⟨[1], [2]⟩ ⟨.str accountHash, day * dayMicros⟩ accountHash

def syncOn (day : Int) : Action :=
  .run ⟨day * dayMicros, day * dayMicros, .scheduled⟩ (answering []) plainDraws

def newUser : History := ⟨provisionedUser, [], none⟩

/-- An account that replaced another one, reached from its first job on. -/
theorem stored_account_is_fetched_switch :
    ∃ final segment first start, runFrom (step plainKeys plainPydantic {} ⟨1⟩)
        ([connect 20000 "first", syncOn 20001, connect 20002 "second"] ++ [syncOn 20003]) newUser =
          some final ∧
      final.segment = some segment ∧ segment.firstRun = some first ∧
      storedAccountHash plainKeys ⟨1⟩ final.db = some segment.accountHash ∧
      syncStart first.lastSyncedAt first.now {} = .ok start ∧
      ∀ moment, start ≤ moment → moment < 20003 * dayMicros →
        ∃ window, (segment.accountHash, window) ∈ final.fetched ∧
          window.1 ≤ moment ∧ moment ≤ window.2 := by
  have returns : (runFrom (step plainKeys plainPydantic {} ⟨1⟩)
      ([connect 20000 "first", syncOn 20001, connect 20002 "second"] ++ [syncOn 20003])
      newUser).isSome = true := by decide +kernel
  obtain ⟨final, ran⟩ := Option.isSome_iff_exists.mp returns
  obtain ⟨segment, first, start, stored, isFirst, account, _, begins, _, covered⟩ :=
    stored_account_is_fetched plainKeys plainPydantic {} ⟨1⟩ (by decide)
      [connect 20000 "first", syncOn 20001, connect 20002 "second"]
      ⟨20003 * dayMicros, 20003 * dayMicros, .scheduled⟩ (answering []) plainDraws newUser final
      ⟨rfl, rfl, rfl⟩ ran
  refine ⟨final, segment, first, start, ran, stored, isFirst, account, begins, ?_⟩
  intro moment after before
  exact covered moment after (le_of_lt before) (Or.inl before)

/-- A moment of the lookback before the storing callback, not after the sync
time, that was never fetched for the stored account. -/
def backfillMissed (lookback : Int) (final : History) (moment : Instant) : Bool :=
  match final.segment, storedLastSyncedAt ⟨1⟩ final.db with
  | some segment, some last =>
      storedAccountHash plainKeys ⟨1⟩ final.db = some segment.accountHash ∧
        segment.storedAt - lookback * dayMicros ≤ moment ∧ moment ≤ last ∧
        ¬Covers (fetchedFor final.fetched segment.accountHash) moment
  | _, _ => false

/-- The lookback counts from the job, not from the callback the day before
it; and an account stored after a successful job is not looked back for. -/
theorem lookback_misses_the_callback :
    (runFrom (step plainKeys plainPydantic {} ⟨1⟩) [connect 20000 "first", syncOn 20001]
        newUser).any (backfillMissed 365 · (19635 * dayMicros)) = true ∧
      (runFrom (step plainKeys plainPydantic {} ⟨1⟩)
        [connect 20000 "first", syncOn 20001, connect 20002 "second", syncOn 20003]
        newUser).any (backfillMissed 365 · (19990 * dayMicros)) = true := by
  decide +kernel

end Morai.Worker.AccountHistory
