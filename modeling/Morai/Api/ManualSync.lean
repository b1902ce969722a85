import Mathlib.Logic.Function.Basic
import Morai.Api.SyncRuns
import Morai.Foundation.Runs
import Mathlib.Tactic.Linarith

/-!
# Manual syncs of one user

`POST /schwab/sync` reads the most recent `sync_runs` row, compares its start
with the clock and then defers a job. A row appears when a run is over, so
between the deferral of a job and its row the cooldown does not see it.
-/

namespace Morai.Api.ManualSync

open Morai.Crypto Morai.Db Morai.Python Morai.Foundation.Runs Morai.Vendor.Connections
open Morai.Worker.SyncUserTask Morai.Api.SyncRuns

set_option autoImplicit false

/-- A `sync_user` job as it was deferred. -/
structure Deferral where
  trigger : SyncTrigger
  deferredAt : Instant
  deriving DecidableEq, Repr

/-- Where a job stands: in the queue, run by a worker, recorded in `sync_runs`,
or gone without a row. -/
inductive Stage where
  | queued
  | running (startedAt : Instant)
  | recorded (startedAt : Instant)
  | lost
  deriving DecidableEq, Repr

def Stage.isRecorded : Stage → Bool
  | .recorded _ => true
  | _ => false

/-- A request of the route between its statements: it has read the most recent
run, or it has passed the cooldown. `stagesThen` is where the jobs stood when
it read. -/
inductive Request where
  | read (recent : Option Instant) (stagesThen : Nat → Stage)
  | cleared (stagesThen : Nat → Stage)

/-- A job's number is its place in `deferrals`. -/
structure State where
  now : Instant
  db : Database
  deferrals : List Deferral
  stages : Nat → Stage
  requests : Nat → Option Request

inductive Action where
  | tick (now : Instant)
  | read (id : Nat)
  | compare (id : Nat)
  | defer (id : Nat)
  | abandon (id : Nat)
  | deferScheduled
  | start (job : Nat)
  | record (job : Nat) (status : SyncStatus) (fillsLanded brokerTransactionsLanded : Option Nat)
      (errorCode : Option SyncError)
  | lose (job : Nat)
  | elsewhere (db : Database)

/-- `timedelta(seconds=seconds)`; `none` is `OverflowError`. -/
def timedeltaSeconds (seconds : Int) : Option Int :=
  if -999999999 * 86400 ≤ seconds ∧ seconds < 1000000000 * 86400 then some (seconds * 1000000)
  else none

/-- `if recent and datetime.now(UTC) - recent[0].started_at < cooldown`. -/
def coolingDown (cooldown : Int) (now : Instant) : Option Instant → Bool
  | none => false
  | some startedAt => now - startedAt < cooldown

section System

variable (keys : KeyService) (pydantic : Pydantic) (order : ScanOrder SyncRun)
  (cooldownSeconds : Int) (userId : Uuid)

/-- The route up to the comparison; `none` when it answers without deferring. -/
def readRecent (db : Database) : Option (Option Instant) :=
  match readConnection keys pydantic userId db with
  | .ok (some _) =>
      match readSyncRuns order userId 1 db with
      | .ok records => some (records.head?.map SyncRunRecord.startedAt)
      | .error _ => none
  | _ => none

def defer (trigger : SyncTrigger) (state : State) : State :=
  { state with deferrals := state.deferrals ++ [⟨trigger, state.now⟩] }

def setStage (job : Nat) (stage : Stage) (state : State) : State :=
  { state with stages := Function.update state.stages job stage }

def setRequest (id : Nat) (request : Option Request) (state : State) : State :=
  { state with requests := Function.update state.requests id request }

/-- The run of a job ends with its row. -/
def recordRun (job : Nat) (deferral : Deferral) (startedAt : Instant) (status : SyncStatus)
    (fillsLanded brokerTransactionsLanded : Option Nat) (errorCode : Option SyncError)
    (state : State) : State :=
  let call : TaskCall := ⟨startedAt, state.now, deferral.trigger⟩
  setStage job (.recorded startedAt) { state with
    db := recordSyncRun userId call status fillsLanded brokerTransactionsLanded errorCode state.db }

/-- Whoever is next: the clock, a statement of a request, the scheduler, a
worker, or a commit of something else that leaves this user's runs alone. -/
def step (state : State) : Action → Option State
  | .tick now => if state.now ≤ now then some { state with now := now } else none
  | .read id =>
      match state.requests id with
      | none => (readRecent keys pydantic order userId state.db).map fun recent =>
          setRequest id (some (.read recent state.stages)) state
      | some _ => none
  | .compare id =>
      match state.requests id, timedeltaSeconds cooldownSeconds with
      | some (.read recent stagesThen), some cooldown =>
          if coolingDown cooldown state.now recent then some (setRequest id none state)
          else some (setRequest id (some (.cleared stagesThen)) state)
      | _, _ => none
  | .defer id =>
      match state.requests id with
      | some (.cleared _) => some (setRequest id none (defer .manual state))
      | _ => none
  | .abandon id => some (setRequest id none state)
  | .deferScheduled => some (defer .scheduled state)
  | .start job =>
      if job < state.deferrals.length ∧ state.stages job = .queued then
        some (setStage job (.running state.now) state)
      else none
  | .record job status fillsLanded brokerTransactionsLanded errorCode =>
      match state.deferrals[job]?, state.stages job with
      | some deferral, .running startedAt =>
          some (recordRun userId job deferral startedAt status fillsLanded brokerTransactionsLanded
            errorCode state)
      | _, _ => none
  | .lose job =>
      if job < state.deferrals.length ∧ (state.stages job).isRecorded = false then
        some (setStage job .lost state)
      else none
  | .elsewhere db =>
      if syncRunsOf db userId = syncRunsOf state.db userId then some { state with db := db }
      else none

/-- Nothing deferred yet and no request open; the clock, the connection and
the runs recorded so far are anything. -/
def start (now : Instant) (db : Database) : State :=
  ⟨now, db, [], fun _ => .queued, fun _ => none⟩

end System

def cooldownMicros (cooldownSeconds : Int) : Int := cooldownSeconds * 1000000

def manualTimes (deferrals : List Deferral) : List Instant :=
  (deferrals.filter fun deferral => deferral.trigger = .manual).map Deferral.deferredAt

/-- Any two manual jobs were deferred at least the cooldown apart. -/
def Spaced (cooldown : Int) (times : List Instant) : Prop :=
  times.Pairwise fun earlier later => earlier + cooldown ≤ later

instance decidableSpaced (cooldown : Int) (times : List Instant) :
    Decidable (Spaced cooldown times) :=
  inferInstanceAs (Decidable (times.Pairwise _))

/-- Every manual job deferred less than the cooldown ago had its row when the
request about to defer read the runs. -/
def SeenByRequest (cooldown : Int) (now : Instant) (deferrals : List Deferral) :
    Option Request → Prop
  | some (.cleared stagesThen) => ∀ deferral ∈ deferrals.zipIdx, deferral.1.trigger = .manual →
      now < deferral.1.deferredAt + cooldown → (stagesThen deferral.2).isRecorded = true
  | _ => True

instance decidableSeenByRequest (cooldown : Int) (now : Instant) (deferrals : List Deferral) :
    ∀ request, Decidable (SeenByRequest cooldown now deferrals request)
  | some (.cleared stagesThen) => inferInstanceAs (Decidable (∀ deferral ∈ deferrals.zipIdx,
      deferral.1.trigger = .manual → now < deferral.1.deferredAt + cooldown →
        (stagesThen deferral.2).isRecorded = true))
  | some (.read _ _) | none => isTrue trivial

def RecordedWhenRead (cooldown : Int) (state : State) : Action → Prop
  | .defer id => SeenByRequest cooldown state.now state.deferrals (state.requests id)
  | _ => True

instance decidableRecordedWhenRead (cooldown : Int) (state : State) :
    ∀ action, Decidable (RecordedWhenRead cooldown state action)
  | .defer id => inferInstanceAs (Decidable
      (SeenByRequest cooldown state.now state.deferrals (state.requests id)))
  | .tick _ | .read _ | .compare _ | .abandon _ | .deferScheduled | .start _ | .record _ _ _ _ _
  | .lose _ | .elsewhere _ => isTrue trivial

/-! ## What a request knows of the jobs -/

/-- A request that read the row of a job knows a start no earlier than the
job's deferral; once cleared, the deferral is the cooldown ago. -/
def RequestSound (cooldown : Int) (now : Instant) (deferrals : List Deferral) : Request → Prop
  | .read recent stagesThen => ∀ job, (stagesThen job).isRecorded = true →
      ∃ deferral, deferrals[job]? = some deferral ∧
        ∃ startedAt, recent = some startedAt ∧ deferral.deferredAt ≤ startedAt
  | .cleared stagesThen => ∀ job, (stagesThen job).isRecorded = true →
      ∃ deferral, deferrals[job]? = some deferral ∧ deferral.deferredAt + cooldown ≤ now

structure Invariant (cooldown : Int) (userId : Uuid) (state : State) : Prop where
  deferred : ∀ deferral ∈ state.deferrals, deferral.deferredAt ≤ state.now
  started : ∀ job deferral startedAt, state.deferrals[job]? = some deferral →
    state.stages job = .running startedAt ∨ state.stages job = .recorded startedAt →
      deferral.deferredAt ≤ startedAt
  rows : ∀ job startedAt, state.stages job = .recorded startedAt →
    ∃ row ∈ syncRunsOf state.db userId, row.startedAt = startedAt
  fresh : ∀ job, state.deferrals.length ≤ job → state.stages job = .queued
  known : ∀ id request, state.requests id = some request →
    RequestSound cooldown state.now state.deferrals request

theorem request_sound_later (cooldown : Int) (now later : Instant) (deferrals added : List Deferral)
    (request : Request) (order : now ≤ later) (sound : RequestSound cooldown now deferrals request) :
    RequestSound cooldown later (deferrals ++ added) request := by
  have stays : ∀ (job : Nat) (deferral : Deferral), deferrals[job]? = some deferral →
      (deferrals ++ added)[job]? = some deferral := by
    intro job deferral found
    have bound := (List.getElem?_eq_some_iff.mp found).1
    rw [List.getElem?_append_left bound, found]
  cases request with
  | read recent stagesThen =>
      intro job recorded
      obtain ⟨deferral, found, startedAt, same, bound⟩ := sound job recorded
      exact ⟨deferral, stays job deferral found, startedAt, same, bound⟩
  | cleared stagesThen =>
      intro job recorded
      obtain ⟨deferral, found, bound⟩ := sound job recorded
      exact ⟨deferral, stays job deferral found, le_trans bound order⟩

section Steps

variable (keys : KeyService) (pydantic : Pydantic) (order : ScanOrder SyncRun)
  (cooldownSeconds : Int) (userId : Uuid)

/-- What the route reads is no older than any run of the user. -/
theorem read_recent_latest (db : Database) (recent : Option Instant)
    (read : readRecent keys pydantic order userId db = some recent) :
    ∀ row ∈ syncRunsOf db userId, ∃ startedAt, recent = some startedAt ∧
      row.startedAt ≤ startedAt := by
  unfold readRecent at read
  split at read
  · split at read
    · rename_i records ran
      cases read
      intro row member
      obtain ⟨first, head, bound⟩ := read_sync_runs_latest order userId db records ran row member
      exact ⟨first.startedAt, by rw [head]; rfl, bound⟩
    · cases read
  · cases read

/-- A comparison that passes clears the request. -/
theorem cleared_sound (now : Instant) (deferrals : List Deferral) (recent : Option Instant)
    (stagesThen : Nat → Stage) (cooldown : Int) (passed : coolingDown cooldown now recent = false)
    (sound : RequestSound cooldown now deferrals (.read recent stagesThen)) :
    RequestSound cooldown now deferrals (.cleared stagesThen) := by
  intro job recorded
  obtain ⟨deferral, found, startedAt, same, bound⟩ := sound job recorded
  refine ⟨deferral, found, ?_⟩
  rw [same] at passed
  have elapsed : ¬now - startedAt < cooldown := by simpa [coolingDown] using passed
  linarith

theorem timedelta_seconds_eq (cooldown : Int)
    (made : timedeltaSeconds cooldownSeconds = some cooldown) :
    cooldown = cooldownMicros cooldownSeconds := by
  unfold timedeltaSeconds at made
  split_ifs at made
  exact (Option.some.inj made).symm

variable (cooldown : Int) (state : State)

theorem invariant_set_request (id : Nat) (request : Option Request)
    (invariant : Invariant cooldown userId state)
    (sound : ∀ found, request = some found →
      RequestSound cooldown state.now state.deferrals found) :
    Invariant cooldown userId (setRequest id request state) := by
  refine ⟨invariant.deferred, invariant.started, invariant.rows, invariant.fresh, ?_⟩
  intro other found present
  by_cases same : other = id
  · subst same
    simp only [setRequest, Function.update_self] at present
    exact sound found present
  · simp only [setRequest, Function.update_of_ne same] at present
    exact invariant.known other found present

theorem invariant_tick (now : Instant) (later : state.now ≤ now)
    (invariant : Invariant cooldown userId state) :
    Invariant cooldown userId { state with now := now } := by
  refine ⟨?_, invariant.started, invariant.rows, invariant.fresh, ?_⟩
  · intro deferral member
    exact le_trans (invariant.deferred deferral member) later
  · intro id request present
    have sound := request_sound_later cooldown state.now now state.deferrals [] request later
      (invariant.known id request present)
    rwa [List.append_nil] at sound

theorem invariant_defer (trigger : SyncTrigger) (invariant : Invariant cooldown userId state) :
    Invariant cooldown userId (defer trigger state) := by
  refine ⟨?_, ?_, invariant.rows, ?_, ?_⟩
  · intro deferral member
    cases List.mem_append.mp member with
    | inl old => exact invariant.deferred deferral old
    | inr new =>
        rw [List.mem_singleton.mp new]
        exact le_refl state.now
  · intro job deferral startedAt found stage
    by_cases old : job < state.deferrals.length
    · have stored : state.deferrals[job]? = some deferral := by
        rw [← found]
        exact (List.getElem?_append_left old).symm
      exact invariant.started job deferral startedAt stored stage
    · have bound := (List.getElem?_eq_some_iff.mp found).1
      simp only [defer, List.length_append, List.length_singleton] at bound
      have last : job = state.deferrals.length := by omega
      have queued : (defer trigger state).stages job = .queued := by
        rw [last]
        exact invariant.fresh _ (le_refl _)
      rw [queued] at stage
      cases stage with
      | inl running => cases running
      | inr recorded => cases recorded
  · intro job beyond
    simp only [defer, List.length_append] at beyond
    exact invariant.fresh job (by omega)
  · intro id request present
    exact request_sound_later cooldown state.now state.now state.deferrals [⟨trigger, state.now⟩]
      request (le_refl state.now) (invariant.known id request present)

/-- A job may move on to a stage that bears out what is said of it. -/
theorem invariant_set_stage (job : Nat) (stage : Stage)
    (invariant : Invariant cooldown userId state) (bound : job < state.deferrals.length)
    (starts : ∀ deferral startedAt, state.deferrals[job]? = some deferral →
      stage = .running startedAt ∨ stage = .recorded startedAt → deferral.deferredAt ≤ startedAt)
    (written : ∀ startedAt, stage = .recorded startedAt →
      ∃ row ∈ syncRunsOf state.db userId, row.startedAt = startedAt) :
    Invariant cooldown userId (setStage job stage state) := by
  refine ⟨invariant.deferred, ?_, ?_, ?_, invariant.known⟩
  · intro other deferral startedAt found reached
    by_cases same : other = job
    · subst same
      simp only [setStage, Function.update_self] at reached
      exact starts deferral startedAt found reached
    · simp only [setStage, Function.update_of_ne same] at reached
      exact invariant.started other deferral startedAt found reached
  · intro other startedAt reached
    by_cases same : other = job
    · subst same
      simp only [setStage, Function.update_self] at reached
      exact written startedAt reached
    · simp only [setStage, Function.update_of_ne same] at reached
      exact invariant.rows other startedAt reached
  · intro other beyond
    have apart : other ≠ job := Nat.ne_of_gt (Nat.lt_of_lt_of_le bound beyond)
    simp only [setStage, Function.update_of_ne apart]
    exact invariant.fresh other beyond

/-- A database that keeps the user's runs bears out as much. -/
theorem invariant_elsewhere (db : Database) (invariant : Invariant cooldown userId state)
    (kept : ∀ row ∈ syncRunsOf state.db userId, row ∈ syncRunsOf db userId) :
    Invariant cooldown userId { state with db := db } := by
  refine ⟨invariant.deferred, invariant.started, ?_, invariant.fresh, invariant.known⟩
  intro job startedAt stage
  obtain ⟨row, member, rowStart⟩ := invariant.rows job startedAt stage
  exact ⟨row, kept row member, rowStart⟩

theorem invariant_start_job (job : Nat) (bound : job < state.deferrals.length)
    (invariant : Invariant cooldown userId state) :
    Invariant cooldown userId (setStage job (.running state.now) state) := by
  apply invariant_set_stage userId cooldown state job _ invariant bound
  · intro deferral startedAt found running
    cases running with
    | inl same =>
        cases same
        exact invariant.deferred deferral (List.mem_of_getElem? found)
    | inr impossible => cases impossible
  · intro startedAt impossible
    cases impossible

theorem invariant_lose (job : Nat) (bound : job < state.deferrals.length)
    (invariant : Invariant cooldown userId state) :
    Invariant cooldown userId (setStage job .lost state) := by
  apply invariant_set_stage userId cooldown state job _ invariant bound
  · intro deferral startedAt found impossible
    cases impossible with
    | inl running => cases running
    | inr recorded => cases recorded
  · intro startedAt impossible
    cases impossible

theorem invariant_record (job : Nat) (deferral : Deferral) (startedAt : Instant)
    (status : SyncStatus) (fillsLanded brokerTransactionsLanded : Option Nat)
    (errorCode : Option SyncError) (invariant : Invariant cooldown userId state)
    (found : state.deferrals[job]? = some deferral) (running : state.stages job = .running startedAt) :
    Invariant cooldown userId (recordRun userId job deferral startedAt status fillsLanded
      brokerTransactionsLanded errorCode state) := by
  have bound := (List.getElem?_eq_some_iff.mp found).1
  have grown := invariant_elsewhere userId cooldown state (recordSyncRun userId
    ⟨startedAt, state.now, deferral.trigger⟩ status fillsLanded brokerTransactionsLanded errorCode
    state.db) invariant (by
      intro row member
      simp only [recordSyncRun, syncRunsOf, List.filter_append, List.mem_append]
      exact Or.inl member)
  apply invariant_set_stage userId cooldown _ job _ grown bound
  · intro otherDeferral otherStart otherFound recorded
    cases recorded with
    | inl impossible => cases impossible
    | inr same =>
        cases same
        exact invariant.started job otherDeferral startedAt otherFound (Or.inl running)
  · intro otherStart same
    cases same
    simp [recordSyncRun, syncRunsOf, List.filter_append]

theorem invariant_request_closed (id : Nat) (invariant : Invariant cooldown userId state) :
    Invariant cooldown userId (setRequest id none state) := by
  apply invariant_set_request userId cooldown state id none invariant
  intro found closed
  cases closed

/-- What a request reads is at least the start of every job recorded by then. -/
theorem recent_sound (recent : Option Instant) (invariant : Invariant cooldown userId state)
    (read : readRecent keys pydantic order userId state.db = some recent) :
    RequestSound cooldown state.now state.deferrals (.read recent state.stages) := by
  intro job recorded
  cases stage : state.stages job with
  | recorded startedAt =>
      have bound : job < state.deferrals.length := by
        by_contra beyond
        have queued := invariant.fresh job (by omega)
        rw [stage] at queued
        cases queued
      obtain ⟨row, member, rowStart⟩ := invariant.rows job startedAt stage
      obtain ⟨latest, isLatest, noOlder⟩ := read_recent_latest keys pydantic order userId
        state.db recent read row member
      have found := List.getElem?_eq_getElem bound
      have after := invariant.started job _ startedAt found (Or.inr stage)
      exact ⟨_, found, latest, isLatest, le_trans (rowStart ▸ after) noOlder⟩
  | _ =>
      rw [stage] at recorded
      cases recorded

theorem invariant_step (action : Action) (next : State)
    (invariant : Invariant (cooldownMicros cooldownSeconds) userId state)
    (stepped : step keys pydantic order cooldownSeconds userId state action = some next) :
    Invariant (cooldownMicros cooldownSeconds) userId next := by
  cases action with
  | tick now =>
      simp only [step] at stepped
      split_ifs at stepped with later
      cases stepped
      exact invariant_tick userId _ state now later invariant
  | read id =>
      simp only [step] at stepped
      split at stepped
      · obtain ⟨recent, read, shape⟩ := Option.map_eq_some_iff.mp stepped
        rw [← shape]
        apply invariant_set_request userId _ state id _ invariant
        intro found same
        cases same
        exact recent_sound keys pydantic order userId _ state recent invariant read
      · cases stepped
  | compare id =>
      simp only [step] at stepped
      split at stepped
      · rename_i recent stagesThen cooldown present made
        have same := timedelta_seconds_eq cooldownSeconds cooldown made
        split_ifs at stepped with cooling
        · cases stepped
          exact invariant_request_closed userId _ state id invariant
        · cases stepped
          apply invariant_set_request userId _ state id _ invariant
          intro found cleared
          cases cleared
          apply cleared_sound state.now state.deferrals recent stagesThen _ _
            (invariant.known id _ present)
          rw [← same]
          exact eq_false_of_ne_true cooling
      · cases stepped
  | defer id =>
      simp only [step] at stepped
      split at stepped
      · cases stepped
        exact invariant_request_closed userId _ (defer .manual state) id
          (invariant_defer userId _ state .manual invariant)
      · cases stepped
  | abandon id =>
      cases stepped
      exact invariant_request_closed userId _ state id invariant
  | deferScheduled =>
      cases stepped
      exact invariant_defer userId _ state .scheduled invariant
  | start job =>
      simp only [step] at stepped
      split_ifs at stepped with queued
      cases stepped
      exact invariant_start_job userId _ state job queued.1 invariant
  | record job status fillsLanded brokerTransactionsLanded errorCode =>
      simp only [step] at stepped
      split at stepped
      · rename_i deferral startedAt found running
        cases stepped
        exact invariant_record userId _ state job deferral startedAt status fillsLanded
          brokerTransactionsLanded errorCode invariant found running
      · cases stepped
  | lose job =>
      simp only [step] at stepped
      split_ifs at stepped with open_
      cases stepped
      exact invariant_lose userId _ state job open_.1 invariant
  | elsewhere db =>
      simp only [step] at stepped
      split_ifs at stepped with same
      cases stepped
      exact invariant_elsewhere userId _ state db invariant fun row member => same ▸ member

/-- A step defers nothing, a scheduled job, or the manual job of a cleared
request. -/
inductive DeferralMove (next : State) : Action → Prop
  | kept (action : Action) (orderly : RecordedWhenRead cooldown state action)
      (same : manualTimes next.deferrals = manualTimes state.deferrals) : DeferralMove next action
  | manual (id : Nat) (stagesThen : Nat → Stage)
      (cleared : state.requests id = some (.cleared stagesThen))
      (added : manualTimes next.deferrals = manualTimes state.deferrals ++ [state.now]) :
      DeferralMove next (.defer id)

theorem deferral_move (action : Action) (next : State)
    (stepped : step keys pydantic order cooldownSeconds userId state action = some next) :
    DeferralMove cooldown state next action := by
  cases action with
  | defer id =>
      simp only [step] at stepped
      split at stepped
      · rename_i stagesThen cleared
        cases stepped
        refine DeferralMove.manual id stagesThen cleared ?_
        simp [setRequest, defer, manualTimes, List.filter_append]
      · cases stepped
  | deferScheduled =>
      cases stepped
      refine DeferralMove.kept _ trivial ?_
      simp [defer, manualTimes, List.filter_append]
  | read id =>
      simp only [step] at stepped
      split at stepped
      · obtain ⟨recent, _, shape⟩ := Option.map_eq_some_iff.mp stepped
        rw [← shape]
        exact DeferralMove.kept _ trivial rfl
      · cases stepped
  | compare id =>
      simp only [step] at stepped
      split at stepped
      · split_ifs at stepped <;> cases stepped <;> exact DeferralMove.kept _ trivial rfl
      · cases stepped
  | record job status fillsLanded brokerTransactionsLanded errorCode =>
      simp only [step] at stepped
      split at stepped
      · cases stepped
        exact DeferralMove.kept _ trivial rfl
      · cases stepped
  | abandon id =>
      cases stepped
      exact DeferralMove.kept _ trivial rfl
  | _ =>
      simp only [step] at stepped
      split_ifs at stepped
      cases stepped
      exact DeferralMove.kept _ trivial rfl

/-- For a cleared request to have seen every young job is for there to be
none. -/
theorem seen_iff (id : Nat) (stagesThen : Nat → Stage)
    (invariant : Invariant cooldown userId state)
    (cleared : state.requests id = some (.cleared stagesThen)) :
    SeenByRequest cooldown state.now state.deferrals (state.requests id) ↔
      ∀ deferredAt ∈ manualTimes state.deferrals, deferredAt + cooldown ≤ state.now := by
  rw [cleared]
  constructor
  · intro seen deferredAt member
    obtain ⟨deferral, manual, sameTime⟩ := List.mem_map.mp member
    obtain ⟨stored, isManual⟩ := List.mem_filter.mp manual
    by_contra young
    obtain ⟨job, bound, place⟩ := List.mem_iff_getElem.mp stored
    have found : state.deferrals[job]? = some deferral := by
      rw [List.getElem?_eq_getElem bound, place]
    have indexed : (deferral, job) ∈ state.deferrals.zipIdx :=
      List.mk_mem_zipIdx_iff_getElem?.mpr found
    have recorded := seen (deferral, job) indexed (of_decide_eq_true isManual)
      (sameTime ▸ not_le.mp young)
    obtain ⟨known, sameDeferral, old⟩ := invariant.known id _ cleared job recorded
    rw [found] at sameDeferral
    cases sameDeferral
    exact young (sameTime ▸ old)
  · intro old deferral member manual young
    have found := List.mk_mem_zipIdx_iff_getElem?.mp member
    have stored : deferral.1.deferredAt ∈ manualTimes state.deferrals :=
      List.mem_map.mpr ⟨deferral.1, List.mem_filter.mpr ⟨List.mem_of_getElem? found,
        decide_eq_true manual⟩, rfl⟩
    exact absurd young (not_lt.mpr (old _ stored))

theorem spaced_concat (times : List Instant) (now : Instant) (spaced : Spaced cooldown times) :
    Spaced cooldown (times ++ [now]) ↔ ∀ time ∈ times, time + cooldown ≤ now := by
  unfold Spaced at spaced ⊢
  rw [List.pairwise_append]
  simp [spaced]

/-- A step keeps the manual jobs spaced exactly when the request that defers,
if one does, saw the young ones. -/
theorem spaced_step (action : Action) (next : State) (invariant : Invariant cooldown userId state)
    (spaced : Spaced cooldown (manualTimes state.deferrals))
    (stepped : step keys pydantic order cooldownSeconds userId state action = some next) :
    Spaced cooldown (manualTimes next.deferrals) ↔ RecordedWhenRead cooldown state action := by
  cases deferral_move keys pydantic order cooldownSeconds userId cooldown state action next
      stepped with
  | kept _ orderly same =>
      rw [same]
      exact iff_of_true spaced orderly
  | manual id stagesThen cleared added =>
      rw [added, spaced_concat cooldown _ _ spaced]
      exact (seen_iff userId cooldown state id stagesThen invariant cleared).symm

theorem crowded_step (action : Action) (next : State)
    (crowded : ¬Spaced cooldown (manualTimes state.deferrals))
    (stepped : step keys pydantic order cooldownSeconds userId state action = some next) :
    ¬Spaced cooldown (manualTimes next.deferrals) := by
  cases deferral_move keys pydantic order cooldownSeconds userId cooldown state action next
      stepped with
  | kept _ _ same =>
      rw [same]
      exact crowded
  | manual id stagesThen cleared added =>
      rw [added]
      exact fun spaced => crowded (spaced.sublist (List.sublist_append_left _ _))

end Steps

theorem invariant_start (cooldown : Int) (userId : Uuid) (now : Instant) (db : Database) :
    Invariant cooldown userId (start now db) := by
  refine ⟨?_, ?_, ?_, fun _ _ => rfl, ?_⟩
  · intro deferral member
    cases member
  · intro job deferral startedAt found
    simp [start] at found
  · intro job startedAt stage
    cases stage
  · intro id request present
    cases present

/-- Over every interleaving of one user's requests with the clock, the
scheduler and the workers, any two manual jobs are deferred at least the
cooldown apart exactly when, at each deferral, every manual job deferred less
than the cooldown ago already had its row when the request read the runs. -/
theorem manual_syncs_spaced_iff (keys : KeyService) (pydantic : Pydantic)
    (order : ScanOrder SyncRun) (cooldownSeconds : Int) (userId : Uuid) (now : Instant)
    (db : Database) (actions : List Action) (final : State)
    (ran : runFrom (step keys pydantic order cooldownSeconds userId) actions (start now db) =
      some final) :
    Spaced (cooldownMicros cooldownSeconds) (manualTimes final.deferrals) ↔
      Meets (step keys pydantic order cooldownSeconds userId)
        (RecordedWhenRead (cooldownMicros cooldownSeconds)) actions (start now db) := by
  let cooldown := cooldownMicros cooldownSeconds
  have keeps := fun state action next invariant stepped =>
    invariant_step keys pydantic order cooldownSeconds userId state action next invariant stepped
  have split := run_splits (step keys pydantic order cooldownSeconds userId)
    (RecordedWhenRead cooldown)
    (fun state => Invariant cooldown userId state ∧ Spaced cooldown (manualTimes state.deferrals))
    (fun state => Invariant cooldown userId state ∧ ¬Spaced cooldown (manualTimes state.deferrals))
    (fun state action next holds seen stepped => ⟨keeps state action next holds.1 stepped,
      (spaced_step keys pydantic order cooldownSeconds userId cooldown state action next holds.1
        holds.2 stepped).mpr seen⟩)
    (fun state action next holds unseen stepped => ⟨keeps state action next holds.1 stepped,
      (spaced_step keys pydantic order cooldownSeconds userId cooldown state action next holds.1
        holds.2 stepped).not.mpr unseen⟩)
    (fun state action next holds stepped => ⟨keeps state action next holds.1 stepped,
      crowded_step keys pydantic order cooldownSeconds userId cooldown state action next holds.2
        stepped⟩)
    actions (start now db) final
    ⟨invariant_start cooldown userId now db, List.Pairwise.nil⟩ ran
  cases split with
  | inl seen => exact iff_of_true seen.2.2 seen.1
  | inr unseen => exact iff_of_false unseen.2.2 unseen.1

/-! ## Requests one at a time -/

/-- A request reads while no other is under way and every manual job has its
row. -/
def ReadsAlone (state : State) : Action → Prop
  | .read _ => (∀ id, state.requests id = none) ∧ ∀ deferral ∈ state.deferrals.zipIdx,
      deferral.1.trigger = .manual → (state.stages deferral.2).isRecorded = true
  | _ => True

/-- Where the jobs stood when the request read. -/
def Request.stagesThen : Request → Nat → Stage
  | .read _ stagesThen | .cleared stagesThen => stagesThen

/-- At most one request is under way, and it has seen the row of every manual
job. -/
structure OneSettled (state : State) : Prop where
  alone : ∀ left right, state.requests left ≠ none → state.requests right ≠ none → left = right
  saw : ∀ id request, state.requests id = some request → ∀ deferral ∈ state.deferrals.zipIdx,
    deferral.1.trigger = .manual → (request.stagesThen deferral.2).isRecorded = true

section Settled

variable (keys : KeyService) (pydantic : Pydantic) (order : ScanOrder SyncRun)
  (cooldownSeconds : Int) (userId : Uuid) (state : State)

/-- Nothing changes for the requests under way where none opens and no manual
job is deferred. -/
theorem settled_quiet (next : State) (settled : OneSettled state)
    (closes : ∀ id request, next.requests id = some request → ∃ before,
      state.requests id = some before ∧ before.stagesThen = request.stagesThen)
    (deferred : ∀ deferral ∈ next.deferrals.zipIdx, deferral.1.trigger = .manual →
      deferral ∈ state.deferrals.zipIdx) : OneSettled next := by
  have stays : ∀ id, next.requests id ≠ none → state.requests id ≠ none := by
    intro id present
    obtain ⟨request, found⟩ := Option.ne_none_iff_exists'.mp present
    obtain ⟨before, earlier, _⟩ := closes id request found
    rw [earlier]
    exact Option.some_ne_none before
  constructor
  · intro left right leftPresent rightPresent
    exact settled.alone left right (stays left leftPresent) (stays right rightPresent)
  · intro id request found deferral member manual
    obtain ⟨before, earlier, sameStages⟩ := closes id request found
    rw [← sameStages]
    exact settled.saw id before earlier deferral (deferred deferral member manual) manual

theorem update_request_cases (id other : Nat) (request : Option Request) (found : Request)
    (present : (setRequest id request state).requests other = some found) :
    other = id ∧ request = some found ∨ other ≠ id ∧ state.requests other = some found := by
  by_cases same : other = id
  · subst same
    simp only [setRequest, Function.update_self] at present
    exact Or.inl ⟨rfl, present⟩
  · simp only [setRequest, Function.update_of_ne same] at present
    exact Or.inr ⟨same, present⟩

theorem settled_step (action : Action) (next : State) (settled : OneSettled state)
    (alone : ReadsAlone state action)
    (stepped : step keys pydantic order cooldownSeconds userId state action = some next) :
    OneSettled next := by
  cases action with
  | read id =>
      simp only [step] at stepped
      split at stepped
      · obtain ⟨recent, _, rfl⟩ := Option.map_eq_some_iff.mp stepped
        have only : ∀ other found, (setRequest id (some (.read recent state.stages))
            state).requests other = some found → other = id ∧ found = .read recent state.stages := by
          intro other found present
          obtain ⟨same, shape⟩ | ⟨_, old⟩ := update_request_cases state id other _ found present
          · exact ⟨same, (Option.some.inj shape).symm⟩
          · rw [alone.1 other] at old
            cases old
        constructor
        · intro left right leftPresent rightPresent
          obtain ⟨leftRequest, leftFound⟩ := Option.ne_none_iff_exists'.mp leftPresent
          obtain ⟨rightRequest, rightFound⟩ := Option.ne_none_iff_exists'.mp rightPresent
          exact (only left _ leftFound).1.trans (only right _ rightFound).1.symm
        · intro other found present deferral member manual
          rw [(only other found present).2]
          exact alone.2 deferral member manual
      · cases stepped
  | compare id =>
      simp only [step] at stepped
      split at stepped
      · rename_i recent stagesThen cooldown reads _
        split_ifs at stepped
        · cases stepped
          refine settled_quiet state _ settled ?_ fun _ member _ => member
          intro other found present
          obtain ⟨_, shape⟩ | ⟨_, old⟩ := update_request_cases state id other _ found present
          · cases shape
          · exact ⟨found, old, rfl⟩
        · cases stepped
          refine settled_quiet state _ settled ?_ fun _ member _ => member
          intro other found present
          obtain ⟨same, shape⟩ | ⟨_, old⟩ := update_request_cases state id other _ found present
          · cases shape
            exact ⟨.read recent stagesThen, same ▸ reads, rfl⟩
          · exact ⟨found, old, rfl⟩
      · cases stepped
  | defer id =>
      simp only [step] at stepped
      split at stepped
      · rename_i stagesThen cleared
        cases stepped
        -- the request that defers was the only one
        have gone : ∀ other found,
            (setRequest id none (defer .manual state)).requests other ≠ some found := by
          intro other found present
          obtain ⟨_, shape⟩ | ⟨apart, old⟩ :=
            update_request_cases (defer .manual state) id other _ found present
          · cases shape
          · have old : state.requests other = some found := old
            exact apart (settled.alone other id (by simp [old]) (by simp [cleared]))
        constructor
        · intro left right leftPresent _
          obtain ⟨request, found⟩ := Option.ne_none_iff_exists'.mp leftPresent
          exact absurd found (gone left request)
        · exact fun other found present => absurd present (gone other found)
      · cases stepped
  | abandon id =>
      cases stepped
      refine settled_quiet state _ settled ?_ fun _ member _ => member
      intro other found present
      obtain ⟨_, shape⟩ | ⟨_, old⟩ := update_request_cases state id other _ found present
      · cases shape
      · exact ⟨found, old, rfl⟩
  | deferScheduled =>
      cases stepped
      refine settled_quiet state _ settled (fun other found present => ⟨found, present, rfl⟩) ?_
      intro deferral member manual
      simp only [defer, List.zipIdx_append, List.mem_append] at member
      cases member with
      | inl old => exact old
      | inr new =>
          simp only [List.zipIdx_singleton, List.mem_singleton] at new
          rw [new] at manual
          cases manual
  | record job status fillsLanded brokerTransactionsLanded errorCode =>
      simp only [step] at stepped
      split at stepped
      · cases stepped
        exact settled_quiet state _ settled (fun other found present => ⟨found, present, rfl⟩)
          fun _ member _ => member
      · cases stepped
  | _ =>
      simp only [step] at stepped
      split_ifs at stepped
      cases stepped
      exact settled_quiet state _ settled (fun other found present => ⟨found, present, rfl⟩)
        fun _ member _ => member

end Settled

/-- Where each request has the route to itself and reads when every manual job
has its row, any two manual jobs are deferred at least the cooldown apart. -/
theorem requests_alone_spaced (keys : KeyService) (pydantic : Pydantic)
    (order : ScanOrder SyncRun) (cooldownSeconds : Int) (userId : Uuid) (now : Instant)
    (db : Database) (actions : List Action) (final : State)
    (ran : runFrom (step keys pydantic order cooldownSeconds userId) actions (start now db) =
      some final)
    (alone : Meets (step keys pydantic order cooldownSeconds userId) ReadsAlone actions
      (start now db)) :
    Spaced (cooldownMicros cooldownSeconds) (manualTimes final.deferrals) := by
  let cooldown := cooldownMicros cooldownSeconds
  have held := run_keeps (step keys pydantic order cooldownSeconds userId) ReadsAlone
    (fun state => (Invariant cooldown userId state ∧ OneSettled state) ∧
      Spaced cooldown (manualTimes state.deferrals))
    ?_ actions (start now db) final ?_ alone ran
  · exact held.2
  · intro state action next holds readsAlone stepped
    obtain ⟨⟨invariant, settled⟩, spaced⟩ := holds
    refine ⟨⟨invariant_step keys pydantic order cooldownSeconds userId state action next invariant
        stepped,
      settled_step keys pydantic order cooldownSeconds userId state action next settled readsAlone
        stepped⟩, ?_⟩
    apply (spaced_step keys pydantic order cooldownSeconds userId cooldown state action next
      invariant spaced stepped).mpr
    cases action with
    | defer id =>
        show SeenByRequest cooldown state.now state.deferrals (state.requests id)
        cases present : state.requests id with
        | none => trivial
        | some request =>
            cases request with
            | read recent stagesThen => trivial
            | cleared stagesThen =>
                exact fun deferral member manual _ =>
                  settled.saw id _ present deferral member manual
    | _ => trivial
  · refine ⟨⟨invariant_start cooldown userId now db, ?_⟩, List.Pairwise.nil⟩
    constructor
    · intro left _ present
      exact absurd rfl present
    · intro id request present
      cases present

/-! ## Two requests -/

def connectedUser : Database :=
  storeConnection Ingest.ExtractFills.provisionedUser
    (excludedRow plainKeys ⟨[1], [2]⟩ ⟨1⟩ ⟨.str "token", 0⟩ "hash" [7] 1)

def request (id : Nat) : List Action := [.read id, .compare id, .defer id]

/-- The second request comes once the first job is over and two minutes have
passed. -/
def secondAfterRun : List Action :=
  request 1 ++ [.tick 5, .start 0, .tick 9, .record 0 .succeeded (some 0) (some 0) none,
    .tick 120000000] ++ request 2

theorem manual_syncs_spaced_iff_after_run :
    ∃ final, runFrom (step plainKeys plainPydantic (ScanOrder.asStored SyncRun) 60 ⟨1⟩)
        secondAfterRun (start 0 connectedUser) = some final ∧
      manualTimes final.deferrals = [0, 120000000] ∧
      Spaced (cooldownMicros 60) (manualTimes final.deferrals) := by
  have computed : (runFrom (step plainKeys plainPydantic (ScanOrder.asStored SyncRun) 60 ⟨1⟩)
      secondAfterRun (start 0 connectedUser)).any (fun final => decide (
        manualTimes final.deferrals = [0, 120000000])) = true := by decide +kernel
  obtain ⟨present, holds⟩ := (Option.any_eq_true_iff_get _ _).mp computed
  have ran := (Option.some_get present).symm
  refine ⟨_, ran, of_decide_eq_true holds, ?_⟩
  exact (manual_syncs_spaced_iff plainKeys plainPydantic (ScanOrder.asStored SyncRun) 60 ⟨1⟩ 0
    connectedUser secondAfterRun _ ran).mpr (by decide +kernel)

/-- While the first job waits in the queue a second request a second later
passes the cooldown of a minute. -/
theorem queued_job_not_seen :
    (runFrom (step plainKeys plainPydantic (ScanOrder.asStored SyncRun) 60 ⟨1⟩)
      (request 1 ++ [.tick 1000000] ++ request 2) (start 0 connectedUser)).any (fun final => decide (
        manualTimes final.deferrals = [0, 1000000] ∧
        ¬Spaced (cooldownMicros 60) (manualTimes final.deferrals))) = true := by
  decide +kernel

end Morai.Api.ManualSync
