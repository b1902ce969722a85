import Morai.Ingest.Confluence
import Morai.Worker.SyncAttempt

/-!
# The raw store and the ledger

`broker_transactions` keeps what the vendor sent, `fills` what was extracted
from it. Over any sequence of jobs, whatever interrupts them, the fills are
those of the raw elements: parsed again from what is stored, they have exactly
the keys of the ledger.
-/

namespace Morai.Worker.StoresAgree

open Morai.Crypto Morai.Db Morai.Python Morai.Foundation.PrimaryKey Morai.Foundation.Runs
open Morai.Ledger.Fills Morai.Ingest.ExtractFills Morai.Ingest.Validation
open Morai.Ingest.BrokerTransactions Morai.Ingest.SyncWindows Morai.Ingest.SyncUser
open Morai.Ingest.ElementsLand Morai.Ingest.Confluence Morai.Vendor.Connections
open Morai.Worker.SyncUserTask Morai.Worker.SyncAttempt

set_option autoImplicit false

structure Job where
  faults : Point → Option Raised
  settings : Settings
  vendor : VendorRun
  draws : SyncDraws
  call : TaskCall

def Job.sync (job : Job) : SyncCall := ⟨job.settings, job.vendor, job.draws, job.call.startedAt⟩

section Jobs

variable (keys : KeyService) (pydantic : Pydantic) (userId : Uuid)

/-- What a job commits; only a committed run counts as having delivered. -/
def jobStep (state : Ingested) (job : Job) : Option Ingested :=
  match attemptSyncUserTask job.faults keys pydantic job.settings job.vendor job.draws userId job.call
      state.db with
  | none => none
  | some (.error _, after) => some { state with db := after }
  | some (.ok (), after) =>
      some ⟨after, state.delivered ++ job.sync.delivered keys pydantic userId state.db⟩

theorem job_step_reaches (before : Database) (state next : Ingested) (job : Job)
    (reached : Reached keys pydantic userId before state.db state.delivered)
    (stepped : jobStep keys pydantic userId state job = some next) :
    Reached keys pydantic userId before next.db next.delivered := by
  unfold jobStep at stepped
  split at stepped
  · cases stepped
  · rename_i raised after ran
    cases stepped
    rcases attempt_task_cases job.faults keys pydantic job.settings job.vendor job.draws userId
      job.call state.db after _ ran with ⟨_, _, frame⟩ | ⟨_, _, impossible, _⟩
    · apply reached_congr keys pydantic userId before state.db after state.delivered reached <;>
        rw [frame]
    · cases impossible
  · rename_i after ran
    cases stepped
    rcases attempt_task_cases job.faults keys pydantic job.settings job.vendor job.draws userId
      job.call state.db after _ ran with ⟨_, impossible, _⟩ | ⟨outcome, seen, _, synced, shape⟩
    · cases impossible
    · have inner := sync_call_reaches keys pydantic userId before state.db seen state.delivered job.sync
        outcome reached synced
      apply reached_congr keys pydantic userId before seen after _ inner <;>
        · rw [shape, stamp_synced_frame]
          rfl

theorem jobs_reach (jobs : List Job) (before : Database) (final : Ingested)
    (ran : runFrom (jobStep keys pydantic userId) jobs ⟨before, []⟩ = some final) :
    Reached keys pydantic userId before final.db final.delivered :=
  run_keeps (jobStep keys pydantic userId) (fun _ _ => True)
    (fun state => Reached keys pydantic userId before state.db state.delivered)
    (fun state job next held _ => job_step_reaches keys pydantic userId before state next job held)
    jobs ⟨before, []⟩ final (reached_start keys pydantic userId before) (meets_trivial _ jobs _) ran

/-! ## Reading the raw store -/

/-- The element a row decrypts and parses to. -/
def storedElement (db : Database) (row : BrokerTransaction) : Except Raised JsonValue := do
  let text ← rawText keys userId db row
  match pydantic.validateJson text with
  | none => .error .validationError
  | some element => .ok element

/-- The fills a stored raw row stands for. -/
def rowFills (db : Database) (row : BrokerTransaction) : Option (List FillWrite) := do
  let element ← (storedElement keys pydantic userId db row).toOption
  let transaction ← validateTransaction pydantic element
  let extracted ← (extractFills transaction).toOption
  some extracted.1

theorem row_fills_element (db : Database) (dek : Bytes) (keyVersion : Int)
    (current : currentDek keys db userId = .ok (dek, keyVersion)) (nonce : Bytes)
    (element : JsonValue) (transaction : Transaction)
    (validated : validateTransaction pydantic element = some transaction)
    (returns : ExtractionReturns transaction)
    (readsBack : pydantic.validateJson (jsonDumps element) = some element) :
    rowFills keys pydantic userId db (brokerTransactionRow keys userId dek keyVersion nonce
      (elementWrite (element, transaction))) = some (fillsOf transaction) := by
  obtain ⟨extracted, ran⟩ := (extract_fills_ok_iff transaction).mpr returns
  have text := raw_text_row keys userId db dek keyVersion current nonce
    (elementWrite (element, transaction))
  have payload : (elementWrite (element, transaction)).rawPayload = element := rfl
  rw [payload] at text
  rw [fills_of_extracted transaction extracted ran]
  simp only [rowFills, storedElement, text, readsBack, validated, ran, bind, Except.bind,
    Except.toOption, Option.bind_some]

/-- Every raw row reads back, and the keys of the fills extracted again are
the keys of the ledger. -/
theorem raw_and_fills_agree (jobs : List Job) (initial : Database) (final : Ingested)
    (noFills : fillRowsOf initial userId = [])
    (noRaw : ∀ row ∈ initial.brokerTransactions.rows, row.userId ≠ userId)
    (ran : runFrom (jobStep keys pydantic userId) jobs ⟨initial, []⟩ = some final)
    (once : OneElementPerActivity pydantic final.delivered)
    (readsBack : ∀ element ∈ final.delivered,
      pydantic.validateJson (jsonDumps element) = some element) :
    (∀ row ∈ final.db.brokerTransactions.rows, row.userId = userId →
        ∃ fills, rowFills keys pydantic userId final.db row = some fills) ∧
      storedFillKeys userId final.db =
        {key | ∃ row ∈ final.db.brokerTransactions.rows, row.userId = userId ∧
          ∃ fills, rowFills keys pydantic userId final.db row = some fills ∧
            ∃ fill ∈ fills, fill.key = key} := by
  have reached := jobs_reach keys pydantic userId jobs initial final ran
  obtain ⟨added, rows, shapes⟩ := reached.raw
  obtain ⟨addedFills, fillRows, fillShapes⟩ := reached.fill
  -- each of the user's raw rows is the copy of one delivered element
  have copies : ∀ row ∈ final.db.brokerTransactions.rows, row.userId = userId →
      ∃ element ∈ parsed pydantic final.delivered, row.activityId = element.2.activityId.str ∧
        rowFills keys pydantic userId final.db row = some (fillsOf element.2) := by
    intro row member owner
    rw [rows] at member
    cases List.mem_append.mp member with
    | inl old => exact absurd owner (noRaw row old)
    | inr new =>
        obtain ⟨element, inside, dek, keyVersion, nonce, current, shape⟩ := shapes row new
        obtain ⟨arrived, validated⟩ := (mem_parsed pydantic _ element.1 element.2).mp inside
        rw [← current_dek_congr keys final.db initial userId reached.sameKeys] at current
        refine ⟨element, inside, shape ▸ rfl, ?_⟩
        rw [shape]
        exact row_fills_element keys pydantic userId final.db dek keyVersion current nonce element.1
          element.2 validated (reached.returns element inside) (readsBack element.1 arrived)
  constructor
  · intro row member owner
    obtain ⟨element, _, _, fills⟩ := copies row member owner
    exact ⟨_, fills⟩
  · ext key
    constructor
    · intro stored
      obtain ⟨fillRow, fillMember, fillKey⟩ := List.mem_map.mp stored
      rw [fillRows] at fillMember
      cases List.mem_append.mp fillMember with
      | inl old =>
          have owned : fillRow ∈ fillRowsOf initial userId :=
            List.mem_filter.mpr ⟨old, decide_eq_true (congrArg Prod.fst fillKey)⟩
          rw [noFills] at owned
          cases owned
      | inr new =>
          obtain ⟨element, inside, fill, extracted, shape⟩ := fillShapes fillRow new
          obtain ⟨row, rowMember, rowKey⟩ := List.mem_map.mp (reached.rawKeys element inside)
          have owner : row.userId = userId := congrArg Prod.fst rowKey
          obtain ⟨other, otherInside, activity, fills⟩ := copies row rowMember owner
          have sameId : element.2.activityId.str = other.2.activityId.str :=
            (congrArg Prod.snd rowKey).symm.trans activity
          have same := once element inside other otherInside sameId
          refine ⟨row, rowMember, owner, _, fills, fill, same ▸ extracted, ?_⟩
          exact congrArg Prod.snd (shape.symm.trans fillKey)
    · intro found
      obtain ⟨row, member, owner, fills, reads, fill, extracted, rfl⟩ := found
      obtain ⟨element, inside, _, expected⟩ := copies row member owner
      rw [reads] at expected
      cases expected
      exact reached.fillKeys element inside fill extracted

end Jobs

/-! ## A job that fails between the two inserts, and its retry -/

/-- Reads back the one element of the example. -/
def tradePydantic : Pydantic :=
  { plainPydantic with
    validateJson := fun text =>
      if text = jsonDumps firstTrade then some firstTrade else plainPydantic.validateJson text }

def fillInsertFails : Point → Option Raised
  | .fillChunk 0 0 => some .other
  | _ => none

def tradeJob (faults : Point → Option Raised) : Job :=
  ⟨faults, {}, answering [firstTrade], plainDraws, ⟨afternoon, afternoon, .scheduled⟩⟩

theorem raw_and_fills_agree_retry :
    ∃ final, runFrom (jobStep plainKeys tradePydantic ⟨1⟩)
        [tradeJob fillInsertFails, tradeJob fun _ => none] ⟨syncedUser, []⟩ = some final ∧
      final.delivered = [firstTrade] ∧
      ∀ row ∈ final.db.brokerTransactions.rows, row.userId = ⟨1⟩ →
        ∃ fills, rowFills plainKeys tradePydantic ⟨1⟩ final.db row = some fills := by
  have returns : ((runFrom (jobStep plainKeys tradePydantic ⟨1⟩)
      [tradeJob fillInsertFails, tradeJob fun _ => none] ⟨syncedUser, []⟩).any fun final =>
        final.delivered = [firstTrade]) = true := by decide +kernel
  obtain ⟨present, gathered⟩ := (Option.any_eq_true_iff_get _ _).mp returns
  have gathered := of_decide_eq_true gathered
  have ran := (Option.some_get present).symm
  refine ⟨_, ran, gathered, ?_⟩
  apply (raw_and_fills_agree plainKeys tradePydantic ⟨1⟩ _ syncedUser _ (by decide) (by decide) ran
    ?_ ?_).1
  · rw [gathered]
    unfold OneElementPerActivity
    decide +kernel
  · rw [gathered]
    decide +kernel

end Morai.Worker.StoresAgree
