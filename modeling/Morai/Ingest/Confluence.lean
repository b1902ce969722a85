import Morai.Foundation.Runs
import Morai.Ingest.ElementsLand

/-!
# What a sequence of syncs stores

Runs may cover the same days again and bring the same elements in any order
and any number of times. What is stored after a sequence of them depends only
on which elements were delivered: each activity has one raw copy, each fill
key one row, and nothing stored is ever touched again.
-/

namespace Morai.Ingest.Confluence

open Morai.Crypto Morai.Db Morai.Python Morai.Foundation.PrimaryKey Morai.Foundation.Runs
open Morai.Ledger.Fills Morai.Ingest.ExtractFills Morai.Ingest.Validation
open Morai.Ingest.BrokerTransactions Morai.Ingest.SyncWindows Morai.Ingest.SyncUser
open Morai.Ingest.ElementsLand Morai.Vendor.Connections

set_option autoImplicit false

/-- The elements of an answer that is a list. -/
def listed : Except Raised JsonValue → List JsonValue
  | .ok (.array elements) => elements
  | _ => []

/-- What one call of `sync_user` is given besides the session. -/
structure SyncCall where
  settings : Settings
  vendor : VendorRun
  draws : SyncDraws
  now : Instant

section Offers

variable (keys : KeyService) (pydantic : Pydantic) (userId : Uuid)

def SyncCall.run (call : SyncCall) (db : Database) :
    Option (Except Raised (SyncOutcome × Database)) :=
  syncUser keys pydantic call.settings call.vendor call.draws userId call.now db

/-- The elements of all windows a call asks for. -/
def SyncCall.delivered (call : SyncCall) (db : Database) : List JsonValue :=
  (requestedCalls keys pydantic call.settings userId call.now db).zipIdx.flatMap fun request =>
    listed (call.vendor.getTransactions request.2 request.1.1 request.1.2)

/-- Rows made of some elements that were all extracted, a raw copy for each of
them and a fill for everything extracted from it, all under the current key. -/
structure Offer (db : Database) (elements : List JsonValue) (rawRows : List BrokerTransaction)
    (fills : List Fill) : Prop where
  returns : ∀ element ∈ parsed pydantic elements, ExtractionReturns element.2
  raw : ∀ row ∈ rawRows, ∃ element ∈ parsed pydantic elements, ∃ dek keyVersion nonce,
    currentDek keys db userId = .ok (dek, keyVersion) ∧
      row = brokerTransactionRow keys userId dek keyVersion nonce (elementWrite element)
  rawKeys : ∀ element ∈ parsed pydantic elements,
    (userId, element.2.activityId.str) ∈ rawRows.map BrokerTransaction.primaryKey
  fill : ∀ row ∈ fills, ∃ element ∈ parsed pydantic elements, ∃ fill ∈ fillsOf element.2,
    row.primaryKey = (userId, fill.key)
  fillKeys : ∀ element ∈ parsed pydantic elements, ∀ fill ∈ fillsOf element.2,
    (userId, fill.key) ∈ fills.map Fill.primaryKey

theorem parsed_append (left right : List JsonValue) :
    parsed pydantic (left ++ right) = parsed pydantic left ++ parsed pydantic right :=
  List.filterMap_append

theorem offer_append (db : Database) (elements elements' : List JsonValue)
    (raw raw' : List BrokerTransaction) (fills fills' : List Fill)
    (first : Offer keys pydantic userId db elements raw fills)
    (second : Offer keys pydantic userId db elements' raw' fills') :
    Offer keys pydantic userId db (elements ++ elements') (raw ++ raw') (fills ++ fills') := by
  constructor
  · rw [parsed_append]
    exact List.forall_mem_append.mpr ⟨first.returns, second.returns⟩
  · intro row member
    rw [parsed_append]
    cases List.mem_append.mp member with
    | inl early =>
        obtain ⟨element, inside, shape⟩ := first.raw row early
        exact ⟨element, List.mem_append_left _ inside, shape⟩
    | inr late =>
        obtain ⟨element, inside, shape⟩ := second.raw row late
        exact ⟨element, List.mem_append_right _ inside, shape⟩
  · intro element member
    rw [parsed_append] at member
    rw [List.map_append]
    cases List.mem_append.mp member with
    | inl early => exact List.mem_append_left _ (first.rawKeys element early)
    | inr late => exact List.mem_append_right _ (second.rawKeys element late)
  · intro row member
    rw [parsed_append]
    cases List.mem_append.mp member with
    | inl early =>
        obtain ⟨element, inside, shape⟩ := first.fill row early
        exact ⟨element, List.mem_append_left _ inside, shape⟩
    | inr late =>
        obtain ⟨element, inside, shape⟩ := second.fill row late
        exact ⟨element, List.mem_append_right _ inside, shape⟩
  · intro element member fill extracted
    rw [parsed_append] at member
    rw [List.map_append]
    cases List.mem_append.mp member with
    | inl early => exact List.mem_append_left _ (first.fillKeys element early fill extracted)
    | inr late => exact List.mem_append_right _ (second.fillKeys element late fill extracted)

theorem offer_congr (db db' : Database) (elements : List JsonValue)
    (raw : List BrokerTransaction) (fills : List Fill)
    (same : db.userDataKeys = db'.userDataKeys)
    (offer : Offer keys pydantic userId db elements raw fills) :
    Offer keys pydantic userId db' elements raw fills := by
  constructor
  · exact offer.returns
  · intro row member
    obtain ⟨element, inside, dek, keyVersion, nonce, current, shape⟩ := offer.raw row member
    rw [current_dek_congr keys db db' userId same] at current
    exact ⟨element, inside, dek, keyVersion, nonce, current, shape⟩
  · exact offer.rawKeys
  · exact offer.fill
  · exact offer.fillKeys

theorem no_offer (db : Database) : Offer keys pydantic userId db [] [] [] :=
  ⟨nofun, nofun, nofun, nofun, nofun⟩

theorem window_offer (draws : SyncDraws) (db : Database) (dek : Bytes) (keyVersion : Int)
    (current : currentDek keys db userId = .ok (dek, keyVersion)) (index : Nat)
    (elements : List JsonValue) (storable : Storable pydantic elements) :
    Offer keys pydantic userId db elements
      (windowRawRows keys pydantic draws userId dek keyVersion index elements)
      (windowFillRows keys pydantic draws userId dek keyVersion index elements) := by
  constructor
  · exact storable.returns
  · intro row member
    obtain ⟨write, writeMember, nonce, shape⟩ :=
      mem_broker_transaction_rows keys userId dek keyVersion _ _ row member
    obtain ⟨element, inside, rfl⟩ := List.mem_map.mp writeMember
    exact ⟨element, inside, dek, keyVersion, nonce, current, shape⟩
  · intro element member
    rw [windowRawRows, broker_transaction_rows_keys, List.map_map]
    exact List.mem_map.mpr ⟨element, member, rfl⟩
  · intro row member
    obtain ⟨fill, fillMember, draw, shape⟩ :=
      mem_fill_rows keys userId dek keyVersion _ _ row member
    obtain ⟨element, inside, extracted⟩ := (mem_fills_of_elements pydantic elements fill).mp fillMember
    refine ⟨element, inside, fill, extracted, ?_⟩
    rw [shape]
    exact fill_row_primary_key keys userId dek keyVersion draw fill
  · intro element member fill extracted
    rw [windowFillRows, fill_rows_keys]
    exact List.mem_map.mpr
      ⟨fill, (mem_fills_of_elements pydantic elements fill).mpr ⟨element, member, extracted⟩, rfl⟩

theorem sync_window_offers (vendor : VendorRun) (draws : SyncDraws) (accountHash : String)
    (window : SyncWindow × Nat) (outcome : SyncOutcome) (db after : Database)
    (ran : syncWindow keys pydantic vendor draws userId accountHash window db =
      .ok (outcome, after)) :
    ∃ raw fills, Offer keys pydantic userId db
        (listed (vendor.getTransactions window.2 accountHash window.1)) raw fills ∧
      after = offered db raw fills := by
  obtain ⟨elements, transactions, extracted, middle, stages⟩ :=
    sync_window_ok keys pydantic vendor draws userId accountHash window outcome db after ran
  have answered := stages.answered
  rw [answered]
  have storable := sync_window_storable keys pydantic vendor draws userId accountHash window elements
    outcome db after answered ran
  cases current : currentDek keys db userId with
  | ok found =>
      obtain ⟨other, lands⟩ := sync_window_lands keys pydantic vendor draws userId accountHash window
        elements db found.1 found.2 current answered storable
      rw [ran] at lands
      cases lands
      exact ⟨_, _, window_offer keys pydantic userId draws db found.1 found.2 current window.2
        elements storable, rfl⟩
  | error raised =>
      -- without a key only an empty list gets past the first insert
      have none : (elements.zip transactions).map elementWrite = [] := by
        by_contra some
        have empty : ((elements.zip transactions).map elementWrite).isEmpty = false := by
          simpa using some
        have inserted := stages.raw
        simp [insertBrokerTransactions, empty, current, bind, Except.bind] at inserted
      rw [List.map_eq_nil_iff, (validate_transactions_parsed pydantic elements transactions
        stages.validated).1] at none
      have empty : elements = [] := by
        by_contra some
        obtain ⟨element, member⟩ := List.exists_mem_of_ne_nil elements some
        obtain ⟨transaction, parsedTo⟩ := storable.validates element member
        have inside := (mem_parsed pydantic elements element transaction).mpr ⟨member, parsedTo⟩
        rw [none] at inside
        cases inside
      rw [empty] at answered ⊢
      refine ⟨[], [], no_offer keys pydantic userId db, ?_⟩
      rw [sync_window_empty keys pydantic vendor draws userId accountHash window db answered] at ran
      cases ran
      rfl

theorem sync_each_offers (vendor : VendorRun) (draws : SyncDraws) (accountHash : String)
    (windows : List (SyncWindow × Nat)) (sofar outcome : SyncOutcome) (db after : Database)
    (ran : syncEach keys pydantic vendor draws userId accountHash windows sofar db =
      .ok (outcome, after)) :
    ∃ raw fills, Offer keys pydantic userId db (windows.flatMap fun window =>
        listed (vendor.getTransactions window.2 accountHash window.1)) raw fills ∧
      after = offered db raw fills := by
  induction windows generalizing sofar db with
  | nil =>
      cases ran
      exact ⟨[], [], no_offer keys pydantic userId _, rfl⟩
  | cons window rest ih =>
      obtain ⟨⟨part, middle⟩, here, later⟩ := bind_ok _ _ _ ran
      obtain ⟨raw, fills, first, reached⟩ := sync_window_offers keys pydantic userId vendor draws
        accountHash window part db middle here
      obtain ⟨raw', fills', second, ended⟩ := ih (sofar.add part) middle later
      have sameKeys : middle.userDataKeys = db.userDataKeys := by
        rw [reached]
        rfl
      have second := offer_congr keys pydantic userId middle db _ raw' fills' sameKeys second
      refine ⟨raw ++ raw', fills ++ fills', ?_, ?_⟩
      · exact offer_append keys pydantic userId db _ _ raw raw' fills fills' first second
      · rw [ended, reached, offered_append]

/-- A call that returned offered the two tables the rows of everything it
asked for, and changed nothing else but the connection. -/
theorem sync_call_offers (call : SyncCall) (db after : Database) (outcome : SyncOutcome)
    (ran : call.run keys pydantic userId db = some (.ok (outcome, after))) :
    ∃ raw fills, Offer keys pydantic userId db (call.delivered keys pydantic userId db) raw fills ∧
      after = { offered db raw fills with schwabConnections := after.schwabConnections } := by
  obtain ⟨connection, windows, holder, middle, stages⟩ := sync_user_ok keys pydantic call.settings
    call.vendor call.draws userId call.now db after outcome ran
  obtain ⟨raw, fills, offer, reached⟩ := sync_each_offers keys pydantic userId call.vendor call.draws
    connection.accountHash windows.zipIdx _ outcome db middle stages.synced
  have frame := write_back_frame keys pydantic userId _ _ middle after stages.written
  have delivered : call.delivered keys pydantic userId db = windows.zipIdx.flatMap fun window =>
      listed (call.vendor.getTransactions window.2 connection.accountHash window.1) := by
    unfold SyncCall.delivered
    simp only [requestedCalls, stages.read, stages.planned, List.zipIdx_map, List.flatMap_map]
    rfl
  rw [reached] at frame
  exact ⟨raw, fills, delivered ▸ offer, frame⟩

end Offers

/-! ## Sequences of calls -/

/-- The committed tables and every element a committed call has delivered. -/
structure Ingested where
  db : Database
  delivered : List JsonValue

/-- A call in a transaction of its own, or any change to the other two tables
a job writes. -/
inductive Action where
  | sync (call : SyncCall)
  | elsewhere (schwabConnections : KeyedTable SchwabConnection.userId) (syncRuns : List SyncRun)

section Sequences

variable (keys : KeyService) (pydantic : Pydantic) (userId : Uuid)

/-- A call that raises is rolled back. -/
def step (state : Ingested) : Action → Option Ingested
  | .sync call =>
      match call.run keys pydantic userId state.db with
      | none => none
      | some (.error _) => some state
      | some (.ok (_, after)) =>
          some ⟨after, state.delivered ++ call.delivered keys pydantic userId state.db⟩
  | .elsewhere schwabConnections syncRuns =>
      some { state with db := { state.db with
        schwabConnections := schwabConnections, syncRuns := syncRuns } }

/-- Everything delivered was extracted and has its raw copy and its fills, and
every row that was not there before is one of a delivered element. -/
structure Reached (before db : Database) (delivered : List JsonValue) : Prop where
  sameKeys : db.userDataKeys = before.userDataKeys
  returns : ∀ element ∈ parsed pydantic delivered, ExtractionReturns element.2
  raw : ∃ added, db.brokerTransactions.rows = before.brokerTransactions.rows ++ added ∧
    ∀ row ∈ added, ∃ element ∈ parsed pydantic delivered, ∃ dek keyVersion nonce,
      currentDek keys before userId = .ok (dek, keyVersion) ∧
        row = brokerTransactionRow keys userId dek keyVersion nonce (elementWrite element)
  rawKeys : ∀ element ∈ parsed pydantic delivered,
    db.brokerTransactions.Has (userId, element.2.activityId.str)
  fill : ∃ added, db.fills.rows = before.fills.rows ++ added ∧
    ∀ row ∈ added, ∃ element ∈ parsed pydantic delivered, ∃ fill ∈ fillsOf element.2,
      row.primaryKey = (userId, fill.key)
  fillKeys : ∀ element ∈ parsed pydantic delivered, ∀ fill ∈ fillsOf element.2,
    db.fills.Has (userId, fill.key)

theorem reached_start (before : Database) : Reached keys pydantic userId before before [] :=
  ⟨rfl, nofun, ⟨[], (List.append_nil _).symm, nofun⟩, nofun,
    ⟨[], (List.append_nil _).symm, nofun⟩, nofun⟩

/-- Offering rows of more elements reaches those elements as well. -/
theorem offered_reaches (before db : Database) (delivered elements : List JsonValue)
    (raw : List BrokerTransaction) (fills : List Fill)
    (reached : Reached keys pydantic userId before db delivered)
    (offer : Offer keys pydantic userId db elements raw fills) :
    Reached keys pydantic userId before (offered db raw fills) (delivered ++ elements) := by
  have current := current_dek_congr keys db before userId reached.sameKeys
  constructor
  · exact reached.sameKeys
  · rw [parsed_append]
    exact List.forall_mem_append.mpr ⟨reached.returns, offer.returns⟩
  · apply insert_or_skip_added db.brokerTransactions before.brokerTransactions.rows raw
    · obtain ⟨added, rows, shapes⟩ := reached.raw
      refine ⟨added, rows, fun row member => ?_⟩
      obtain ⟨element, inside, shape⟩ := shapes row member
      refine ⟨element, ?_, shape⟩
      rw [parsed_append]
      exact List.mem_append_left _ inside
    · intro row incoming
      obtain ⟨element, inside, dek, keyVersion, nonce, found, shape⟩ := offer.raw row incoming
      rw [current] at found
      refine ⟨element, ?_, dek, keyVersion, nonce, found, shape⟩
      rw [parsed_append]
      exact List.mem_append_right _ inside
  · intro element member
    rw [parsed_append] at member
    apply (insert_or_skip_has _ _ _).mpr
    cases List.mem_append.mp member with
    | inl old => exact Or.inl (reached.rawKeys element old)
    | inr new => exact Or.inr (offer.rawKeys element new)
  · apply insert_or_skip_added db.fills before.fills.rows fills
    · obtain ⟨added, rows, shapes⟩ := reached.fill
      refine ⟨added, rows, fun row member => ?_⟩
      obtain ⟨element, inside, shape⟩ := shapes row member
      refine ⟨element, ?_, shape⟩
      rw [parsed_append]
      exact List.mem_append_left _ inside
    · intro row incoming
      obtain ⟨element, inside, shape⟩ := offer.fill row incoming
      refine ⟨element, ?_, shape⟩
      rw [parsed_append]
      exact List.mem_append_right _ inside
  · intro element member fill extracted
    rw [parsed_append] at member
    apply (insert_or_skip_has _ _ _).mpr
    cases List.mem_append.mp member with
    | inl old => exact Or.inl (reached.fillKeys element old fill extracted)
    | inr new => exact Or.inr (offer.fillKeys element new fill extracted)

/-- Only the key table and the two transaction tables matter. -/
theorem reached_congr (before db db' : Database) (delivered : List JsonValue)
    (reached : Reached keys pydantic userId before db delivered)
    (sameKeys : db'.userDataKeys = db.userDataKeys)
    (sameRaw : db'.brokerTransactions = db.brokerTransactions) (sameFills : db'.fills = db.fills) :
    Reached keys pydantic userId before db' delivered := by
  constructor
  · exact sameKeys.trans reached.sameKeys
  · exact reached.returns
  · rw [sameRaw]
    exact reached.raw
  · rw [sameRaw]
    exact reached.rawKeys
  · rw [sameFills]
    exact reached.fill
  · rw [sameFills]
    exact reached.fillKeys

theorem sync_call_reaches (before db after : Database) (delivered : List JsonValue)
    (call : SyncCall) (outcome : SyncOutcome)
    (reached : Reached keys pydantic userId before db delivered)
    (ran : call.run keys pydantic userId db = some (.ok (outcome, after))) :
    Reached keys pydantic userId before after
      (delivered ++ call.delivered keys pydantic userId db) := by
  obtain ⟨raw, fills, offer, shape⟩ := sync_call_offers keys pydantic userId call db after outcome ran
  have stored := offered_reaches keys pydantic userId before db delivered _ raw fills reached offer
  apply reached_congr keys pydantic userId before _ after _ stored <;> rw [shape]

theorem step_reaches (before : Database) (state next : Ingested) (action : Action)
    (reached : Reached keys pydantic userId before state.db state.delivered)
    (stepped : step keys pydantic userId state action = some next) :
    Reached keys pydantic userId before next.db next.delivered := by
  cases action with
  | sync call =>
      simp only [step] at stepped
      split at stepped
      · cases stepped
      · cases stepped
        exact reached
      · rename_i outcome after ran
        cases stepped
        exact sync_call_reaches keys pydantic userId before state.db after state.delivered call outcome
          reached ran
  | elsewhere schwabConnections syncRuns =>
      cases stepped
      exact reached_congr keys pydantic userId before state.db _ state.delivered reached rfl rfl rfl

theorem run_reaches (actions : List Action) (before : Database) (final : Ingested)
    (ran : runFrom (step keys pydantic userId) actions ⟨before, []⟩ = some final) :
    Reached keys pydantic userId before final.db final.delivered :=
  run_keeps (step keys pydantic userId) (fun _ _ => True)
    (fun state => Reached keys pydantic userId before state.db state.delivered)
    (fun state action next held _ => step_reaches keys pydantic userId before state next action held)
    actions ⟨before, []⟩ final (reached_start keys pydantic userId before)
    (meets_trivial _ actions _) ran

/-! ## Confluence -/

/-- An activity id is always the id of the same element. -/
def OneElementPerActivity (delivered : List JsonValue) : Prop :=
  ∀ left ∈ parsed pydantic delivered, ∀ right ∈ parsed pydantic delivered,
    left.2.activityId.str = right.2.activityId.str → left = right

/-- A row of `broker_transactions` with its payload decrypted. -/
structure RawContent where
  activityId : String
  transactionType : String
  transactionTime : Instant
  orderId : Option String
  rawPayload : Except Raised String
  keyVersion : Int

def rawContent (db : Database) (row : BrokerTransaction) : RawContent where
  activityId := row.activityId
  transactionType := row.transactionType
  transactionTime := row.transactionTime
  orderId := row.orderId
  rawPayload := rawText keys userId db row
  keyVersion := row.keyVersion

/-- The user's rows, up to the nonces they happen to be stored under. -/
def rawContents (db : Database) : Set RawContent :=
  {content | ∃ row ∈ db.brokerTransactions.rows, row.userId = userId ∧
    rawContent keys userId db row = content}

def storedFillKeys (db : Database) : Set FillKey := {key | db.fills.Has (userId, key)}

theorem raw_content_congr (db db' : Database) (same : db.userDataKeys = db'.userDataKeys)
    (row : BrokerTransaction) : rawContent keys userId db row = rawContent keys userId db' row := by
  unfold rawContent
  rw [raw_text_congr keys userId db db' same]

/-- Rows of one element under one key hold the same, whatever their nonce. -/
theorem raw_content_nonce (db : Database) (dek : Bytes) (keyVersion : Int)
    (current : currentDek keys db userId = .ok (dek, keyVersion)) (nonce nonce' : Bytes)
    (write : BrokerTransactionWrite) :
    rawContent keys userId db (brokerTransactionRow keys userId dek keyVersion nonce write) =
      rawContent keys userId db (brokerTransactionRow keys userId dek keyVersion nonce' write) := by
  unfold rawContent
  rw [raw_text_row keys userId db dek keyVersion current nonce write,
    raw_text_row keys userId db dek keyVersion current nonce' write]
  rfl

/-- Whatever one history stored, another with the same elements stored too. -/
theorem raw_contents_subset (before left right : Database) (delivered delivered' : List JsonValue)
    (reachedLeft : Reached keys pydantic userId before left delivered)
    (reachedRight : Reached keys pydantic userId before right delivered')
    (same : ∀ element, element ∈ delivered' ↔ element ∈ delivered)
    (once : OneElementPerActivity pydantic delivered) :
    rawContents keys userId left ⊆ rawContents keys userId right := by
  intro content found
  obtain ⟨row, member, owner, rfl⟩ := found
  obtain ⟨added, rows, shapes⟩ := reachedLeft.raw
  obtain ⟨added', rows', shapes'⟩ := reachedRight.raw
  have sameKeys := reachedLeft.sameKeys.trans reachedRight.sameKeys.symm
  rw [raw_content_congr keys userId left right sameKeys row]
  have kept : row ∈ before.brokerTransactions.rows →
      rawContent keys userId right row ∈ rawContents keys userId right := by
    intro old
    exact ⟨row, rows' ▸ List.mem_append_left _ old, owner, rfl⟩
  rw [rows] at member
  cases List.mem_append.mp member with
  | inl old => exact kept old
  | inr new =>
      obtain ⟨element, inside, dek, keyVersion, nonce, current, shape⟩ := shapes row new
      have arrived : element ∈ parsed pydantic delivered' := by
        rw [mem_parsed] at inside ⊢
        exact ⟨(same element.1).mpr inside.1, inside.2⟩
      have rowKey : row.primaryKey = (userId, element.2.activityId.str) := by
        rw [shape]
        rfl
      obtain ⟨other, otherMember, otherKey⟩ :=
        List.mem_map.mp (reachedRight.rawKeys element arrived)
      rw [rows'] at otherMember
      cases List.mem_append.mp otherMember with
      | inl otherOld =>
          have oldInLeft : other ∈ left.brokerTransactions.rows :=
            rows ▸ List.mem_append_left _ otherOld
          have newInLeft : row ∈ left.brokerTransactions.rows := rows ▸ member
          have sameRow := List.inj_on_of_nodup_map left.brokerTransactions.unique oldInLeft newInLeft
            (otherKey.trans rowKey.symm)
          exact kept (sameRow ▸ otherOld)
      | inr otherNew =>
          obtain ⟨element', inside', dek', keyVersion', nonce', current', shape'⟩ :=
            shapes' other otherNew
          have sameId : element.2.activityId.str = element'.2.activityId.str := by
            rw [shape'] at otherKey
            exact (congrArg Prod.snd otherKey).symm
          have back : element' ∈ parsed pydantic delivered := by
            rw [mem_parsed] at inside' ⊢
            exact ⟨(same element'.1).mp inside'.1, inside'.2⟩
          have sameElement := once element inside element' back sameId
          rw [current] at current'
          cases current'
          have currentRight : currentDek keys right userId = .ok (dek, keyVersion) := by
            rw [current_dek_congr keys right before userId reachedRight.sameKeys]
            exact current
          refine ⟨other, rows' ▸ otherMember, ?_, ?_⟩
          · rw [shape']
            rfl
          · rw [shape, shape', ← sameElement]
            exact raw_content_nonce keys userId right dek keyVersion currentRight nonce' nonce _

theorem fill_keys_subset (before left right : Database) (delivered delivered' : List JsonValue)
    (reachedLeft : Reached keys pydantic userId before left delivered)
    (reachedRight : Reached keys pydantic userId before right delivered')
    (same : ∀ element, element ∈ delivered' ↔ element ∈ delivered) :
    storedFillKeys userId left ⊆ storedFillKeys userId right := by
  intro key found
  obtain ⟨added, rows, shapes⟩ := reachedLeft.fill
  obtain ⟨added', rows', _⟩ := reachedRight.fill
  obtain ⟨row, member, rowKey⟩ := List.mem_map.mp found
  rw [rows] at member
  cases List.mem_append.mp member with
  | inl old => exact List.mem_map.mpr ⟨row, rows' ▸ List.mem_append_left _ old, rowKey⟩
  | inr new =>
      obtain ⟨element, inside, fill, extracted, shape⟩ := shapes row new
      have arrived : element ∈ parsed pydantic delivered' := by
        rw [mem_parsed] at inside ⊢
        exact ⟨(same element.1).mpr inside.1, inside.2⟩
      have sameKey : fill.key = key := congrArg Prod.snd (shape.symm.trans rowKey)
      exact sameKey ▸ reachedRight.fillKeys element arrived fill extracted

/-- Rows only ever come after the rows there are. -/
theorem step_extends (state next : Ingested) (action : Action)
    (stepped : step keys pydantic userId state action = some next) :
    state.db.brokerTransactions.rows <+: next.db.brokerTransactions.rows ∧
      state.db.fills.rows <+: next.db.fills.rows := by
  have same : ∀ db : Database, db.brokerTransactions.rows <+: db.brokerTransactions.rows ∧
      db.fills.rows <+: db.fills.rows := fun db => ⟨List.prefix_rfl, List.prefix_rfl⟩
  cases action with
  | sync call =>
      simp only [step] at stepped
      split at stepped
      · cases stepped
      · cases stepped
        exact same state.db
      · rename_i outcome after ran
        cases stepped
        obtain ⟨raw, fills, _, shape⟩ := sync_call_offers keys pydantic userId call state.db after
          outcome ran
        rw [shape]
        exact ⟨⟨_, (insert_or_skip_rows _ _).symm⟩, ⟨_, (insert_or_skip_rows _ _).symm⟩⟩
  | elsewhere schwabConnections syncRuns =>
      cases stepped
      exact same state.db

theorem run_extends (actions : List Action) (middle final : Ingested)
    (ran : runFrom (step keys pydantic userId) actions middle = some final) :
    middle.db.brokerTransactions.rows <+: final.db.brokerTransactions.rows ∧
      middle.db.fills.rows <+: final.db.fills.rows := by
  refine run_keeps (step keys pydantic userId) (fun _ _ => True)
    (fun state => middle.db.brokerTransactions.rows <+: state.db.brokerTransactions.rows ∧
      middle.db.fills.rows <+: state.db.fills.rows) ?_ actions middle final
    ⟨List.prefix_rfl, List.prefix_rfl⟩ (meets_trivial _ actions _) ran
  intro state action next held _ stepped
  have here := step_extends keys pydantic userId state next action stepped
  exact ⟨held.1.trans here.1, held.2.trans here.2⟩

/-- A call that delivers nothing new lands nothing. -/
theorem settled_call_lands_nothing (before db after : Database) (delivered : List JsonValue)
    (call : SyncCall) (outcome : SyncOutcome)
    (reached : Reached keys pydantic userId before db delivered)
    (old : ∀ element ∈ call.delivered keys pydantic userId db, element ∈ delivered)
    (ran : call.run keys pydantic userId db = some (.ok (outcome, after))) :
    outcome.brokerTransactionsLanded = 0 ∧ outcome.fillsLanded = 0 := by
  obtain ⟨raw, fills, offer, shape⟩ := sync_call_offers keys pydantic userId call db after outcome ran
  have grew := sync_user_grows keys pydantic call.settings call.vendor call.draws userId call.now db
    after outcome ran
  have known : ∀ element ∈ parsed pydantic (call.delivered keys pydantic userId db),
      element ∈ parsed pydantic delivered := by
    intro element inside
    rw [mem_parsed] at inside ⊢
    exact ⟨old element.1 inside.1, inside.2⟩
  have noRaw : (insertOrSkip db.brokerTransactions raw).2 = [] := by
    apply insert_or_skip_settled
    intro row member
    obtain ⟨element, inside, dek, keyVersion, nonce, _, rowShape⟩ := offer.raw row member
    rw [rowShape]
    exact reached.rawKeys element (known element inside)
  have noFills : (insertOrSkip db.fills fills).2 = [] := by
    apply insert_or_skip_settled
    intro row member
    obtain ⟨element, inside, fill, extracted, rowKey⟩ := offer.fill row member
    rw [rowKey]
    exact reached.fillKeys element (known element inside) fill extracted
  constructor
  · obtain ⟨added, rows, count⟩ := grew.brokerTransactions
    have rows' := insert_or_skip_rows db.brokerTransactions raw
    rw [noRaw, List.append_nil] at rows'
    have final : after.brokerTransactions.rows = db.brokerTransactions.rows := by
      rw [shape]
      exact rows'
    have none : added = [] := by simpa [final] using rows
    rw [← count, none, List.length_nil]
  · obtain ⟨added, rows, count⟩ := grew.fills
    have rows' := insert_or_skip_rows db.fills fills
    rw [noFills, List.append_nil] at rows'
    have final : after.fills.rows = db.fills.rows := by
      rw [shape]
      exact rows'
    have none : added = [] := by simpa [final] using rows
    rw [← count, none, List.length_nil]

/-- A sequence of calls stores what one call over all their elements stores;
rows once stored stay as they are, and a call that brings nothing new lands
nothing. -/
theorem ingest_is_confluent (actions : List Action) (initial : Database) (final : Ingested)
    (ran : runFrom (step keys pydantic userId) actions ⟨initial, []⟩ = some final)
    (whole : SyncCall) (start after : Database) (outcome : SyncOutcome)
    (sameTables : start = { initial with
      schwabConnections := start.schwabConnections, syncRuns := start.syncRuns })
    (one : whole.run keys pydantic userId start = some (.ok (outcome, after)))
    (union : ∀ element, element ∈ whole.delivered keys pydantic userId start ↔
      element ∈ final.delivered)
    (once : OneElementPerActivity pydantic final.delivered) :
    rawContents keys userId final.db = rawContents keys userId after ∧
      storedFillKeys userId final.db = storedFillKeys userId after ∧
      (∀ earlier later middle, actions = earlier ++ later →
        runFrom (step keys pydantic userId) earlier ⟨initial, []⟩ = some middle →
        middle.db.brokerTransactions.rows <+: final.db.brokerTransactions.rows ∧
          middle.db.fills.rows <+: final.db.fills.rows) ∧
      ∀ (call : SyncCall) (again : Database) (landed : SyncOutcome),
        (∀ element ∈ call.delivered keys pydantic userId final.db, element ∈ final.delivered) →
        call.run keys pydantic userId final.db = some (.ok (landed, again)) →
        landed.brokerTransactionsLanded = 0 ∧ landed.fillsLanded = 0 := by
  have sequence := run_reaches keys pydantic userId actions initial final ran
  have single : Reached keys pydantic userId initial after
      (whole.delivered keys pydantic userId start) := by
    have begun : Reached keys pydantic userId initial start [] := by
      apply reached_congr keys pydantic userId initial initial start []
        (reached_start keys pydantic userId initial) <;> rw [sameTables]
    exact sync_call_reaches keys pydantic userId initial start after [] whole outcome begun one
  have onceWhole : OneElementPerActivity pydantic (whole.delivered keys pydantic userId start) := by
    intro left leftMember right rightMember
    rw [mem_parsed] at leftMember rightMember
    exact once left ((mem_parsed _ _ _ _).mpr ⟨(union left.1).mp leftMember.1, leftMember.2⟩) right
      ((mem_parsed _ _ _ _).mpr ⟨(union right.1).mp rightMember.1, rightMember.2⟩)
  refine ⟨?_, ?_, ?_, ?_⟩
  · apply Set.Subset.antisymm
    · exact raw_contents_subset keys pydantic userId initial final.db after _ _ sequence single union
        once
    · exact raw_contents_subset keys pydantic userId initial after final.db _ _ single sequence
        (fun element => (union element).symm) onceWhole
  · apply Set.Subset.antisymm
    · exact fill_keys_subset keys pydantic userId initial final.db after _ _ sequence single union
    · exact fill_keys_subset keys pydantic userId initial after final.db _ _ single sequence
        fun element => (union element).symm
  · intro earlier later middle split early
    rw [split, run_from_append, early] at ran
    exact run_extends keys pydantic userId later middle final ran
  · intro call again landed old returned
    exact settled_call_lands_nothing keys pydantic userId initial final.db again final.delivered call
      landed sequence old returned

end Sequences

/-! ## Two calls that overlap -/

def callWith (elements : List JsonValue) : SyncCall := ⟨{}, answering elements, plainDraws, afternoon⟩

def firstTrade : JsonValue := tradeElement 1 (.str "100")

def secondTrade : JsonValue := tradeElement 2 (.str "200")

theorem ingest_is_confluent_overlap :
    ∃ final after, runFrom (step plainKeys plainPydantic ⟨1⟩)
        [.sync (callWith [firstTrade]), .sync (callWith [secondTrade, firstTrade, firstTrade])]
        ⟨syncedUser, []⟩ = some final ∧
      rawContents plainKeys ⟨1⟩ final.db = rawContents plainKeys ⟨1⟩ after := by
  have returns : ((runFrom (step plainKeys plainPydantic ⟨1⟩)
      [.sync (callWith [firstTrade]), .sync (callWith [secondTrade, firstTrade, firstTrade])]
      ⟨syncedUser, []⟩).any fun final =>
        final.delivered = [firstTrade, secondTrade, firstTrade, firstTrade]) = true := by
    decide +kernel
  have whole : (((callWith [firstTrade, secondTrade]).run plainKeys plainPydantic ⟨1⟩
      syncedUser).any fun ended => ended.toOption.isSome) = true := by decide +kernel
  have delivered : (callWith [firstTrade, secondTrade]).delivered plainKeys plainPydantic ⟨1⟩
      syncedUser = [firstTrade, secondTrade] := by decide +kernel
  obtain ⟨present, gathered⟩ := (Option.any_eq_true_iff_get _ _).mp returns
  have gathered := of_decide_eq_true gathered
  obtain ⟨⟨outcome, after⟩, one⟩ := some_ok_of_any _ whole
  refine ⟨_, after, (Option.some_get present).symm, ?_⟩
  apply (ingest_is_confluent plainKeys plainPydantic ⟨1⟩ _ syncedUser _ (Option.some_get present).symm
    (callWith [firstTrade, secondTrade]) syncedUser after outcome rfl one ?_ ?_).1
  · intro element
    rw [delivered, gathered]
    simp only [List.mem_cons, List.not_mem_nil, or_false]
    tauto
  · rw [gathered]
    unfold OneElementPerActivity
    decide +kernel

end Morai.Ingest.Confluence
