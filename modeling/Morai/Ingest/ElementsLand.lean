import Morai.Ingest.SyncUser

/-!
# Which elements of a response land

A window's list is validated and extracted as a whole, so one element that does
not parse raises out of the run and takes every other element of every window
with it; and both inserts do nothing where a key is taken. So each element's own
copy and its own fills are stored when all of them can be stored and no two
contend for a row.
-/

namespace Morai.Ingest.ElementsLand

open Morai.Crypto Morai.Db Morai.Python Morai.Foundation.PrimaryKey
open Morai.Ledger.Fills Morai.Ingest.ExtractFills Morai.Ingest.Validation
open Morai.Ingest.BrokerTransactions Morai.Ingest.SyncWindows Morai.Ingest.SyncUser
open Morai.Vendor.Connections

set_option autoImplicit false

variable (keys : KeyService) (pydantic : Pydantic) (settings : Settings) (vendor : VendorRun)
  (draws : SyncDraws) (userId : Uuid)

/-- The elements that validate, each with its transaction. -/
def parsed (elements : List JsonValue) : List (JsonValue × Transaction) :=
  elements.filterMap fun element => (validateTransaction pydantic element).map (Prod.mk element)

theorem mem_parsed (elements : List JsonValue) (element : JsonValue) (transaction : Transaction) :
    (element, transaction) ∈ parsed pydantic elements ↔
      element ∈ elements ∧ validateTransaction pydantic element = some transaction := by
  simp only [parsed, List.mem_filterMap, Option.map_eq_some_iff, Prod.mk.injEq]
  constructor
  · intro found
    obtain ⟨other, member, other', validated, same, same'⟩ := found
    exact ⟨same ▸ member, same ▸ same' ▸ validated⟩
  · intro found
    exact ⟨element, found.1, transaction, found.2, rfl, rfl⟩

/-- The list adapter, seen element by element. -/
theorem validate_transactions_parsed (elements : List JsonValue) (transactions : List Transaction)
    (validated : validateTransactions pydantic elements = .ok transactions) :
    elements.zip transactions = parsed pydantic elements ∧
      transactions = (parsed pydantic elements).map Prod.snd := by
  have whole : elements.mapM (validateTransaction pydantic) = some transactions := by
    unfold validateTransactions at validated
    split at validated
    · rename_i found
      rw [found, Except.ok.inj validated]
    · cases validated
  have each := (map_m_some_iff _ _ _).mp whole
  clear validated whole
  induction each with
  | nil => exact ⟨rfl, rfl⟩
  | cons first _ ih =>
      simp only [parsed, List.zip_cons_cons, List.filterMap_cons, first, Option.map_some,
        List.map_cons]
      exact ⟨congrArg _ ih.1, congrArg _ ih.2⟩

/-! ## Lists that can be stored -/

/-- Every element is validated and extracted, and the columns take what comes
of it. -/
structure Storable (elements : List JsonValue) : Prop where
  validates : ∀ element ∈ elements, Validates pydantic element
  returns : ∀ element ∈ parsed pydantic elements, ExtractionReturns element.2
  rawFits : ∀ element ∈ parsed pydantic elements, (elementWrite element).Fits
  fillsFit : ∀ element ∈ parsed pydantic elements, FitsColumns element.2

instance (elements : List JsonValue) : Decidable (Storable pydantic elements) :=
  decidable_of_iff ((∀ element ∈ elements, Validates pydantic element) ∧
    (∀ element ∈ parsed pydantic elements, ExtractionReturns element.2) ∧
    (∀ element ∈ parsed pydantic elements, (elementWrite element).Fits) ∧
    ∀ element ∈ parsed pydantic elements, FitsColumns element.2)
    ⟨fun all => ⟨all.1, all.2.1, all.2.2.1, all.2.2.2⟩,
      fun storable => ⟨storable.validates, storable.returns, storable.rawFits, storable.fillsFit⟩⟩

/-- Lists are storable together when each of them is. -/
theorem storable_flat_map_iff {Window : Type} (windows : List Window)
    (elements : Window → List JsonValue) :
    Storable pydantic (windows.flatMap elements) ↔
      ∀ window ∈ windows, Storable pydantic (elements window) := by
  have inside : ∀ window ∈ windows, ∀ element ∈ parsed pydantic (elements window),
      element ∈ parsed pydantic (windows.flatMap elements) := by
    intro window member element found
    rw [mem_parsed] at found ⊢
    exact ⟨List.mem_flatMap.mpr ⟨window, member, found.1⟩, found.2⟩
  have source : ∀ element ∈ parsed pydantic (windows.flatMap elements), ∃ window ∈ windows,
      element ∈ parsed pydantic (elements window) := by
    intro element found
    rw [mem_parsed] at found
    obtain ⟨window, member, listed⟩ := List.mem_flatMap.mp found.1
    exact ⟨window, member, (mem_parsed pydantic _ element.1 element.2).mpr ⟨listed, found.2⟩⟩
  constructor
  · intro storable window member
    constructor
    · intro element listed
      exact storable.validates element (List.mem_flatMap.mpr ⟨window, member, listed⟩)
    · exact fun element found => storable.returns element (inside window member element found)
    · exact fun element found => storable.rawFits element (inside window member element found)
    · exact fun element found => storable.fillsFit element (inside window member element found)
  · intro each
    constructor
    · intro element found
      obtain ⟨window, member, listed⟩ := List.mem_flatMap.mp found
      exact (each window member).validates element listed
    · intro element found
      obtain ⟨window, member, listed⟩ := source element found
      exact (each window member).returns element listed
    · intro element found
      obtain ⟨window, member, listed⟩ := source element found
      exact (each window member).rawFits element listed
    · intro element found
      obtain ⟨window, member, listed⟩ := source element found
      exact (each window member).fillsFit element listed

/-- The fills of a list of elements, in the order they are inserted. -/
def fillsOfElements (elements : List JsonValue) : List FillWrite :=
  (parsed pydantic elements).flatMap fun element => fillsOf element.2

theorem mem_fills_of_elements (elements : List JsonValue) (fill : FillWrite) :
    fill ∈ fillsOfElements pydantic elements ↔
      ∃ element ∈ parsed pydantic elements, fill ∈ fillsOf element.2 :=
  List.mem_flatMap

theorem extracted_of_elements (elements : List JsonValue) (transactions : List Transaction)
    (extracted : List FillWrite × List String)
    (validated : validateTransactions pydantic elements = .ok transactions)
    (ran : extractAll transactions = .ok extracted) :
    extracted.1 = fillsOfElements pydantic elements := by
  rw [extract_all_fills transactions extracted ran,
    (validate_transactions_parsed pydantic elements transactions validated).2, List.flatMap_map]
  rfl

/-- The rows a window's elements become, in the order they are inserted. -/
def windowRawRows (dek : Bytes) (keyVersion : Int) (index : Nat) (elements : List JsonValue) :
    List BrokerTransaction :=
  brokerTransactionRows keys userId dek keyVersion (draws.raw index)
    ((parsed pydantic elements).map elementWrite).zipIdx

def windowFillRows (dek : Bytes) (keyVersion : Int) (index : Nat) (elements : List JsonValue) :
    List Fill :=
  fillRows keys userId dek keyVersion (draws.fills index) (fillsOfElements pydantic elements).zipIdx

/-- The database with rows offered to the two transaction tables. -/
def offered (db : Database) (rawRows : List BrokerTransaction) (fills : List Fill) : Database :=
  { db with
    brokerTransactions := (insertOrSkip db.brokerTransactions rawRows).1
    fills := (insertOrSkip db.fills fills).1 }

theorem offered_append (db : Database) (raw raw' : List BrokerTransaction)
    (fills fills' : List Fill) :
    offered (offered db raw fills) raw' fills' = offered db (raw ++ raw') (fills ++ fills') := by
  unfold offered
  rw [insert_or_skip_append, insert_or_skip_append]

/-- What is validated, extracted and written of a storable list. -/
theorem storable_stages (elements : List JsonValue) (storable : Storable pydantic elements) :
    ∃ transactions extracted, validateTransactions pydantic elements = .ok transactions ∧
      elements.zip transactions = parsed pydantic elements ∧
      extractAll transactions = .ok extracted ∧
      extracted.1 = fillsOfElements pydantic elements ∧ ∀ fill ∈ extracted.1, fill.Fits := by
  obtain ⟨transactions, validated⟩ :=
    (validate_transactions_ok_iff pydantic elements).mpr storable.validates
  have shape := validate_transactions_parsed pydantic elements transactions validated
  have returns : ∀ transaction ∈ transactions, ExtractionReturns transaction := by
    rw [shape.2]
    exact List.forall_mem_map.mpr storable.returns
  obtain ⟨extracted, ran⟩ := (extract_all_ok_iff transactions).mpr returns
  have fills := extracted_of_elements pydantic elements transactions extracted validated ran
  refine ⟨transactions, extracted, validated, shape.1, ran, fills, fun fill member => ?_⟩
  rw [fills] at member
  obtain ⟨element, listed, inside⟩ := (mem_fills_of_elements pydantic elements fill).mp member
  exact (fills_fit_iff element.2 (storable.returns element listed)).mpr
    (storable.fillsFit element listed) fill inside

theorem sync_window_lands (accountHash : String) (window : SyncWindow × Nat)
    (elements : List JsonValue) (db : Database) (dek : Bytes) (keyVersion : Int)
    (current : currentDek keys db userId = .ok (dek, keyVersion))
    (answered : vendor.getTransactions window.2 accountHash window.1 = .ok (.array elements))
    (storable : Storable pydantic elements) :
    ∃ outcome, syncWindow keys pydantic vendor draws userId accountHash window db =
      .ok (outcome, offered db
        (windowRawRows keys pydantic draws userId dek keyVersion window.2 elements)
        (windowFillRows keys pydantic draws userId dek keyVersion window.2 elements)) := by
  obtain ⟨transactions, extracted, validated, zipped, ran, fillsEq, fillsFit⟩ :=
    storable_stages pydantic elements storable
  have rawFit : ∀ row ∈ (elements.zip transactions).map elementWrite, row.Fits := by
    rw [zipped]
    exact List.forall_mem_map.mpr storable.rawFits
  have raw := insert_broker_transactions_rows keys (draws.raw window.2) userId
    ((elements.zip transactions).map elementWrite) db dek keyVersion current
  have rawStored := (within_columns_ok _ _ _).mpr ⟨rawFit, raw⟩
  have fills := insert_fills_rows keys (draws.fills window.2) userId extracted.1
    { db with brokerTransactions := (insertOrSkip db.brokerTransactions
        (brokerTransactionRows keys userId dek keyVersion (draws.raw window.2)
          ((elements.zip transactions).map elementWrite).zipIdx)).1 } dek keyVersion current
  have fillsStored := (within_columns_ok _ _ _).mpr ⟨fillsFit, fills⟩
  unfold syncWindow windowRawRows windowFillRows
  simp only [answered, validateJsonList, validated, ran, rawStored, fillsStored, bind, Except.bind]
  rw [← fillsEq, ← zipped]
  exact ⟨_, rfl⟩

/-- An empty list needs no data key. -/
theorem sync_window_empty (accountHash : String) (window : SyncWindow × Nat) (db : Database)
    (answered : vendor.getTransactions window.2 accountHash window.1 = .ok (.array [])) :
    syncWindow keys pydantic vendor draws userId accountHash window db = .ok (⟨0, 0, []⟩, db) := by
  unfold syncWindow
  simp only [answered, bind, Except.bind, validateJsonList, validateTransactions]
  rfl

/-- A window returned only if its list was storable. -/
theorem sync_window_storable (accountHash : String) (window : SyncWindow × Nat)
    (elements : List JsonValue) (outcome : SyncOutcome) (db after : Database)
    (answered : vendor.getTransactions window.2 accountHash window.1 = .ok (.array elements))
    (ran : syncWindow keys pydantic vendor draws userId accountHash window db =
      .ok (outcome, after)) : Storable pydantic elements := by
  obtain ⟨rawElements, transactions, extracted, middle, stages⟩ :=
    sync_window_ok keys pydantic vendor draws userId accountHash window outcome db after ran
  have same := stages.answered
  rw [answered] at same
  cases same
  have shape := validate_transactions_parsed pydantic elements transactions stages.validated
  have each := (extract_all_ok_iff transactions).mp ⟨extracted, stages.ran⟩
  rw [shape.2, List.forall_mem_map] at each
  have fillsEq :=
    extracted_of_elements pydantic elements transactions extracted stages.validated stages.ran
  constructor
  · exact (validate_transactions_ok_iff pydantic elements).mp ⟨transactions, stages.validated⟩
  · exact each
  · have fits := stages.rawFit
    rw [shape.1] at fits
    exact List.forall_mem_map.mp fits
  · intro element listed
    apply (fills_fit_iff element.2 (each element listed)).mp
    intro fill inside
    apply stages.fillsFit
    rw [fillsEq]
    exact (mem_fills_of_elements pydantic elements fill).mpr ⟨element, listed, inside⟩

theorem sync_each_lands (accountHash : String) (elements : Nat → List JsonValue) (dek : Bytes)
    (keyVersion : Int) (windows : List (SyncWindow × Nat)) (sofar : SyncOutcome) (db : Database)
    (current : currentDek keys db userId = .ok (dek, keyVersion))
    (answered : ∀ window ∈ windows,
      vendor.getTransactions window.2 accountHash window.1 = .ok (.array (elements window.2)))
    (storable : ∀ window ∈ windows, Storable pydantic (elements window.2)) :
    ∃ outcome, syncEach keys pydantic vendor draws userId accountHash windows sofar db =
      .ok (outcome, offered db
        (windows.flatMap fun window => windowRawRows keys pydantic draws userId dek keyVersion
          window.2 (elements window.2))
        (windows.flatMap fun window => windowFillRows keys pydantic draws userId dek keyVersion
          window.2 (elements window.2))) := by
  induction windows generalizing sofar db with
  | nil => exact ⟨sofar, rfl⟩
  | cons window rest ih =>
      obtain ⟨part, first⟩ := sync_window_lands keys pydantic vendor draws userId accountHash window
        (elements window.2) db dek keyVersion current (answered window List.mem_cons_self)
        (storable window List.mem_cons_self)
      obtain ⟨outcome, later⟩ := ih (sofar.add part) (offered db _ _) current
        (fun other member => answered other (List.mem_cons_of_mem _ member))
        (fun other member => storable other (List.mem_cons_of_mem _ member))
      refine ⟨outcome, ?_⟩
      simp only [syncEach, first, bind, Except.bind, List.flatMap_cons]
      rw [← offered_append]
      exact later

/-- A loop that returned had every list of every window storable. -/
theorem sync_each_storable (accountHash : String) (elements : Nat → List JsonValue)
    (windows : List (SyncWindow × Nat)) (sofar outcome : SyncOutcome) (db after : Database)
    (answered : ∀ window ∈ windows,
      vendor.getTransactions window.2 accountHash window.1 = .ok (.array (elements window.2)))
    (ran : syncEach keys pydantic vendor draws userId accountHash windows sofar db =
      .ok (outcome, after)) :
    ∀ window ∈ windows, Storable pydantic (elements window.2) := by
  induction windows generalizing sofar db with
  | nil => simp
  | cons window rest ih =>
      obtain ⟨⟨part, middle⟩, first, later⟩ := bind_ok _ _ _ ran
      have here := sync_window_storable keys pydantic vendor draws userId accountHash window _ part db
        middle (answered window List.mem_cons_self) first
      have others := ih (sofar.add part) middle
        (fun other member => answered other (List.mem_cons_of_mem _ member)) later
      exact List.forall_mem_cons.mpr ⟨here, others⟩

/-- A run in which nothing but the elements can go wrong: the connection is
readable, the data key is there, the client is built, each call is answered
with a JSON list, and a rotated token has the vendor's shape. -/
structure ReadyRun (now : Instant) (db : Database) (connection : ConnectionRecord)
    (windows : List SyncWindow) (dek : Bytes) (keyVersion : Int)
    (elements : Nat → List JsonValue) : Prop where
  read : readConnection keys pydantic userId db = .ok (some connection)
  planned : syncWindows connection.lastSyncedAt now settings = some (.ok windows)
  current : currentDek keys db userId = .ok (dek, keyVersion)
  built : ∀ token, vendor.buildClient token = .ok ()
  answered : ∀ window ∈ windows.zipIdx, vendor.getTransactions window.2 connection.accountHash
    window.1 = .ok (.array (elements window.2))
  written : ∀ token, vendor.written = some token →
    (validateWrappedToken pydantic token).isSome = true

/-- All elements of all windows, in the order they arrive. -/
def deliveredElements (windows : List SyncWindow) (elements : Nat → List JsonValue) :
    List JsonValue :=
  windows.zipIdx.flatMap fun window => elements window.2

theorem write_back_runs (nonce : Bytes) (holder : TokenHolder) (db : Database) (dek : Bytes)
    (keyVersion : Int) (current : currentDek keys db userId = .ok (dek, keyVersion))
    (shaped : holder.wrote = true → (validateWrappedToken pydantic holder.token).isSome = true) :
    ∃ schwabConnections, writeBack keys pydantic nonce userId holder db =
      .ok { db with schwabConnections := schwabConnections } := by
  unfold writeBack
  split_ifs with wrote
  · obtain ⟨token, validated⟩ := Option.isSome_iff_exists.mp (shaped wrote)
    simp only [validated, current, bind, Except.bind]
    cases db.schwabConnections.get? userId with
    | none => exact ⟨db.schwabConnections, rfl⟩
    | some row => exact ⟨_, rfl⟩
  · exact ⟨db.schwabConnections, rfl⟩

/-- The rows of a run, over all its windows. -/
def runRawRows (dek : Bytes) (keyVersion : Int) (windows : List SyncWindow)
    (elements : Nat → List JsonValue) : List BrokerTransaction :=
  windows.zipIdx.flatMap fun window =>
    windowRawRows keys pydantic draws userId dek keyVersion window.2 (elements window.2)

def runFillRows (dek : Bytes) (keyVersion : Int) (windows : List SyncWindow)
    (elements : Nat → List JsonValue) : List Fill :=
  windows.zipIdx.flatMap fun window =>
    windowFillRows keys pydantic draws userId dek keyVersion window.2 (elements window.2)

/-- The database with the rows of a run offered. -/
def offeredRun (dek : Bytes) (keyVersion : Int) (windows : List SyncWindow)
    (elements : Nat → List JsonValue) (db : Database) : Database :=
  offered db (runRawRows keys pydantic draws userId dek keyVersion windows elements)
    (runFillRows keys pydantic draws userId dek keyVersion windows elements)

/-- Every list is offered to the two tables, and only the connection may
change besides. -/
theorem ready_run_lands (now : Instant) (db : Database) (connection : ConnectionRecord)
    (windows : List SyncWindow) (dek : Bytes) (keyVersion : Int) (elements : Nat → List JsonValue)
    (ready : ReadyRun keys pydantic settings vendor userId now db connection windows dek keyVersion
      elements)
    (storable : Storable pydantic (deliveredElements windows elements)) :
    ∃ outcome schwabConnections, syncUser keys pydantic settings vendor draws userId now db =
      some (.ok (outcome,
        { offeredRun keys pydantic draws userId dek keyVersion windows elements db with
          schwabConnections := schwabConnections })) := by
  obtain ⟨outcome, synced⟩ := sync_each_lands keys pydantic vendor draws userId
    connection.accountHash elements dek keyVersion windows.zipIdx ⟨0, 0, []⟩ db ready.current
    ready.answered ((storable_flat_map_iff pydantic _ _).mp storable)
  have opened : ∃ holder, openHolder keys pydantic userId db = .ok holder ∧
      holder.wrote = false := by
    unfold openHolder
    rw [ready.read]
    exact ⟨_, rfl, rfl⟩
  obtain ⟨holder, opened, idle⟩ := opened
  have shaped : (afterVendor vendor holder).wrote = true →
      (validateWrappedToken pydantic (afterVendor vendor holder).token).isSome = true := by
    unfold afterVendor
    cases written : vendor.written with
    | none => simp [idle]
    | some token => exact fun _ => ready.written token written
  obtain ⟨schwabConnections, wrote⟩ := write_back_runs keys pydantic userId draws.token
    (afterVendor vendor holder)
    (offeredRun keys pydantic draws userId dek keyVersion windows elements db) dek keyVersion
    ready.current shaped
  refine ⟨outcome, schwabConnections, ?_⟩
  unfold offeredRun runRawRows runFillRows at wrote ⊢
  unfold syncUser syncWithClient
  simp only [ready.read, ready.planned, opened, ready.built, synced, wrote, bind, Except.bind]

/-- A ready run returned only if everything delivered was storable. -/
theorem ready_run_storable (now : Instant) (db after : Database) (connection : ConnectionRecord)
    (windows : List SyncWindow) (dek : Bytes) (keyVersion : Int) (elements : Nat → List JsonValue)
    (outcome : SyncOutcome)
    (ready : ReadyRun keys pydantic settings vendor userId now db connection windows dek keyVersion
      elements)
    (ran : syncUser keys pydantic settings vendor draws userId now db =
      some (.ok (outcome, after))) : Storable pydantic (deliveredElements windows elements) := by
  obtain ⟨other, planned, holder, middle, stages⟩ :=
    sync_user_ok keys pydantic settings vendor draws userId now db after outcome ran
  have sameConnection := stages.read
  rw [ready.read] at sameConnection
  cases sameConnection
  have sameWindows := stages.planned
  rw [ready.planned] at sameWindows
  cases sameWindows
  apply (storable_flat_map_iff pydantic _ _).mpr
  exact sync_each_storable keys pydantic vendor draws userId connection.accountHash elements
    windows.zipIdx _ outcome db middle ready.answered stages.synced

theorem mem_run_raw_rows (dek : Bytes) (keyVersion : Int) (windows : List SyncWindow)
    (elements : Nat → List JsonValue) (row : BrokerTransaction)
    (member : row ∈ runRawRows keys pydantic draws userId dek keyVersion windows elements) :
    ∃ element ∈ parsed pydantic (deliveredElements windows elements), ∃ nonce,
      row = brokerTransactionRow keys userId dek keyVersion nonce (elementWrite element) := by
  obtain ⟨window, windowMember, inside⟩ := List.mem_flatMap.mp member
  obtain ⟨write, writeMember, nonce, shape⟩ :=
    mem_broker_transaction_rows keys userId dek keyVersion _ _ row inside
  obtain ⟨element, listed, rfl⟩ := List.mem_map.mp writeMember
  have validated := (mem_parsed pydantic _ element.1 element.2).mp listed
  exact ⟨element, (mem_parsed pydantic _ element.1 element.2).mpr
    ⟨List.mem_flatMap.mpr ⟨window, windowMember, validated.1⟩, validated.2⟩, nonce, shape⟩

theorem run_raw_rows_keys (dek : Bytes) (keyVersion : Int) (windows : List SyncWindow)
    (elements : Nat → List JsonValue) (element : JsonValue × Transaction)
    (listed : element ∈ parsed pydantic (deliveredElements windows elements)) :
    (userId, element.2.activityId.str) ∈
      (runRawRows keys pydantic draws userId dek keyVersion windows elements).map
        BrokerTransaction.primaryKey := by
  obtain ⟨arrived, validated⟩ := (mem_parsed pydantic _ element.1 element.2).mp listed
  obtain ⟨window, windowMember, inside⟩ := List.mem_flatMap.mp arrived
  rw [runRawRows, List.map_flatMap]
  apply List.mem_flatMap.mpr
  refine ⟨window, windowMember, ?_⟩
  rw [windowRawRows, broker_transaction_rows_keys, List.map_map]
  exact List.mem_map.mpr ⟨element,
    (mem_parsed pydantic _ element.1 element.2).mpr ⟨inside, validated⟩, rfl⟩

theorem mem_run_fill_rows (dek : Bytes) (keyVersion : Int) (windows : List SyncWindow)
    (elements : Nat → List JsonValue) (row : Fill)
    (member : row ∈ runFillRows keys pydantic draws userId dek keyVersion windows elements) :
    ∃ element ∈ parsed pydantic (deliveredElements windows elements), ∃ fill ∈ fillsOf element.2,
      ∃ draw, row = fillRow keys userId dek keyVersion draw fill := by
  obtain ⟨window, windowMember, inside⟩ := List.mem_flatMap.mp member
  obtain ⟨fill, fillMember, draw, shape⟩ := mem_fill_rows keys userId dek keyVersion _ _ row inside
  obtain ⟨element, listed, extracted⟩ := (mem_fills_of_elements pydantic _ fill).mp fillMember
  have validated := (mem_parsed pydantic _ element.1 element.2).mp listed
  exact ⟨element, (mem_parsed pydantic _ element.1 element.2).mpr
    ⟨List.mem_flatMap.mpr ⟨window, windowMember, validated.1⟩, validated.2⟩, fill, extracted, draw,
    shape⟩

theorem run_fill_rows_keys (dek : Bytes) (keyVersion : Int) (windows : List SyncWindow)
    (elements : Nat → List JsonValue) (element : JsonValue × Transaction)
    (listed : element ∈ parsed pydantic (deliveredElements windows elements)) (fill : FillWrite)
    (extracted : fill ∈ fillsOf element.2) :
    (userId, fill.key) ∈ (runFillRows keys pydantic draws userId dek keyVersion windows elements).map
      Fill.primaryKey := by
  obtain ⟨arrived, validated⟩ := (mem_parsed pydantic _ element.1 element.2).mp listed
  obtain ⟨window, windowMember, inside⟩ := List.mem_flatMap.mp arrived
  rw [runFillRows, List.map_flatMap]
  apply List.mem_flatMap.mpr
  refine ⟨window, windowMember, ?_⟩
  rw [windowFillRows, fill_rows_keys]
  exact List.mem_map.mpr ⟨fill, (mem_fills_of_elements pydantic _ fill).mpr ⟨element,
    (mem_parsed pydantic _ element.1 element.2).mpr ⟨inside, validated⟩, extracted⟩, rfl⟩

/-! ## Reading the raw store -/

def rawKeyMissing : Raised := .noResultFound

def rawText (db : Database) (row : BrokerTransaction) : Except Raised String := do
  let dek ← dekForVersion keys rawKeyMissing db userId row.keyVersion
  decryptText keys row.rawCiphertext row.rawNonce dek
    (brokerTransactionAssociatedData "raw_ciphertext" userId row.activityId)

theorem raw_text_row (db : Database) (dek : Bytes) (keyVersion : Int)
    (current : currentDek keys db userId = .ok (dek, keyVersion)) (nonce : Bytes)
    (write : BrokerTransactionWrite) :
    rawText keys userId db (brokerTransactionRow keys userId dek keyVersion nonce write) =
      .ok (jsonDumps write.rawPayload) := by
  have found := dek_for_current_version keys rawKeyMissing db userId dek keyVersion current
  have version : (brokerTransactionRow keys userId dek keyVersion nonce write).keyVersion =
      keyVersion := rfl
  simp only [rawText, version, found, bind, Except.bind, decryptText]
  have opened := broker_transaction_row_decrypts keys userId dek keyVersion nonce write
  have activity : (brokerTransactionRow keys userId dek keyVersion nonce write).activityId =
      write.activityId := rfl
  rw [activity, opened]

theorem raw_text_congr (db db' : Database) (same : db.userDataKeys = db'.userDataKeys)
    (row : BrokerTransaction) : rawText keys userId db row = rawText keys userId db' row := by
  unfold rawText dekForVersion
  rw [same]

/-! ## Rows and what they were written of -/

/-- The raw copy is the element's, its payload included. -/
structure IsCopyOf (db : Database) (element : JsonValue × Transaction)
    (row : BrokerTransaction) : Prop where
  transactionType : row.transactionType = element.2.type
  transactionTime : row.transactionTime = element.2.time
  orderId : row.orderId = element.2.orderId
  rawPayload : rawText keys userId db row = .ok (jsonDumps element.1)

/-- The row reads back as the fill. -/
def IsRowOf (db : Database) (fill : FillWrite) (row : Fill) : Prop :=
  readFill keys db userId row = .ok (recordOf userId row.keyVersion fill)

/-- Two elements have the same raw copy. -/
def SameCopy (left right : JsonValue × Transaction) : Prop :=
  left.2.type = right.2.type ∧ left.2.time = right.2.time ∧ left.2.orderId = right.2.orderId ∧
    jsonDumps left.1 = jsonDumps right.1

instance (left right : JsonValue × Transaction) : Decidable (SameCopy left right) :=
  inferInstanceAs (Decidable (_ ∧ _))

theorem is_copy_of_written (db : Database) (dek : Bytes) (keyVersion : Int) (nonce : Bytes)
    (current : currentDek keys db userId = .ok (dek, keyVersion))
    (element : JsonValue × Transaction) :
    IsCopyOf keys userId db element
      (brokerTransactionRow keys userId dek keyVersion nonce (elementWrite element)) :=
  ⟨rfl, rfl, rfl, raw_text_row keys userId db dek keyVersion current nonce (elementWrite element)⟩

theorem is_copy_of_same (db : Database) (left right : JsonValue × Transaction)
    (row : BrokerTransaction) (copy : IsCopyOf keys userId db left row) :
    IsCopyOf keys userId db right row ↔ SameCopy left right := by
  constructor
  · intro other
    have texts := copy.rawPayload.symm.trans other.rawPayload
    exact ⟨copy.transactionType.symm.trans other.transactionType,
      copy.transactionTime.symm.trans other.transactionTime, copy.orderId.symm.trans other.orderId,
      Except.ok.inj texts⟩
  · intro same
    obtain ⟨type, time, order, text⟩ := same
    exact ⟨copy.transactionType.trans type, copy.transactionTime.trans time,
      copy.orderId.trans order, text ▸ copy.rawPayload⟩

theorem is_copy_of_congr (db db' : Database) (same : db.userDataKeys = db'.userDataKeys)
    (element : JsonValue × Transaction) (row : BrokerTransaction)
    (copy : IsCopyOf keys userId db element row) : IsCopyOf keys userId db' element row :=
  ⟨copy.transactionType, copy.transactionTime, copy.orderId,
    (raw_text_congr keys userId db db' same row) ▸ copy.rawPayload⟩

theorem is_row_of_unique (db : Database) (left right : FillWrite) (row : Fill)
    (ofLeft : IsRowOf keys userId db left row) (ofRight : IsRowOf keys userId db right row) :
    left = right := by
  have same := Except.ok.inj (ofLeft.symm.trans ofRight)
  simp only [Morai.Ledger.Fills.recordOf, FillRecord.mk.injEq, true_and, and_true] at same
  cases left
  cases right
  obtain ⟨rfl, rfl, rfl, rfl, rfl, rfl, rfl, rfl⟩ := same
  rfl

theorem is_row_of_congr (db db' : Database) (same : db.userDataKeys = db'.userDataKeys)
    (fill : FillWrite) (row : Fill) (ofFill : IsRowOf keys userId db fill row) :
    IsRowOf keys userId db' fill row := by
  unfold IsRowOf readFill dekForVersion at *
  rw [← same]
  exact ofFill

/-! ## What is stored afterwards -/

/-- A fill row under this key is the activity's: its raw copy is beside it, and
no raw copy of another activity yields a fill of that key. -/
structure OwnRow (db : Database) (activityId : String) (key : FillKey) : Prop where
  copied : db.brokerTransactions.Has (userId, activityId)
  sole : ∀ other transaction row, validateTransaction pydantic other = some transaction →
    transaction.activityId.str ≠ activityId →
      db.brokerTransactions.get? (userId, transaction.activityId.str) = some row →
        IsCopyOf keys userId db (other, transaction) row →
          ∀ fill ∈ fillsOf transaction, fill.key ≠ key

/-- The element's raw copy and its fills stand under their keys, and no fill of
another delivered activity shares a row with one of them. A fill row there
before the run was the activity's own. -/
structure ElementStored (delivered : List JsonValue) (before after : Database)
    (element : JsonValue × Transaction) : Prop where
  raw : ∃ row, after.brokerTransactions.get? (userId, element.2.activityId.str) = some row ∧
    IsCopyOf keys userId after element row
  fills : ∀ fill ∈ fillsOf element.2, ∃ row, after.fills.get? (userId, fill.key) = some row ∧
    IsRowOf keys userId after fill row
  own : ∀ fill ∈ fillsOf element.2, ∀ other ∈ parsed pydantic delivered,
    other.2.activityId.str ≠ element.2.activityId.str → ∀ fill' ∈ fillsOf other.2,
      after.fills.get? (userId, fill'.key) ≠ after.fills.get? (userId, fill.key)
  early : ∀ fill ∈ fillsOf element.2, before.fills.Has (userId, fill.key) →
    OwnRow keys pydantic userId before element.2.activityId.str fill.key

/-- No two delivered elements contend for a row. -/
structure Uncontended (delivered : List JsonValue) : Prop where
  raw : ∀ left ∈ parsed pydantic delivered, ∀ right ∈ parsed pydantic delivered,
    left.2.activityId.str = right.2.activityId.str → SameCopy left right
  fills : ∀ left ∈ parsed pydantic delivered, ∀ right ∈ parsed pydantic delivered,
    ∀ fill ∈ fillsOf left.2, ∀ fill' ∈ fillsOf right.2, fill.key = fill'.key →
      fill = fill' ∧ left.2.activityId.str = right.2.activityId.str

instance (delivered : List JsonValue) : Decidable (Uncontended pydantic delivered) :=
  decidable_of_iff ((∀ left ∈ parsed pydantic delivered, ∀ right ∈ parsed pydantic delivered,
      left.2.activityId.str = right.2.activityId.str → SameCopy left right) ∧
    ∀ left ∈ parsed pydantic delivered, ∀ right ∈ parsed pydantic delivered,
      ∀ fill ∈ fillsOf left.2, ∀ fill' ∈ fillsOf right.2, fill.key = fill'.key →
        fill = fill' ∧ left.2.activityId.str = right.2.activityId.str)
    ⟨fun both => ⟨both.1, both.2⟩, fun free => ⟨free.raw, free.fills⟩⟩

/-- What stands under the key of a delivered element already is that
element's. -/
structure KeysHeld (delivered : List JsonValue) (before : Database) : Prop where
  raw : ∀ element ∈ parsed pydantic delivered, ∀ row,
    before.brokerTransactions.get? (userId, element.2.activityId.str) = some row →
      IsCopyOf keys userId before element row
  fills : ∀ element ∈ parsed pydantic delivered, ∀ fill ∈ fillsOf element.2, ∀ row,
    before.fills.get? (userId, fill.key) = some row →
      IsRowOf keys userId before fill row ∧
        OwnRow keys pydantic userId before element.2.activityId.str fill.key

section Offered

variable (dek : Bytes) (keyVersion : Int) (windows : List SyncWindow)
  (elements : Nat → List JsonValue) (before : Database)

theorem offered_raw_stored
    (current : currentDek keys before userId = .ok (dek, keyVersion))
    (free : Uncontended pydantic (deliveredElements windows elements))
    (held : KeysHeld keys pydantic userId (deliveredElements windows elements) before)
    (element : JsonValue × Transaction)
    (listed : element ∈ parsed pydantic (deliveredElements windows elements)) :
    ∃ row, (offeredRun keys pydantic draws userId dek keyVersion windows elements
        before).brokerTransactions.get? (userId, element.2.activityId.str) = some row ∧
      IsCopyOf keys userId before element row := by
  have wanted := run_raw_rows_keys keys pydantic draws userId dek keyVersion windows elements element
    listed
  obtain ⟨row, stored, old | ⟨new, sameKey⟩⟩ :=
    insert_or_skip_stored before.brokerTransactions _ _ wanted
  · exact ⟨row, stored, held.raw element listed row old⟩
  · obtain ⟨other, otherListed, nonce, shape⟩ := mem_run_raw_rows keys pydantic draws userId dek
      keyVersion windows elements row new
    have sameActivity : other.2.activityId.str = element.2.activityId.str := by
      rw [shape] at sameKey
      exact congrArg Prod.snd sameKey
    have copy := is_copy_of_written keys userId before dek keyVersion nonce current other
    rw [← shape] at copy
    exact ⟨row, stored, (is_copy_of_same keys userId before other element row copy).mpr
      (free.raw other otherListed element listed sameActivity)⟩

theorem offered_fill_stored
    (current : currentDek keys before userId = .ok (dek, keyVersion))
    (free : Uncontended pydantic (deliveredElements windows elements))
    (held : KeysHeld keys pydantic userId (deliveredElements windows elements) before)
    (element : JsonValue × Transaction)
    (listed : element ∈ parsed pydantic (deliveredElements windows elements)) (fill : FillWrite)
    (extracted : fill ∈ fillsOf element.2) :
    ∃ row, (offeredRun keys pydantic draws userId dek keyVersion windows elements
        before).fills.get? (userId, fill.key) = some row ∧ IsRowOf keys userId before fill row := by
  have wanted := run_fill_rows_keys keys pydantic draws userId dek keyVersion windows elements element
    listed fill extracted
  obtain ⟨row, stored, old | ⟨new, sameKey⟩⟩ := insert_or_skip_stored before.fills _ _ wanted
  · exact ⟨row, stored, (held.fills element listed fill extracted row old).1⟩
  · obtain ⟨other, otherListed, fill', otherExtracted, draw, shape⟩ := mem_run_fill_rows keys pydantic
      draws userId dek keyVersion windows elements row new
    have keysAgree : fill'.key = fill.key := by
      rw [shape] at sameKey
      exact congrArg Prod.snd sameKey
    obtain ⟨same, _⟩ :=
      free.fills other otherListed element listed fill' otherExtracted fill extracted keysAgree
    refine ⟨row, stored, ?_⟩
    have version : row.keyVersion = keyVersion := by
      rw [shape]
      rfl
    unfold IsRowOf
    rw [version, shape, ← same]
    exact read_fill_row keys before userId dek keyVersion draw fill' current

/-- Where the rows of a run are offered, every element is stored unless another
one contends with it for a row. -/
theorem offered_elements_stored_iff
    (current : currentDek keys before userId = .ok (dek, keyVersion))
    (schwabConnections : KeyedTable SchwabConnection.userId)
    (after : Database)
    (ended : after =
      { offeredRun keys pydantic draws userId dek keyVersion windows elements before with
        schwabConnections := schwabConnections }) :
    (∀ element ∈ parsed pydantic (deliveredElements windows elements),
        ElementStored keys pydantic userId (deliveredElements windows elements) before after
          element) ↔
      Uncontended pydantic (deliveredElements windows elements) ∧
        KeysHeld keys pydantic userId (deliveredElements windows elements) before := by
  have sameKeys : before.userDataKeys = after.userDataKeys := by
    rw [ended]
    rfl
  have raw : after.brokerTransactions = (offeredRun keys pydantic draws userId dek keyVersion windows
      elements before).brokerTransactions := by rw [ended]
  have fills : after.fills = (offeredRun keys pydantic draws userId dek keyVersion windows elements
      before).fills := by rw [ended]
  constructor
  · intro stored
    refine ⟨⟨?_, ?_⟩, ?_, ?_⟩
    · intro left leftListed right rightListed same
      obtain ⟨row, found, copy⟩ := (stored left leftListed).raw
      obtain ⟨row', found', copy'⟩ := (stored right rightListed).raw
      rw [← same, found] at found'
      cases found'
      exact (is_copy_of_same keys userId after left right row copy).mp copy'
    · intro left leftListed right rightListed fill extracted fill' extracted' same
      obtain ⟨row, found, ofFill⟩ := (stored left leftListed).fills fill extracted
      obtain ⟨row', found', ofFill'⟩ := (stored right rightListed).fills fill' extracted'
      rw [← same, found] at found'
      cases found'
      refine ⟨is_row_of_unique keys userId after fill fill' row ofFill ofFill', ?_⟩
      by_contra apart
      exact (stored right rightListed).own fill' extracted' left leftListed apart fill extracted
        (by rw [same])
    · intro element listed row old
      obtain ⟨row', found, copy⟩ := (stored element listed).raw
      have kept : after.brokerTransactions.get? (userId, element.2.activityId.str) = some row := by
        rw [raw, offeredRun, offered, insert_or_skip_get, old, Option.some_or]
      rw [kept] at found
      cases found
      exact is_copy_of_congr keys userId after before sameKeys.symm element row copy
    · intro element listed fill extracted row old
      obtain ⟨row', found, ofFill⟩ := (stored element listed).fills fill extracted
      have kept : after.fills.get? (userId, fill.key) = some row := by
        rw [fills, offeredRun, offered, insert_or_skip_get, old, Option.some_or]
      rw [kept] at found
      cases found
      refine ⟨is_row_of_congr keys userId after before sameKeys.symm fill row ofFill, ?_⟩
      obtain ⟨member, sameKey⟩ := (get_eq_some_iff _ _ _).mp old
      exact (stored element listed).early fill extracted (List.mem_map.mpr ⟨row, member, sameKey⟩)
  · intro both element listed
    obtain ⟨free, held⟩ := both
    have fillStored : ∀ other ∈ parsed pydantic (deliveredElements windows elements),
        ∀ fill ∈ fillsOf other.2, ∃ row, after.fills.get? (userId, fill.key) = some row ∧
          IsRowOf keys userId after fill row := by
      intro other otherListed fill extracted
      obtain ⟨row, stored, ofFill⟩ := offered_fill_stored keys pydantic draws userId dek keyVersion
        windows elements before current free held other otherListed fill extracted
      exact ⟨row, fills ▸ stored, is_row_of_congr keys userId before after sameKeys fill row ofFill⟩
    constructor
    · obtain ⟨row, stored, copy⟩ := offered_raw_stored keys pydantic draws userId dek keyVersion
        windows elements before current free held element listed
      exact ⟨row, raw ▸ stored, is_copy_of_congr keys userId before after sameKeys element row copy⟩
    · exact fillStored element listed
    · intro fill extracted other otherListed apart fill' extracted' shared
      obtain ⟨row, found, _⟩ := fillStored element listed fill extracted
      have found' := shared.trans found
      have sameKey := (((get_eq_some_iff _ _ _).mp found').2).symm.trans
        ((get_eq_some_iff _ _ _).mp found).2
      exact apart (free.fills other otherListed element listed fill' extracted' fill extracted
        (congrArg Prod.snd sameKey)).2
    · intro fill extracted present
      obtain ⟨row, member, sameKey⟩ := List.mem_map.mp present
      have old := (get_eq_some_iff _ _ _).mpr ⟨member, sameKey⟩
      exact (held.fills element listed fill extracted row old).2

end Offered

def tradeElement (activityId : Int) (orderId : JsonValue) : JsonValue :=
  .object [("activityId", .int activityId), ("type", .str "TRADE"),
    ("time", .str "2026-06-18T14:30:00+00:00"), ("orderId", orderId),
    ("transferItems", .array [.object [
      ("instrument", .object [("symbol", .str "SPXW  260618P07275000"),
        ("assetType", .str "OPTION")]),
      ("amount", .int (-1)), ("price", .float "44.8567"), ("cost", .float "4485.67"),
      ("positionEffect", .str "OPENING")]])]

def answering (elements : List JsonValue) : VendorRun where
  buildClient _ := .ok ()
  getTransactions _ _ _ := .ok (.array elements)
  written := none

def plainDraws : SyncDraws := ⟨fun _ row => [UInt8.ofNat row], fun _ => plainDraw, [5]⟩

/-- Synced up to midnight of 2026-06-18. -/
def syncedRow : SchwabConnection where
  userId := ⟨1⟩
  accountHashCiphertext := encryptAccountHash plainKeys ⟨1⟩ [7] [2] "hash"
  accountHashNonce := [2]
  tokenCiphertext := encryptToken plainKeys ⟨1⟩ [7] [4] (.str "refresh")
  tokenNonce := [4]
  keyVersion := 1
  tokenCreatedAt := 1781568000000000
  lastSyncedAt := some 1781740800000000
  reauthNotifiedAt := none

def syncedUser : Database := storeConnection provisionedUser syncedRow

/-- 15:00 of the same day. -/
def afternoon : Instant := 1781794800000000

theorem synced_user_ready (elements : List JsonValue) :
    ReadyRun plainKeys plainPydantic {} (answering elements) ⟨1⟩ afternoon syncedUser
      (recordOf ⟨1⟩ syncedRow "hash" (.str "refresh")) [(1781654400000000, afternoon)] [7] 1
      fun _ => elements where
  read := by
    have stored : syncedUser.schwabConnections.get? ⟨1⟩ = some syncedRow := by
      rw [syncedUser, store_connection_get]
      rfl
    unfold readConnection
    rw [stored]
    have current : currentDek plainKeys syncedUser ⟨1⟩ = .ok ([7], 1) := by decide
    have holds : RowHolds plainKeys ⟨1⟩ [7] 1 syncedRow "hash" (.str "refresh") :=
      ⟨rfl, rfl, rfl, rfl⟩
    have readsBack : plainPydantic.validateJson (jsonDumps (.str "refresh")) =
        some (.str "refresh") := by rfl
    simp only [read_row_of_holds plainKeys plainPydantic syncedUser ⟨1⟩ syncedRow [7] 1 "hash"
      (.str "refresh") current holds readsBack]
    rfl
  planned := by decide +kernel
  current := by decide
  built _ := rfl
  answered _ _ := rfl
  written _ none := by cases none

end Morai.Ingest.ElementsLand
