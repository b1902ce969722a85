import Morai.Crypto.Envelope

/-!
# The event table's write and read path

`insert_events` adds rows to the session one by one and flushes once per
chunk; a `ROLL` without both amounts raises in the middle of that loop. The
session is explicit: `stored` are the rows sent to the database, `pending`
the added ones a later flush or commit would send.
-/

namespace Morai.Ledger.Events

open Morai.Crypto Morai.Db Morai.Python Morai.Foundation.PrimaryKey

set_option autoImplicit false

/-- NN-5, D3-16. -/
def chunkSize : Nat := 2000

structure EventWrite where
  positionId : Uuid
  eventType : String
  eventTime : Instant
  fillIdsHash : Option String
  openDebitUsd : Option Decimal
  closeCreditUsd : Option Decimal
  deriving DecidableEq, Repr

structure EventRecord where
  id : Uuid
  userId : Uuid
  positionId : Uuid
  eventType : String
  eventTime : Instant
  fillIdsHash : Option String
  openDebitUsd : Option Decimal
  closeCreditUsd : Option Decimal
  keyVersion : Int
  deriving DecidableEq, Repr

/-- `_event_associated_data`. -/
def eventAssociatedData (column : String) (eventId : Uuid) : String :=
  "events:" ++ column ++ ":" ++ eventId.text

/-- `uuid4()` and the two nonces drawn for one event. -/
structure EventDraw where
  eventId : Uuid
  openDebitNonce : Bytes
  closeCreditNonce : Bytes

structure EventSession where
  stored : List Event
  pending : List Event

def missingRollAmount : Raised :=
  .valueError ("A ROLL event requires both open_debit_usd and close_credit_usd -- a compound " ++
    "event keeps its split (LEDGER-04, D3-09).")

def RollWithoutBoth (event : EventWrite) : Prop :=
  event.eventType = "ROLL" ∧ (event.openDebitUsd = none ∨ event.closeCreditUsd = none)

instance (event : EventWrite) : Decidable (RollWithoutBoth event) :=
  inferInstanceAs (Decidable (_ ∧ _))

/-- `events_event_type_check`. -/
def EventTypeCheck (row : Event) : Prop :=
  row.eventType = "OPEN" ∨ row.eventType = "CLOSE" ∨ row.eventType = "ROLL" ∨
    row.eventType = "SETTLEMENT"

/-- `roll_has_both_legs`. -/
def RollHasBothLegs (row : Event) : Prop :=
  row.eventType ≠ "ROLL" ∨
    (row.openDebitUsdCiphertext ≠ none ∧ row.closeCreditUsdCiphertext ≠ none)

instance (row : Event) : Decidable (EventTypeCheck row) := inferInstanceAs (Decidable (_ ∨ _))

instance (row : Event) : Decidable (RollHasBothLegs row) := inferInstanceAs (Decidable (_ ∨ _))

variable (keys : KeyService)

def eventRow (userId : Uuid) (dek : Bytes) (keyVersion : Int) (draw : EventDraw)
    (event : EventWrite) : Event :=
  let openDebit := encryptDecimal keys dek (eventAssociatedData "open_debit_usd" draw.eventId)
    draw.openDebitNonce event.openDebitUsd
  let closeCredit := encryptDecimal keys dek (eventAssociatedData "close_credit_usd" draw.eventId)
    draw.closeCreditNonce event.closeCreditUsd
  { id := draw.eventId
    userId := userId
    positionId := event.positionId
    eventType := event.eventType
    eventTime := event.eventTime
    fillIdsHash := event.fillIdsHash
    openDebitUsdCiphertext := openDebit.1
    openDebitUsdNonce := openDebit.2
    closeCreditUsdCiphertext := closeCredit.1
    closeCreditUsdNonce := closeCredit.2
    keyVersion := keyVersion }

/-- The inner loop over one chunk. -/
def addEvents (userId : Uuid) (dek : Bytes) (keyVersion : Int) (draws : Nat → EventDraw) :
    List (EventWrite × Nat) → EventSession → Except Raised Unit × EventSession
  | [], session => (.ok (), session)
  | (event, index) :: rest, session =>
      if RollWithoutBoth event then (.error missingRollAmount, session)
      else addEvents userId dek keyVersion draws rest
        { session with
          pending := session.pending ++ [eventRow keys userId dek keyVersion (draws index) event] }

/-- `session.flush()`: the pending rows reach the table together, or a
violated `CHECK` raises. -/
def flush (session : EventSession) : Except Raised Unit × EventSession :=
  if ∀ row ∈ session.pending, EventTypeCheck row then
    if ∀ row ∈ session.pending, RollHasBothLegs row then
      (.ok (), { stored := session.stored ++ session.pending, pending := [] })
    else (.error (.integrityError "roll_has_both_legs"), session)
  else (.error (.integrityError "events_event_type_check"), session)

def insertEventChunks (userId : Uuid) (dek : Bytes) (keyVersion : Int) (draws : Nat → EventDraw) :
    List (List (EventWrite × Nat)) → EventSession → Except Raised Unit × EventSession
  | [], session => (.ok (), session)
  | chunk :: rest, session =>
      match addEvents keys userId dek keyVersion draws chunk session with
      | (.error raised, added) => (.error raised, added)
      | (.ok (), added) =>
          match flush added with
          | (.error raised, flushed) => (.error raised, flushed)
          | (.ok (), flushed) => insertEventChunks userId dek keyVersion draws rest flushed

/-- The outcome and the session it leaves behind, also when it raises. -/
def insertEvents (draws : Nat → EventDraw) (userId : Uuid) (events : List EventWrite)
    (db : Database) : Except Raised Unit × EventSession :=
  match currentDek keys db userId with
  | .error raised => (.error raised, ⟨db.events, []⟩)
  | .ok (dek, keyVersion) =>
      insertEventChunks keys userId dek keyVersion draws (chunksOf chunkSize events.zipIdx)
        ⟨db.events, []⟩

def dataKeyMissing (userId : Uuid) (keyVersion : Int) : Raised :=
  .dataKeyMissing ("No user_data_keys row for user_id=" ++ userId.text ++ " key_version=" ++
    toString keyVersion ++ " -- the account's data key has been destroyed (crypto-shred, " ++
    "D3-08). This user's trade rows cannot be decrypted.")

def readEvent (db : Database) (userId : Uuid) (row : Event) : Except Raised EventRecord := do
  let dek ← dekForVersion keys (dataKeyMissing userId row.keyVersion) db userId row.keyVersion
  let openDebitUsd ← decryptDecimal keys dek (eventAssociatedData "open_debit_usd" row.id)
    row.openDebitUsdCiphertext row.openDebitUsdNonce
  let closeCreditUsd ← decryptDecimal keys dek (eventAssociatedData "close_credit_usd" row.id)
    row.closeCreditUsdCiphertext row.closeCreditUsdNonce
  .ok { id := row.id
        userId := userId
        positionId := row.positionId
        eventType := row.eventType
        eventTime := row.eventTime
        fillIdsHash := row.fillIdsHash
        openDebitUsd := openDebitUsd
        closeCreditUsd := closeCreditUsd
        keyVersion := row.keyVersion }

def eventRowsOf (db : Database) (userId : Uuid) : List Event :=
  db.events.filter fun row => row.userId = userId

def readEvents (order : ScanOrder Event) (userId : Uuid) (db : Database) :
    Except Raised (List EventRecord) :=
  (order.arrange (eventRowsOf db userId)).mapM (readEvent keys db userId)

/-! ## What a reader sees -/

def eventRecordOf (userId : Uuid) (keyVersion : Int) (eventId : Uuid) (event : EventWrite) :
    EventRecord where
  id := eventId
  userId := userId
  positionId := event.positionId
  eventType := event.eventType
  eventTime := event.eventTime
  fillIdsHash := event.fillIdsHash
  openDebitUsd := event.openDebitUsd
  closeCreditUsd := event.closeCreditUsd
  keyVersion := keyVersion

def visibleEvents (userId : Uuid) (db : Database) : List EventRecord :=
  readable (readEvent keys db userId) (eventRowsOf db userId)

theorem read_events_ok (order : ScanOrder Event) (userId : Uuid) (db : Database)
    (records : List EventRecord) (ran : readEvents keys order userId db = .ok records) :
    records.Perm (visibleEvents keys userId db) := by
  rw [map_m_ok_readable _ _ _ ran]
  apply readable_perm
  apply order.perm

theorem read_event_row_under (db : Database) (userId : Uuid) (dek : Bytes) (keyVersion : Int)
    (draw : EventDraw) (event : EventWrite)
    (found : dekForVersion keys (dataKeyMissing userId keyVersion) db userId keyVersion =
      .ok dek) :
    readEvent keys db userId (eventRow keys userId dek keyVersion draw event) =
      .ok (eventRecordOf userId keyVersion draw.eventId event) := by
  have version : (eventRow keys userId dek keyVersion draw event).keyVersion = keyVersion := rfl
  simp only [readEvent, version, found]
  have openDebit := decrypt_encrypt_decimal keys dek draw.openDebitNonce
    (eventAssociatedData "open_debit_usd" draw.eventId) event.openDebitUsd
  have closeCredit := decrypt_encrypt_decimal keys dek draw.closeCreditNonce
    (eventAssociatedData "close_credit_usd" draw.eventId) event.closeCreditUsd
  simp only [eventRow, bind, Except.bind]
  rw [openDebit]
  dsimp only
  rw [closeCredit]
  rfl

theorem read_event_row (db : Database) (userId : Uuid) (dek : Bytes) (keyVersion : Int)
    (draw : EventDraw) (event : EventWrite)
    (current : currentDek keys db userId = .ok (dek, keyVersion)) :
    readEvent keys db userId (eventRow keys userId dek keyVersion draw event) =
      .ok (eventRecordOf userId keyVersion draw.eventId event) := by
  apply read_event_row_under
  exact dek_for_current_version keys (dataKeyMissing userId keyVersion) db userId dek keyVersion
    current

def eventRows (userId : Uuid) (dek : Bytes) (keyVersion : Int) (draws : Nat → EventDraw)
    (events : List (EventWrite × Nat)) : List Event :=
  events.map fun event => eventRow keys userId dek keyVersion (draws event.2) event.1

/-- OPEN and CLOSE events pass the guard and both constraints. -/
def OpenOrClose (event : EventWrite) : Prop :=
  event.eventType = "OPEN" ∨ event.eventType = "CLOSE"

theorem open_or_close_not_roll (event : EventWrite) (kind : OpenOrClose event) :
    ¬RollWithoutBoth event := by
  intro bad
  rcases kind with isOpen | isClose
  · exact absurd (isOpen.symm.trans bad.1) (by decide)
  · exact absurd (isClose.symm.trans bad.1) (by decide)

theorem open_or_close_checks (userId : Uuid) (dek : Bytes) (keyVersion : Int) (draw : EventDraw)
    (event : EventWrite) (kind : OpenOrClose event) :
    EventTypeCheck (eventRow keys userId dek keyVersion draw event) ∧
      RollHasBothLegs (eventRow keys userId dek keyVersion draw event) := by
  have type : (eventRow keys userId dek keyVersion draw event).eventType = event.eventType := rfl
  unfold EventTypeCheck RollHasBothLegs
  rw [type]
  rcases kind with isOpen | isClose
  · exact ⟨Or.inl isOpen, Or.inl (isOpen ▸ by decide)⟩
  · exact ⟨Or.inr (Or.inl isClose), Or.inl (isClose ▸ by decide)⟩

theorem add_events_ok (userId : Uuid) (dek : Bytes) (keyVersion : Int) (draws : Nat → EventDraw)
    (events : List (EventWrite × Nat)) (session : EventSession)
    (kinds : ∀ event ∈ events, OpenOrClose event.1) :
    addEvents keys userId dek keyVersion draws events session =
      (.ok (), { session with
        pending := session.pending ++ eventRows keys userId dek keyVersion draws events }) := by
  induction events generalizing session with
  | nil => simp [addEvents, eventRows]
  | cons event rest ih =>
      have kind := kinds event List.mem_cons_self
      have restKinds : ∀ other ∈ rest, OpenOrClose other.1 := fun other member =>
        kinds other (List.mem_cons_of_mem _ member)
      rw [addEvents, if_neg (open_or_close_not_roll event.1 kind), ih _ restKinds]
      simp [eventRows]

theorem flush_ok (session : EventSession)
    (checks : ∀ row ∈ session.pending, EventTypeCheck row ∧ RollHasBothLegs row) :
    flush session = (.ok (), ⟨session.stored ++ session.pending, []⟩) := by
  rw [flush, if_pos fun row member => (checks row member).1,
    if_pos fun row member => (checks row member).2]

theorem event_rows_checks (userId : Uuid) (dek : Bytes) (keyVersion : Int)
    (draws : Nat → EventDraw) (events : List (EventWrite × Nat))
    (kinds : ∀ event ∈ events, OpenOrClose event.1) :
    ∀ row ∈ eventRows keys userId dek keyVersion draws events,
      EventTypeCheck row ∧ RollHasBothLegs row := by
  intro row member
  rcases List.mem_map.mp member with ⟨event, eventMember, shape⟩
  rw [← shape]
  exact open_or_close_checks keys userId dek keyVersion _ event.1 (kinds event eventMember)

theorem insert_event_chunks_ok (userId : Uuid) (dek : Bytes) (keyVersion : Int)
    (draws : Nat → EventDraw) (chunks : List (List (EventWrite × Nat))) (stored : List Event)
    (kinds : ∀ event ∈ chunks.flatten, OpenOrClose event.1) :
    insertEventChunks keys userId dek keyVersion draws chunks ⟨stored, []⟩ =
      (.ok (), ⟨stored ++ eventRows keys userId dek keyVersion draws chunks.flatten, []⟩) := by
  induction chunks generalizing stored with
  | nil => simp [insertEventChunks, eventRows]
  | cons chunk rest ih =>
      have chunkKinds : ∀ event ∈ chunk, OpenOrClose event.1 := fun event member =>
        kinds event (List.mem_append_left _ member)
      have restKinds : ∀ event ∈ rest.flatten, OpenOrClose event.1 := fun event member =>
        kinds event (List.mem_append_right _ member)
      have flushed := flush_ok
        ⟨stored, eventRows keys userId dek keyVersion draws chunk⟩
        (event_rows_checks keys userId dek keyVersion draws chunk chunkKinds)
      rw [insertEventChunks, add_events_ok keys userId dek keyVersion draws chunk _ chunkKinds]
      dsimp only
      rw [List.nil_append, flushed]
      dsimp only
      rw [ih _ restKinds]
      simp [eventRows]

/-- A batch of OPEN and CLOSE events is stored whole and in order, whatever
the chunk boundaries. -/
theorem insert_events_ok (draws : Nat → EventDraw) (userId : Uuid) (events : List EventWrite)
    (db : Database) (dek : Bytes) (keyVersion : Int)
    (current : currentDek keys db userId = .ok (dek, keyVersion))
    (kinds : ∀ event ∈ events, OpenOrClose event) :
    insertEvents keys draws userId events db =
      (.ok (), ⟨db.events ++ eventRows keys userId dek keyVersion draws events.zipIdx, []⟩) := by
  have whole := chunks_of_flatten chunkSize events.zipIdx (by decide)
  have indexedKinds : ∀ event ∈ (chunksOf chunkSize events.zipIdx).flatten,
      OpenOrClose event.1 := by
    rw [whole]
    intro event member
    exact kinds event.1 (List.fst_mem_of_mem_zipIdx member)
  simp only [insertEvents, current]
  rw [insert_event_chunks_ok keys userId dek keyVersion draws _ _ indexedKinds, whole]

/-- An insert that returned had a data key to encrypt under. -/
theorem insert_events_current (draws : Nat → EventDraw) (userId : Uuid)
    (events : List EventWrite) (db : Database) (session : EventSession)
    (ran : insertEvents keys draws userId events db = (.ok (), session)) :
    ∃ dek keyVersion, currentDek keys db userId = .ok (dek, keyVersion) := by
  unfold insertEvents at ran
  cases current : currentDek keys db userId with
  | error raised =>
      rw [current] at ran
      cases ran
  | ok found => exact ⟨found.1, found.2, rfl⟩

/-- Whatever the events are, an insert that returned stored a row for each, in
order, and left nothing pending. -/
theorem add_events_returned (userId : Uuid) (dek : Bytes) (keyVersion : Int)
    (draws : Nat → EventDraw) (events : List (EventWrite × Nat)) (session after : EventSession)
    (ran : addEvents keys userId dek keyVersion draws events session = (.ok (), after)) :
    after = { session with
      pending := session.pending ++ eventRows keys userId dek keyVersion draws events } := by
  induction events generalizing session with
  | nil =>
      cases ran
      rw [eventRows, List.map_nil, List.append_nil]
  | cons event rest ih =>
      rw [addEvents] at ran
      split_ifs at ran with bad
      · cases ran
      · rw [ih _ ran]
        simp [eventRows]

theorem flush_returned (session after : EventSession) (ran : flush session = (.ok (), after)) :
    after = ⟨session.stored ++ session.pending, []⟩ := by
  unfold flush at ran
  split_ifs at ran
  · cases ran
    rfl
  · cases ran
  · cases ran

theorem insert_event_chunks_returned (userId : Uuid) (dek : Bytes) (keyVersion : Int)
    (draws : Nat → EventDraw) (chunks : List (List (EventWrite × Nat))) (stored : List Event)
    (after : EventSession)
    (ran : insertEventChunks keys userId dek keyVersion draws chunks ⟨stored, []⟩ =
      (.ok (), after)) :
    after = ⟨stored ++ eventRows keys userId dek keyVersion draws chunks.flatten, []⟩ := by
  induction chunks generalizing stored with
  | nil =>
      cases ran
      rw [eventRows, List.flatten_nil, List.map_nil, List.append_nil]
  | cons chunk rest ih =>
      rw [insertEventChunks] at ran
      cases added : addEvents keys userId dek keyVersion draws chunk ⟨stored, []⟩ with
      | mk addOutcome addSession =>
          cases addOutcome with
          | error raised => simp [added] at ran
          | ok nothing =>
              have addedRows := add_events_returned keys userId dek keyVersion draws chunk _ _ added
              cases flushed : flush addSession with
              | mk flushOutcome flushSession =>
                  cases flushOutcome with
                  | error raised => simp [added, flushed] at ran
                  | ok nothing =>
                      have flushedRows := flush_returned _ _ flushed
                      simp only [added, flushed] at ran
                      rw [flushedRows, addedRows] at ran
                      rw [ih _ ran]
                      simp [eventRows]

theorem insert_events_returned (draws : Nat → EventDraw) (userId : Uuid)
    (events : List EventWrite) (db : Database) (after : EventSession)
    (ran : insertEvents keys draws userId events db = (.ok (), after)) :
    ∃ dek keyVersion, currentDek keys db userId = .ok (dek, keyVersion) ∧
      after = ⟨db.events ++ eventRows keys userId dek keyVersion draws events.zipIdx, []⟩ := by
  rcases insert_events_current keys draws userId events db after ran with
    ⟨dek, keyVersion, current⟩
  have whole := chunks_of_flatten chunkSize events.zipIdx (by decide)
  simp only [insertEvents, current] at ran
  have rows := insert_event_chunks_returned keys userId dek keyVersion draws _ _ _ ran
  rw [whole] at rows
  exact ⟨dek, keyVersion, current, rows⟩

/-- What an event records, without the identity its row drew. -/
def EventRecord.content (record : EventRecord) : EventWrite where
  positionId := record.positionId
  eventType := record.eventType
  eventTime := record.eventTime
  fillIdsHash := record.fillIdsHash
  openDebitUsd := record.openDebitUsd
  closeCreditUsd := record.closeCreditUsd

def storedContents (userId : Uuid) (db : Database) : List EventWrite :=
  (visibleEvents keys userId db).map EventRecord.content

/-- Reading back an inserted batch gives the batch. -/
theorem event_rows_contents (db : Database) (userId : Uuid) (dek : Bytes) (keyVersion : Int)
    (draws : Nat → EventDraw) (events : List (EventWrite × Nat))
    (current : currentDek keys db userId = .ok (dek, keyVersion)) :
    (readable (readEvent keys db userId)
      (eventRows keys userId dek keyVersion draws events)).map EventRecord.content =
        events.map Prod.fst := by
  induction events with
  | nil => rfl
  | cons event rest ih =>
      have read := read_event_row keys db userId dek keyVersion (draws event.2) event.1 current
      simp only [readable, eventRows, List.map_cons, List.filterMap_cons, read,
        Except.toOption] at ih ⊢
      rw [ih]
      rfl

theorem insert_events_contents (draws : Nat → EventDraw) (userId : Uuid)
    (events : List EventWrite) (db : Database) (dek : Bytes) (keyVersion : Int)
    (current : currentDek keys db userId = .ok (dek, keyVersion)) :
    storedContents keys userId { db with
        events := db.events ++ eventRows keys userId dek keyVersion draws events.zipIdx } =
      storedContents keys userId db ++ events := by
  have own : (eventRows keys userId dek keyVersion draws events.zipIdx).filter
      (fun row => row.userId = userId) =
      eventRows keys userId dek keyVersion draws events.zipIdx := by
    apply List.filter_eq_self.mpr
    intro row member
    rcases List.mem_map.mp member with ⟨event, _, shape⟩
    rw [← shape]
    simp [eventRow]
  have written := event_rows_contents keys db userId dek keyVersion draws events.zipIdx current
  unfold storedContents visibleEvents eventRowsOf
  rw [List.filter_append, own, readable_append, List.map_append]
  apply congrArg
  rw [List.zipIdx_map_fst] at written
  exact written

end Morai.Ledger.Events
