import Morai.Crypto.Rotation
import Morai.Foundation.Runs
import Morai.Ledger.Events
import Morai.Ledger.Fills

/-!
# The encrypted ledger as a plain store

Transactions insert batches, add key versions and rotate the master key. Beside
the encrypted tables runs a store without keys or ciphertexts: the offers of
the committed batches in the order they came. `Refines` relates the two, row by
row, and each transaction keeps it.
-/

namespace Morai.Ledger.PlainLedger

open Morai.Crypto Morai.Crypto.Rotation Morai.Db Morai.Python Morai.Foundation.PrimaryKey
  Morai.Foundation.Runs Morai.Ledger.Fills Morai.Ledger.Events

set_option autoImplicit false

variable (envelope : Envelope)

/-- An aware `datetime`: what the clock on the wall shows and how far it is
ahead of UTC, in microseconds. -/
structure AwareDatetime where
  wall : Instant
  utcOffset : Int
  deriving DecidableEq, Repr

/-- `int(execution_time.timestamp() * 1_000_000)`, and the value a
`TIMESTAMPTZ` column stores. -/
def AwareDatetime.micros (time : AwareDatetime) : Instant := time.wall - time.utcOffset

/-- A `FillWrite` as its caller holds it. -/
structure CallerFill where
  orderId : String
  occSymbol : String
  legIndex : Int
  executionTime : AwareDatetime
  positionEffect : String
  side : String
  quantity : Option Decimal
  priceUsd : Option Decimal
  deriving DecidableEq, Repr

def CallerFill.write (fill : CallerFill) : FillWrite where
  orderId := fill.orderId
  occSymbol := fill.occSymbol
  legIndex := fill.legIndex
  executionTime := fill.executionTime.micros
  positionEffect := fill.positionEffect
  side := fill.side
  quantity := fill.quantity
  priceUsd := fill.priceUsd

/-- `kek` is the master key of the last committed rotation, and before the
first one the key the system was set up with. -/
structure EncryptedLedger where
  db : Database
  kek : Bytes

/-- One transaction. The inserts run in a process with a master key of its
own, which a rotation may have left behind. -/
inductive Action where
  | insertFills (processKek : Bytes) (draws : Nat → FillDraw) (userId : Uuid)
      (fills : List CallerFill)
  | insertEvents (processKek : Bytes) (draws : Nat → EventDraw) (userId : Uuid)
      (events : List EventWrite)
  | addKey (userId : Uuid) (keyVersion : Int) (dek wrapNonce : Bytes)
  | rotateKek (oldKek newKek : Bytes) (nonces : Nat → Bytes)

/-- A key is added with a higher version than the user's others. -/
def Possible (ledger : EncryptedLedger) : Action → Prop
  | .addKey userId keyVersion _ _ =>
      ∀ row ∈ keyRowsOf ledger.db userId, row.keyVersion < keyVersion
  | _ => True

instance decidablePossible (ledger : EncryptedLedger) :
    ∀ action, Decidable (Possible ledger action)
  | .addKey userId keyVersion _ _ =>
      inferInstanceAs (Decidable (∀ row ∈ keyRowsOf ledger.db userId, row.keyVersion < keyVersion))
  | .insertFills _ _ _ _ => isTrue trivial
  | .insertEvents _ _ _ _ => isTrue trivial
  | .rotateKek _ _ _ => isTrue trivial

def wrappedKey (kek : Bytes) (userId : Uuid) (keyVersion : Int) (dek wrapNonce : Bytes) :
    UserDataKey :=
  ⟨userId, keyVersion, envelope.wrapDek dek kek wrapNonce, wrapNonce⟩

/-- What the transaction commits, or what it raises. -/
def transact (ledger : EncryptedLedger) : Action → Except Raised EncryptedLedger
  | .insertFills processKek draws userId fills =>
      match insertFills (envelope.under processKek) draws userId (fills.map CallerFill.write)
        ledger.db with
      | .error raised => .error raised
      | .ok (_, db) => .ok { ledger with db := db }
  | .insertEvents processKek draws userId events =>
      match insertEvents (envelope.under processKek) draws userId events ledger.db with
      | (.error raised, _) => .error raised
      | (.ok (), session) =>
          .ok { ledger with db := { ledger.db with events := session.stored ++ session.pending } }
  | .addKey userId keyVersion dek wrapNonce =>
      let row := wrappedKey envelope ledger.kek userId keyVersion dek wrapNonce
      if taken : ledger.db.userDataKeys.Has row.primaryKey then
        .error (.integrityError "user_data_keys_pkey")
      else
        let userDataKeys := ledger.db.userDataKeys.push row taken
        .ok { ledger with db := { ledger.db with userDataKeys := userDataKeys } }
  | .rotateKek oldKek newKek nonces =>
      match rotateKek envelope oldKek newKek nonces ledger.db with
      | (.error raised, _) => .error raised
      | (.ok _, session) =>
          .ok { db := { ledger.db with userDataKeys := session.stored }, kek := newKek }

/-- The offers of the committed batches, in order; an event comes with the
identity its row drew. -/
structure PlainStore where
  fills : List (Uuid × FillWrite)
  events : List (Uuid × Uuid × EventWrite)

def PlainStore.record (store : PlainStore) : Action → PlainStore
  | .insertFills _ _ userId fills =>
      { store with fills := store.fills ++ fills.map fun fill => (userId, fill.write) }
  | .insertEvents _ draws userId events =>
      { store with events := store.events ++
          events.zipIdx.map fun event => (userId, (draws event.2).eventId, event.1) }
  | .addKey _ _ _ _ => store
  | .rotateKek _ _ _ => store

/-- First write wins. -/
def PlainStore.fill? (store : PlainStore) (userId : Uuid) (key : FillKey) : Option FillWrite :=
  (store.fills.find? fun offer => (offer.1, offer.2.key) = (userId, key)).map Prod.snd

def PlainStore.eventsOf (store : PlainStore) (userId : Uuid) : List (Uuid × EventWrite) :=
  (store.events.filter fun offer => offer.1 = userId).map Prod.snd

structure State where
  ledger : EncryptedLedger
  plain : PlainStore

/-- A transaction that raises is rolled back. -/
def step (state : State) (action : Action) : Option State :=
  if Possible state.ledger action then
    match transact envelope state.ledger action with
    | .error _ => some state
    | .ok ledger => some ⟨ledger, state.plain.record action⟩
  else none

def start (kek : Bytes) : State := ⟨⟨.empty, kek⟩, ⟨[], []⟩⟩

/-- A record without the reader's additions. -/
def written (record : FillRecord) : FillWrite where
  orderId := record.orderId
  occSymbol := record.occSymbol
  legIndex := record.legIndex
  executionTime := record.executionTime
  positionEffect := record.positionEffect
  side := record.side
  quantity := record.quantity
  priceUsd := record.priceUsd

/-! ## The refinement relation -/

def offerKey (offer : Uuid × FillWrite) : Uuid × FillKey := (offer.1, offer.2.key)

/-- The store's own table: the first offer of each key. -/
def PlainStore.firstFills (store : PlainStore) : KeyedTable offerKey :=
  (insertOrSkip .empty store.fills).1

/-- This version of the user's key is stored, and the current master key
unwraps it to this data key. -/
def Opens (ledger : EncryptedLedger) (userId : Uuid) (keyVersion : Int) (dek : Bytes) : Prop :=
  ∃ wrapNonce, ledger.db.userDataKeys.get? (userId, keyVersion) =
    some (wrappedKey envelope ledger.kek userId keyVersion dek wrapNonce)

def WrittenFill (ledger : EncryptedLedger) (row : Fill) (offer : Uuid × FillWrite) : Prop :=
  ∃ dek keyVersion draw, Opens envelope ledger offer.1 keyVersion dek ∧
    row = fillRow (envelope.under ledger.kek) offer.1 dek keyVersion draw offer.2

def WrittenEvent (ledger : EncryptedLedger) (row : Event) (offer : Uuid × Uuid × EventWrite) :
    Prop :=
  ∃ dek keyVersion draw, draw.eventId = offer.2.1 ∧
    Opens envelope ledger offer.1 keyVersion dek ∧
    row = eventRow (envelope.under ledger.kek) offer.1 dek keyVersion draw offer.2.2

structure Refines (ledger : EncryptedLedger) (store : PlainStore) : Prop where
  wrapped : ∀ row ∈ ledger.db.userDataKeys.rows, ∃ dek,
    row.wrappedDek = envelope.wrapDek dek ledger.kek row.wrapNonce
  fills : List.Forall₂ (WrittenFill envelope ledger) ledger.db.fills.rows store.firstFills.rows
  events : List.Forall₂ (WrittenEvent envelope ledger) ledger.db.events store.events

theorem written_fill_key (ledger : EncryptedLedger) (row : Fill) (offer : Uuid × FillWrite)
    (writtenRow : WrittenFill envelope ledger row offer) : row.primaryKey = offerKey offer := by
  rcases writtenRow with ⟨dek, keyVersion, draw, _, shape⟩
  rw [shape]
  rfl

theorem opens_dek (missing : Raised) (ledger : EncryptedLedger) (userId : Uuid)
    (keyVersion : Int) (dek : Bytes) (opens : Opens envelope ledger userId keyVersion dek) :
    dekForVersion (envelope.under ledger.kek) missing ledger.db userId keyVersion = .ok dek := by
  rcases opens with ⟨wrapNonce, stored⟩
  have unwrapped := (envelope.under ledger.kek).unwrap_wrap dek ledger.kek wrapNonce
  have master : (envelope.under ledger.kek).masterKeyBytes = ledger.kek := rfl
  have wrap : (envelope.under ledger.kek).wrapDek = envelope.wrapDek := rfl
  rw [wrap] at unwrapped
  simp only [dekForVersion, stored, wrappedKey, master, unwrapped]

/-- Under an ideal cipher only a process with the current master key gets hold
of a data key, and it is one that opens. -/
theorem current_opens (ideal : envelope.Ideal) (ledger : EncryptedLedger) (store : PlainStore)
    (refines : Refines envelope ledger store) (processKek : Bytes) (userId : Uuid) (dek : Bytes)
    (keyVersion : Int)
    (current : currentDek (envelope.under processKek) ledger.db userId = .ok (dek, keyVersion)) :
    Opens envelope ledger userId keyVersion dek := by
  have found := dek_for_current_version _ .other _ _ _ _ current
  unfold dekForVersion at found
  cases stored : ledger.db.userDataKeys.get? (userId, keyVersion) with
  | none => simp [stored] at found
  | some row =>
      have rowKey := (get_eq_some_iff _ _ _).mp stored
      rcases refines.wrapped row rowKey.1 with ⟨wrappedDek, wrapped⟩
      simp only [stored] at found
      cases opened : (envelope.under processKek).unwrapDek row.wrappedDek row.wrapNonce
          (envelope.under processKek).masterKeyBytes with
      | none => simp [opened] at found
      | some inner =>
          simp only [opened, Except.ok.injEq] at found
          have unwrapped : envelope.unwrapDek
              (envelope.wrapDek wrappedDek ledger.kek row.wrapNonce) row.wrapNonce processKek =
              some inner := by
            rw [← wrapped]
            exact opened
          have exactly := ideal.unwrap_exact _ _ _ _ _ _ unwrapped
          rw [exactly.2, envelope.unwrap_wrap, Option.some.injEq] at unwrapped
          have sameDek : wrappedDek = dek := unwrapped.trans found
          have owner : row.userId = userId := congrArg Prod.fst rowKey.2
          have version : row.keyVersion = keyVersion := congrArg Prod.snd rowKey.2
          refine ⟨row.wrapNonce, ?_⟩
          rw [stored, wrappedKey, ← sameDek, ← wrapped, ← owner, ← version]

/-! ## Each transaction keeps the relation -/

/-- More keys open, and nothing else changed: what was written still is. -/
theorem refines_of_opens (ledger next : EncryptedLedger) (store : PlainStore)
    (refines : Refines envelope ledger store)
    (wrapped : ∀ row ∈ next.db.userDataKeys.rows, ∃ dek,
      row.wrappedDek = envelope.wrapDek dek next.kek row.wrapNonce)
    (fills : next.db.fills = ledger.db.fills) (events : next.db.events = ledger.db.events)
    (opens : ∀ userId keyVersion dek, Opens envelope ledger userId keyVersion dek →
      Opens envelope next userId keyVersion dek) : Refines envelope next store := by
  constructor
  · exact wrapped
  · rw [fills]
    apply refines.fills.imp
    intro row offer writtenRow
    rcases writtenRow with ⟨dek, keyVersion, draw, opened, shape⟩
    exact ⟨dek, keyVersion, draw, opens _ _ _ opened, shape⟩
  · rw [events]
    apply refines.events.imp
    intro row offer writtenRow
    rcases writtenRow with ⟨dek, keyVersion, draw, drawn, opened, shape⟩
    exact ⟨dek, keyVersion, draw, drawn, opens _ _ _ opened, shape⟩

theorem insert_fills_refines (ideal : envelope.Ideal) (ledger : EncryptedLedger)
    (store : PlainStore) (refines : Refines envelope ledger store) (processKek : Bytes)
    (draws : Nat → FillDraw) (userId : Uuid) (fills : List CallerFill) (landed : Nat)
    (db : Database)
    (inserted : insertFills (envelope.under processKek) draws userId
      (fills.map CallerFill.write) ledger.db = .ok (landed, db)) :
    Refines envelope { ledger with db := db }
      (store.record (.insertFills processKek draws userId fills)) := by
  by_cases empty : fills = []
  · rw [empty, List.map_nil, insertFills, if_pos rfl] at inserted
    cases inserted
    simpa [empty, PlainStore.record] using refines
  · have some : fills.map CallerFill.write ≠ [] := by simpa using empty
    cases current : currentDek (envelope.under processKek) ledger.db userId with
    | error raised =>
        rw [insert_fills_raises _ _ _ _ _ _ some current] at inserted
        cases inserted
    | ok found =>
        rcases found with ⟨dek, keyVersion⟩
        have opened := current_opens envelope ideal ledger store refines processKek userId dek
          keyVersion current
        rw [insert_fills_rows _ _ _ _ _ _ _ current] at inserted
        cases inserted
        constructor
        · exact refines.wrapped
        · have offers : fills.map (fun fill => (userId, fill.write)) =
              (fills.map CallerFill.write).zipIdx.map fun fill => (userId, fill.1) := by
            have split : (fun fill : FillWrite × Nat => (userId, fill.1)) =
                Prod.mk userId ∘ Prod.fst := rfl
            rw [split, ← List.map_map, List.zipIdx_map_fst, List.map_map]
            rfl
          have batch : List.Forall₂ (WrittenFill envelope ledger)
              (fillRows (envelope.under processKek) userId dek keyVersion draws
                (fills.map CallerFill.write).zipIdx)
              (fills.map fun fill => (userId, fill.write)) := by
            rw [offers, fillRows, List.forall₂_map_left_iff, List.forall₂_map_right_iff,
              List.forall₂_same]
            intro fill _
            exact ⟨dek, keyVersion, draws fill.2, opened, rfl⟩
          have joined := insert_or_skip_related (WrittenFill envelope ledger)
            (written_fill_key envelope ledger) _ _ _ _ refines.fills batch
          have recorded : (store.record (.insertFills processKek draws userId fills)).firstFills =
              (insertOrSkip store.firstFills
                (fills.map fun fill => (userId, fill.write))).1 := by
            rw [PlainStore.firstFills, PlainStore.record, insert_or_skip_append]
            rfl
          rw [recorded]
          exact joined
        · exact refines.events

theorem insert_events_refines (ideal : envelope.Ideal) (ledger : EncryptedLedger)
    (store : PlainStore) (refines : Refines envelope ledger store) (processKek : Bytes)
    (draws : Nat → EventDraw) (userId : Uuid) (events : List EventWrite) (session : EventSession)
    (inserted : insertEvents (envelope.under processKek) draws userId events ledger.db =
      (.ok (), session)) :
    Refines envelope
      { ledger with db := { ledger.db with events := session.stored ++ session.pending } }
      (store.record (.insertEvents processKek draws userId events)) := by
  rcases insert_events_returned _ _ _ _ _ _ inserted with ⟨dek, keyVersion, current, rows⟩
  have opened := current_opens envelope ideal ledger store refines processKek userId dek
    keyVersion current
  constructor
  · exact refines.wrapped
  · exact refines.fills
  · have batch : List.Forall₂ (WrittenEvent envelope ledger)
        (eventRows (envelope.under processKek) userId dek keyVersion draws events.zipIdx)
        (events.zipIdx.map fun event => (userId, (draws event.2).eventId, event.1)) := by
      rw [eventRows, List.forall₂_map_left_iff, List.forall₂_map_right_iff, List.forall₂_same]
      intro event _
      exact ⟨dek, keyVersion, draws event.2, rfl, opened, rfl⟩
    rw [rows, List.append_nil]
    exact List.rel_append refines.events batch

theorem add_key_refines (ledger : EncryptedLedger) (store : PlainStore)
    (refines : Refines envelope ledger store) (userId : Uuid) (keyVersion : Int)
    (dek wrapNonce : Bytes) (table : KeyedTable UserDataKey.primaryKey)
    (fresh : ¬ledger.db.userDataKeys.Has
      (wrappedKey envelope ledger.kek userId keyVersion dek wrapNonce).primaryKey)
    (added : table = ledger.db.userDataKeys.push
      (wrappedKey envelope ledger.kek userId keyVersion dek wrapNonce) fresh) :
    Refines envelope { ledger with db := { ledger.db with userDataKeys := table } } store := by
  subst added
  apply refines_of_opens envelope ledger _ store refines
  · intro row member
    cases List.mem_append.mp member with
    | inl old => exact refines.wrapped row old
    | inr new =>
        rw [List.mem_singleton.mp new]
        exact ⟨dek, rfl⟩
  · rfl
  · rfl
  · intro owner version opened opens
    rcases opens with ⟨nonce, stored⟩
    refine ⟨nonce, ?_⟩
    dsimp only
    rw [push_get, stored, Option.some_or]

/-- A rotation that came through had the current master key, or no key to
rewrap. -/
theorem rotate_kek_refines (ideal : envelope.Ideal) (ledger : EncryptedLedger)
    (store : PlainStore) (refines : Refines envelope ledger store) (oldKek newKek : Bytes)
    (nonces : Nat → Bytes) (count : Nat) (session : KeySession)
    (rotated : rotateKek envelope oldKek newKek nonces ledger.db = (.ok count, session)) :
    Refines envelope
      { db := { ledger.db with userDataKeys := session.stored }, kek := newKek } store := by
  rcases rotate_kek_returned envelope oldKek newKek nonces ledger.db count session rotated with
    ⟨_, noOthers, rewraps⟩
  apply refines_of_opens envelope ledger _ store refines
  · intro row member
    have stored : session.stored.get? row.primaryKey = some row :=
      (get_eq_some_iff _ _ _).mpr ⟨member, rfl⟩
    by_cases known : ledger.db.userDataKeys.Has row.primaryKey
    · rcases List.mem_map.mp known with ⟨old, oldMember, sameKey⟩
      rcases rewraps old oldMember with ⟨next, ⟨dek, wrapNonce, _, shape⟩, found⟩
      rw [sameKey, stored, Option.some.injEq] at found
      rw [found, shape]
      exact ⟨dek, rfl⟩
    · rw [noOthers _ known] at stored
      cases stored
  · rfl
  · rfl
  · intro userId keyVersion dek opens
    rcases opens with ⟨wrapNonce, stored⟩
    have member := ((get_eq_some_iff _ _ _).mp stored).1
    rcases rewraps _ member with ⟨next, ⟨inner, newNonce, opened, shape⟩, found⟩
    have exactly := ideal.unwrap_exact _ _ _ _ _ _ opened
    have unwrapped : envelope.unwrapDek (envelope.wrapDek dek ledger.kek wrapNonce) wrapNonce
        oldKek = some inner := opened
    rw [exactly.2, envelope.unwrap_wrap, Option.some.injEq] at unwrapped
    refine ⟨newNonce, ?_⟩
    rw [unwrapped]
    rw [shape] at found
    exact found

theorem transact_refines (ideal : envelope.Ideal) (ledger next : EncryptedLedger)
    (store : PlainStore) (action : Action) (refines : Refines envelope ledger store)
    (committed : transact envelope ledger action = .ok next) :
    Refines envelope next (store.record action) := by
  cases action with
  | insertFills processKek draws userId fills =>
      simp only [transact] at committed
      split at committed
      · cases committed
      · rename_i landed db inserted
        cases committed
        exact insert_fills_refines envelope ideal ledger store refines processKek draws userId
          fills landed db inserted
  | insertEvents processKek draws userId events =>
      simp only [transact] at committed
      split at committed
      · cases committed
      · rename_i session inserted
        cases committed
        exact insert_events_refines envelope ideal ledger store refines processKek draws userId
          events session inserted
  | addKey userId keyVersion dek wrapNonce =>
      simp only [transact] at committed
      split at committed
      · cases committed
      · rename_i taken
        cases committed
        exact add_key_refines envelope ledger store refines userId keyVersion dek wrapNonce _ taken
          rfl
  | rotateKek oldKek newKek nonces =>
      simp only [transact] at committed
      split at committed
      · cases committed
      · rename_i count session rotated
        cases committed
        exact rotate_kek_refines envelope ideal ledger store refines oldKek newKek nonces count
          session rotated

theorem start_refines (kek : Bytes) :
    Refines envelope (start kek).ledger (start kek).plain where
  wrapped row member := by cases member
  fills := List.Forall₂.nil
  events := List.Forall₂.nil

theorem run_refines (ideal : envelope.Ideal) (kek : Bytes) (actions : List Action)
    (final : State) (ran : runFrom (step envelope) actions (start kek) = some final) :
    Refines envelope final.ledger final.plain := by
  apply run_keeps (step envelope) (fun _ _ => True)
    (fun state => Refines envelope state.ledger state.plain) _ actions _ final
    (start_refines envelope kek) (meets_trivial _ _ _) ran
  intro state action next refines _ stepped
  unfold step at stepped
  split_ifs at stepped
  cases committed : transact envelope state.ledger action with
  | error raised =>
      simp only [committed, Option.some.injEq] at stepped
      exact stepped ▸ refines
  | ok ledger =>
      simp only [committed, Option.some.injEq] at stepped
      rw [← stepped]
      exact transact_refines envelope ideal state.ledger ledger state.plain action refines
        committed

/-! ## What the readers return -/

theorem refined_fill_reads (ledger : EncryptedLedger) (row : Fill) (offer : Uuid × FillWrite)
    (writtenRow : WrittenFill envelope ledger row offer) :
    ∃ record, readFill (envelope.under ledger.kek) ledger.db offer.1 row = .ok record ∧
      written record = offer.2 := by
  rcases writtenRow with ⟨dek, keyVersion, draw, opened, shape⟩
  have found := opens_dek envelope (Fills.dataKeyMissing offer.1 keyVersion) ledger offer.1
    keyVersion dek opened
  refine ⟨recordOf offer.1 keyVersion offer.2, ?_, rfl⟩
  rw [shape]
  exact read_fill_row_under _ _ _ _ _ draw offer.2 found

/-- Every row of the user was written from an offer of the user. -/
theorem own_row_written (ledger : EncryptedLedger) (store : PlainStore)
    (refines : Refines envelope ledger store) (userId : Uuid) (row : Fill)
    (own : row ∈ fillRowsOf ledger.db userId) :
    ∃ offer, offer.1 = userId ∧ WrittenFill envelope ledger row offer := by
  have stored := List.mem_filter.mp own
  have owner : row.userId = userId := by simpa using stored.2
  rcases related_left _ _ _ refines.fills row stored.1 with ⟨offer, _, writtenRow⟩
  have sameKey := written_fill_key envelope ledger row offer writtenRow
  exact ⟨offer, (congrArg Prod.fst sameKey).symm.trans owner, writtenRow⟩

/-- The table holds a row under a key exactly when the key was offered, and
then it was written from the first offer. -/
theorem refined_lookup (ledger : EncryptedLedger) (store : PlainStore)
    (refines : Refines envelope ledger store) (userId : Uuid) (key : FillKey) :
    Option.Rel (WrittenFill envelope ledger) (ledger.db.fills.get? (userId, key))
      (store.fills.find? fun offer => offerKey offer = (userId, key)) := by
  have lookup := related_find (WrittenFill envelope ledger) (written_fill_key envelope ledger) _ _
    refines.fills (userId, key)
  have first : store.firstFills.get? (userId, key) =
      store.fills.find? fun offer => offerKey offer = (userId, key) :=
    (insert_or_skip_get (KeyedTable.empty : KeyedTable offerKey) store.fills (userId, key)).trans
      Option.none_or
  rw [← first]
  exact lookup

/-- What `read_fills` can return under a key, against the store. -/
theorem visible_fill_iff (ledger : EncryptedLedger) (store : PlainStore)
    (refines : Refines envelope ledger store) (userId : Uuid) (key : FillKey) :
    (∃ record ∈ visibleFills (envelope.under ledger.kek) userId ledger.db,
      record.key = key ∧ store.fill? userId key = some (written record)) ∨
    ((∀ record ∈ visibleFills (envelope.under ledger.kek) userId ledger.db, record.key ≠ key) ∧
      store.fill? userId key = none) := by
  have lookup := refined_lookup envelope ledger store refines userId key
  have answer : store.fill? userId key =
      (store.fills.find? fun offer => offerKey offer = (userId, key)).map Prod.snd := rfl
  rw [answer]
  cases found : ledger.db.fills.get? (userId, key) with
  | none =>
      rw [found] at lookup
      cases offered : store.fills.find? fun offer => offerKey offer = (userId, key) with
      | some offer =>
          rw [offered] at lookup
          cases lookup
      | none =>
          refine Or.inr ⟨?_, rfl⟩
          intro record member sameKey
          rcases (mem_readable _ _ _).mp member with ⟨row, own, read⟩
          have stored := List.mem_filter.mp own
          have owner : row.userId = userId := by simpa using stored.2
          have rowKey : row.primaryKey = (userId, key) :=
            Prod.ext owner ((read_fill_key _ _ _ _ _ read).1.symm.trans sameKey)
          exact (get_eq_none_iff _ _).mp found (List.mem_map.mpr ⟨row, stored.1, rowKey⟩)
  | some row =>
      rw [found] at lookup
      cases offered : store.fills.find? fun offer => offerKey offer = (userId, key) with
      | none =>
          rw [offered] at lookup
          cases lookup
      | some offer =>
          rw [offered] at lookup
          cases lookup with
          | some writtenRow =>
              have stored := (get_eq_some_iff _ _ _).mp found
              have owner : row.userId = userId := congrArg Prod.fst stored.2
              have sameKey := written_fill_key envelope ledger row offer writtenRow
              have offerOwner : offer.1 = userId := congrArg Prod.fst (sameKey.symm.trans stored.2)
              rcases refined_fill_reads envelope ledger row offer writtenRow with
                ⟨record, read, content⟩
              rw [offerOwner] at read
              have own : row ∈ fillRowsOf ledger.db userId :=
                List.mem_filter.mpr ⟨stored.1, by simpa using owner⟩
              refine Or.inl ⟨record, (mem_readable _ _ _).mpr ⟨row, own, read⟩, ?_, ?_⟩
              · exact (read_fill_key _ _ _ _ _ read).1.trans (congrArg Prod.snd stored.2)
              · rw [Option.map_some, content]

theorem refined_fills_read (ledger : EncryptedLedger) (store : PlainStore)
    (refines : Refines envelope ledger store) (order : ScanOrder Fill) (userId : Uuid) :
    ∃ records, readFills (envelope.under ledger.kek) order userId ledger.db = .ok records ∧
      (records.map FillRecord.key).Nodup ∧
      ∀ key, (records.find? fun record => record.key = key).map written =
        store.fill? userId key := by
  have ran := map_m_readable (readFill (envelope.under ledger.kek) ledger.db userId)
    (order.arrange (fillRowsOf ledger.db userId)) (by
      intro row member
      have own := (order.perm _).mem_iff.mp member
      rcases own_row_written envelope ledger store refines userId row own with
        ⟨offer, owner, writtenRow⟩
      rcases refined_fill_reads envelope ledger row offer writtenRow with ⟨record, read, _⟩
      exact ⟨record, owner ▸ read⟩)
  have perm := read_fills_ok _ order userId ledger.db _ ran
  have nodup := ((perm.map FillRecord.key).nodup_iff).mpr (visible_fills_keys_nodup _ _ _)
  refine ⟨_, ran, nodup, ?_⟩
  intro key
  -- the records form a table of their own, so the lookup in it is exact
  let table : KeyedTable FillRecord.key := ⟨_, nodup⟩
  change (table.get? key).map written = _
  cases visible_fill_iff envelope ledger store refines userId key with
  | inl present =>
      rcases present with ⟨record, member, sameKey, answer⟩
      have stored : record ∈ table.rows := perm.mem_iff.mpr member
      rw [answer, (get_eq_some_iff table key record).mpr ⟨stored, sameKey⟩, Option.map_some]
  | inr absent =>
      have missing : table.get? key = none := by
        rw [get_eq_none_iff]
        intro has
        rcases List.mem_map.mp has with ⟨record, member, sameKey⟩
        exact absent.1 record (perm.mem_iff.mp member) sameKey
      rw [absent.2, missing, Option.map_none]

def recorded (record : EventRecord) : Uuid × EventWrite := (record.id, record.content)

theorem refined_event_reads (ledger : EncryptedLedger) (row : Event)
    (offer : Uuid × Uuid × EventWrite) (writtenRow : WrittenEvent envelope ledger row offer) :
    row.userId = offer.1 ∧
      ∃ record, readEvent (envelope.under ledger.kek) ledger.db offer.1 row = .ok record ∧
        recorded record = offer.2 := by
  rcases writtenRow with ⟨dek, keyVersion, draw, drawn, opened, shape⟩
  have found := opens_dek envelope (Events.dataKeyMissing offer.1 keyVersion) ledger offer.1
    keyVersion dek opened
  rw [shape]
  refine ⟨rfl, eventRecordOf offer.1 keyVersion draw.eventId offer.2.2, ?_, ?_⟩
  · exact read_event_row_under _ _ _ _ _ draw offer.2.2 found
  · exact Prod.ext drawn rfl

/-- In stored order the user's rows read back as the user's offers. -/
theorem own_events_read (ledger : EncryptedLedger) (userId : Uuid) (rows : List Event)
    (offers : List (Uuid × Uuid × EventWrite))
    (all : List.Forall₂ (WrittenEvent envelope ledger) rows offers) :
    (∀ row ∈ rows.filter fun row => row.userId = userId, ∃ record,
      readEvent (envelope.under ledger.kek) ledger.db userId row = .ok record) ∧
    (readable (readEvent (envelope.under ledger.kek) ledger.db userId)
      (rows.filter fun row => row.userId = userId)).map recorded =
      (offers.filter fun offer => offer.1 = userId).map Prod.snd := by
  induction all with
  | nil => exact ⟨fun row member => (nomatch member), rfl⟩
  | @cons row offer rest restOffers head tail ih =>
      rcases refined_event_reads envelope ledger row offer head with ⟨owner, record, read, content⟩
      by_cases own : row.userId = userId
      · have offerOwn : offer.1 = userId := owner.symm.trans own
        rw [offerOwn] at read
        rw [List.filter_cons_of_pos (by simpa using own),
          List.filter_cons_of_pos (by simpa using offerOwn)]
        constructor
        · intro some member
          cases List.mem_cons.mp member with
          | inl first => exact ⟨record, first ▸ read⟩
          | inr later => exact ih.1 some later
        · have shape : readable (readEvent (envelope.under ledger.kek) ledger.db userId)
              (row :: rest.filter fun row => row.userId = userId) =
              record :: readable (readEvent (envelope.under ledger.kek) ledger.db userId)
                (rest.filter fun row => row.userId = userId) := by
            simp only [readable, List.filterMap_cons, read, Except.toOption]
          rw [shape, List.map_cons, List.map_cons, ih.2, content]
      · have offerOther : offer.1 ≠ userId := fun same => own (owner.trans same)
        rw [List.filter_cons_of_neg (by simpa using own),
          List.filter_cons_of_neg (by simpa using offerOther)]
        exact ih

theorem refined_events_read (ledger : EncryptedLedger) (store : PlainStore)
    (refines : Refines envelope ledger store) (order : ScanOrder Event) (userId : Uuid) :
    ∃ records, readEvents (envelope.under ledger.kek) order userId ledger.db = .ok records ∧
      (records.map recorded).Perm (store.eventsOf userId) := by
  have own := own_events_read envelope ledger userId _ _ refines.events
  have ran := map_m_readable (readEvent (envelope.under ledger.kek) ledger.db userId)
    (order.arrange (eventRowsOf ledger.db userId)) (by
      intro row member
      exact own.1 row ((order.perm _).mem_iff.mp member))
  refine ⟨_, ran, ?_⟩
  rw [PlainStore.eventsOf, ← own.2]
  exact (read_events_ok _ order userId ledger.db _ ran).map recorded

/-- A rotation that meets a row it cannot open changes nothing at all, and one
that comes through changes the key table alone. -/
theorem rotation_frame (state next : State) (oldKek newKek : Bytes) (nonces : Nat → Bytes)
    (stepped : step envelope state (.rotateKek oldKek newKek nonces) = some next) :
    next.plain = state.plain ∧
      next.ledger.db =
        { state.ledger.db with userDataKeys := next.ledger.db.userDataKeys } ∧
      ((∃ row ∈ state.ledger.db.userDataKeys.rows,
        envelope.unwrapDek row.wrappedDek row.wrapNonce oldKek = none) → next = state) := by
  unfold step at stepped
  rw [if_pos (show Possible state.ledger (.rotateKek oldKek newKek nonces) from trivial)] at stepped
  simp only [transact] at stepped
  cases rotated : rotateKek envelope oldKek newKek nonces state.ledger.db with
  | mk outcome session =>
      cases outcome with
      | error raised =>
          simp only [rotated, Option.some.injEq] at stepped
          rw [← stepped]
          exact ⟨rfl, rfl, fun _ => rfl⟩
      | ok count =>
          simp only [rotated, Option.some.injEq] at stepped
          rw [← stepped]
          refine ⟨rfl, rfl, ?_⟩
          rintro ⟨row, member, closed⟩
          have rewraps := (rotate_kek_returned envelope oldKek newKek nonces state.ledger.db count
            session rotated).2.2
          rcases rewraps row member with ⟨_, ⟨_, _, opened, _⟩, _⟩
          rw [closed] at opened
          cases opened

/-- After any run both readers return, under the master key of the last
committed rotation, what the plain store holds; and no rotation from there
touches anything but the wrapped keys. -/
theorem ledger_refines_plain_store (ideal : envelope.Ideal) (kek : Bytes)
    (actions : List Action) (final : State)
    (ran : runFrom (step envelope) actions (start kek) = some final) :
    (∀ order userId, ∃ records,
      readFills (envelope.under final.ledger.kek) order userId final.ledger.db = .ok records ∧
        (records.map FillRecord.key).Nodup ∧
        ∀ key, (records.find? fun record => record.key = key).map written =
          final.plain.fill? userId key) ∧
    (∀ order userId, ∃ records,
      readEvents (envelope.under final.ledger.kek) order userId final.ledger.db = .ok records ∧
        (records.map recorded).Perm (final.plain.eventsOf userId)) ∧
    ∀ oldKek newKek nonces next,
      step envelope final (.rotateKek oldKek newKek nonces) = some next →
        next.plain = final.plain ∧
        next.ledger.db =
          { final.ledger.db with userDataKeys := next.ledger.db.userDataKeys } ∧
        ((∃ row ∈ final.ledger.db.userDataKeys.rows,
          envelope.unwrapDek row.wrappedDek row.wrapNonce oldKek = none) → next = final) := by
  have refines := run_refines envelope ideal kek actions final ran
  refine ⟨?_, ?_, ?_⟩
  · exact fun order userId => refined_fills_read envelope final.ledger final.plain refines order
      userId
  · exact fun order userId => refined_events_read envelope final.ledger final.plain refines order
      userId
  · exact fun oldKek newKek nonces next stepped =>
      rotation_frame envelope final next oldKek newKek nonces stepped

/-- Half past four in the afternoon, two hours ahead of UTC. -/
def bought (quantity : Decimal) : CallerFill where
  orderId := "1001"
  occSymbol := "AAPL  240119C00190000"
  legIndex := 0
  executionTime := ⟨59400000000, 7200000000⟩
  positionEffect := "OPENING"
  side := "BUY"
  quantity := some quantity
  priceUsd := none

def opened : EventWrite := ⟨⟨1⟩, "OPEN", 0, none, some ⟨5, 0⟩, none⟩

/-- Two rotations, the first refused; a process with the old master key in
between; a second key version; and the same fill offered twice. -/
def rotatedActions : List Action :=
  let eventDraws : Nat → EventDraw := fun index => ⟨⟨Fin.ofNat _ index⟩, [5], [6]⟩
  [.addKey ⟨7⟩ 1 [9] [1],
    .insertFills [1] (fun _ => ⟨[2], [3]⟩) ⟨7⟩ [bought ⟨2, 0⟩],
    .rotateKek [4] [2] fun index => [UInt8.ofNat index],
    .rotateKek [1] [2] fun index => [UInt8.ofNat index],
    .insertFills [1] (fun _ => ⟨[2], [3]⟩) ⟨7⟩ [bought ⟨3, 0⟩],
    .addKey ⟨7⟩ 2 [8] [1],
    .insertFills [2] (fun _ => ⟨[2], [3]⟩) ⟨7⟩ [bought ⟨4, 0⟩],
    .insertEvents [2] eventDraws ⟨7⟩ [opened]]

theorem ledger_refines_plain_store_rotated : ∃ final,
    runFrom (step idealEnvelope) rotatedActions (start [1]) = some final ∧
    final.ledger.kek = [2] ∧
    (∃ records, readFills (idealEnvelope.under [2]) (ScanOrder.asStored Fill) ⟨7⟩
        final.ledger.db = .ok records ∧
      (records.find? fun record => record.key = (bought ⟨2, 0⟩).write.key).map written =
        some (bought ⟨2, 0⟩).write) ∧
    ∃ records, readEvents (idealEnvelope.under [2]) (ScanOrder.asStored Event) ⟨7⟩
        final.ledger.db = .ok records ∧
      records.map recorded = [(⟨0⟩, opened)] := by
  have computed : (runFrom (step idealEnvelope) rotatedActions (start [1])).any (fun state =>
      state.ledger.kek = [2] ∧
        state.plain.fill? ⟨7⟩ (bought ⟨2, 0⟩).write.key = some (bought ⟨2, 0⟩).write ∧
        state.plain.eventsOf ⟨7⟩ = [(⟨0⟩, opened)]) = true := by
    decide +kernel
  rcases (Option.any_eq_true_iff_get _ _).mp computed with ⟨present, holds⟩
  have ran := (Option.some_get present).symm
  obtain ⟨kek, stored, events⟩ := of_decide_eq_true holds
  have refined := ledger_refines_plain_store idealEnvelope ideal_envelope_ideal [1] rotatedActions
    _ ran
  refine ⟨_, ran, kek, ?_, ?_⟩
  · rcases refined.1 (ScanOrder.asStored Fill) ⟨7⟩ with ⟨records, read, _, answers⟩
    rw [kek] at read
    exact ⟨records, read, (answers _).trans stored⟩
  · rcases refined.2.1 (ScanOrder.asStored Event) ⟨7⟩ with ⟨records, read, same⟩
    rw [kek] at read
    rw [events, List.perm_singleton] at same
    exact ⟨records, read, same⟩

end Morai.Ledger.PlainLedger
