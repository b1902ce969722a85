import Morai.Foundation.KeyedTable
import Morai.Python.Values

/-!
# Tables

The columns the modelled code reads or writes, plaintext and ciphertext as
the migrations declare them; server defaults such as `created_at` and columns
nothing here reads (`leg_role`, `root`, `closed_at`) are left out.
Tables with a natural primary key are `KeyedTable`s. `events` and `sync_runs`
are keyed by a generated UUID and `legs` is read as a multiset, so these are
lists.
-/

namespace Morai.Db

open Morai.Foundation.PrimaryKey Morai.Python

set_option autoImplicit false

abbrev Bytes := List UInt8

/-- The four columns of the `fills` primary key that discriminate within one
user. -/
structure FillKey where
  orderId : String
  occSymbol : String
  legIndex : Int
  executionTime : Instant
  deriving DecidableEq, Repr

structure UserDataKey where
  userId : Uuid
  keyVersion : Int
  wrappedDek : Bytes
  wrapNonce : Bytes
  deriving DecidableEq, Repr

def UserDataKey.primaryKey (row : UserDataKey) : Uuid × Int := (row.userId, row.keyVersion)

structure Fill where
  userId : Uuid
  orderId : String
  occSymbol : String
  legIndex : Int
  executionTime : Instant
  positionEffect : String
  side : String
  quantityCiphertext : Option Bytes
  quantityNonce : Option Bytes
  priceUsdCiphertext : Option Bytes
  priceUsdNonce : Option Bytes
  keyVersion : Int
  deriving DecidableEq, Repr

def Fill.key (row : Fill) : FillKey :=
  ⟨row.orderId, row.occSymbol, row.legIndex, row.executionTime⟩

def Fill.primaryKey (row : Fill) : Uuid × FillKey := (row.userId, row.key)

structure Leg where
  positionId : Uuid
  userId : Uuid
  occSymbol : String
  deriving DecidableEq, Repr

structure Event where
  id : Uuid
  userId : Uuid
  positionId : Uuid
  eventType : String
  eventTime : Instant
  fillIdsHash : Option String
  openDebitUsdCiphertext : Option Bytes
  openDebitUsdNonce : Option Bytes
  closeCreditUsdCiphertext : Option Bytes
  closeCreditUsdNonce : Option Bytes
  keyVersion : Int
  deriving DecidableEq, Repr

structure SchwabConnection where
  userId : Uuid
  accountHashCiphertext : Bytes
  accountHashNonce : Bytes
  tokenCiphertext : Bytes
  tokenNonce : Bytes
  keyVersion : Int
  tokenCreatedAt : Instant
  lastSyncedAt : Option Instant
  reauthNotifiedAt : Option Instant
  deriving DecidableEq, Repr

structure BrokerTransaction where
  userId : Uuid
  activityId : String
  transactionType : String
  transactionTime : Instant
  orderId : Option String
  rawCiphertext : Bytes
  rawNonce : Bytes
  keyVersion : Int
  deriving DecidableEq, Repr

def BrokerTransaction.primaryKey (row : BrokerTransaction) : Uuid × String :=
  (row.userId, row.activityId)

structure SyncRun where
  userId : Uuid
  startedAt : Instant
  finishedAt : Instant
  trigger : String
  status : String
  fillsLanded : Option Nat
  brokerTransactionsLanded : Option Nat
  errorCode : Option String
  deriving DecidableEq, Repr

structure Database where
  userDataKeys : KeyedTable UserDataKey.primaryKey
  fills : KeyedTable Fill.primaryKey
  legs : List Leg
  events : List Event
  schwabConnections : KeyedTable SchwabConnection.userId
  brokerTransactions : KeyedTable BrokerTransaction.primaryKey
  syncRuns : List SyncRun

/-- After the migrations, before the first user. -/
def Database.empty : Database := ⟨.empty, .empty, [], [], .empty, .empty, []⟩

/-- The exceptions the modelled code raises or lets through. A vendor or
driver failure it does not look into is `other`. -/
inductive Raised where
  | noResultFound
  | invalidTag
  | invalidOperation
  | overflow
  | overflowError
  | valueError (message : String)
  | integrityError (constraintName : String)
  | dataError
  | dataKeyMissing (message : String)
  | connectionDataKeyMissing (message : String)
  | connectionNotFound (message : String)
  | validationError
  | httpStatusError (statusCode : Nat)
  | other
  deriving DecidableEq, Repr

theorem bind_ok {Error Value Result : Type} (first : Except Error Value)
    (later : Value → Except Error Result) (result : Result)
    (ran : first >>= later = .ok result) :
    ∃ value, first = .ok value ∧ later value = .ok result := by
  cases first with
  | error raised => cases ran
  | ok value => exact ⟨value, rfl, ran⟩

theorem bind_error {Value Result : Type} (first : Except Raised Value)
    (later : Value → Except Raised Result) (raised : Raised)
    (ran : first >>= later = .error raised) :
    first = .error raised ∨ ∃ value, first = .ok value ∧ later value = .error raised := by
  cases first with
  | error early =>
      cases ran
      exact Or.inl rfl
  | ok value => exact Or.inr ⟨value, rfl, ran⟩

/-! ## The limits of the columns -/

/-- A `TEXT` takes every text without U+0000. -/
def TextFits (text : String) : Prop := '\x00' ∉ text.toList

instance (text : String) : Decidable (TextFits text) :=
  inferInstanceAs (Decidable (¬ '\x00' ∈ text.toList))

/-- The driver sends a `TIMESTAMPTZ` as a datetime in UTC. -/
def InstantFits (instant : Instant) : Prop := minInstant ≤ instant ∧ instant ≤ maxInstant

instance (instant : Instant) : Decidable (InstantFits instant) :=
  inferInstanceAs (Decidable (_ ∧ _))

/-- What a statement stores, unless a column does not take one of its values.
A transaction in which a statement raised is lost, so it does not matter which
rows came before. -/
def withinColumns {Value : Type} (fits : Prop) [Decidable fits] (stored : Except Raised Value) :
    Except Raised Value := do
  let value ← stored
  if fits then .ok value else .error .dataError

theorem within_columns_ok {Value : Type} (fits : Prop) [Decidable fits]
    (stored : Except Raised Value) (value : Value) :
    withinColumns fits stored = .ok value ↔ fits ∧ stored = .ok value := by
  unfold withinColumns
  cases stored with
  | error raised => simp [bind, Except.bind]
  | ok found =>
      by_cases all : fits
      · simp [bind, Except.bind, all]
      · simp [bind, Except.bind, all]

/-! ## Reading -/

/-- The order in which a `SELECT` without `ORDER BY` happens to return its
rows: any rearrangement. -/
structure ScanOrder (Row : Type) where
  arrange : List Row → List Row
  perm : ∀ rows, (arrange rows).Perm rows

def ScanOrder.asStored (Row : Type) : ScanOrder Row := ⟨id, fun rows => List.Perm.refl rows⟩

/-! ## Outcomes of computed runs -/

theorem some_ok_of_any {Value : Type} (ran : Option (Except Raised Value))
    (returned : (ran.any fun ended => ended.toOption.isSome) = true) :
    ∃ value, ran = some (.ok value) := by
  cases ran with
  | none => cases returned
  | some ended =>
      cases ended with
      | error raised => cases returned
      | ok value => exact ⟨value, rfl⟩

theorem ok_of_any {Value : Type} (ended : Except Raised Value) (holds : Value → Bool)
    (found : ended.toOption.any holds = true) :
    ∃ value, ended = .ok value ∧ holds value = true := by
  cases ended with
  | error raised => cases found
  | ok value => exact ⟨value, rfl, found⟩

def raisesOnly {Value : Type} (expected : Raised) : Except Raised Value → Bool
  | .error raised => raised = expected
  | .ok _ => false

theorem some_error_of_any {Value : Type} (ran : Option (Except Raised Value)) (expected : Raised)
    (raised : ran.any (raisesOnly expected) = true) : ran = some (.error expected) := by
  cases ran with
  | none => cases raised
  | some ended =>
      cases ended with
      | error found =>
          have same : found = expected := of_decide_eq_true raised
          rw [same]
      | ok value => cases raised

/-! ## Reading rows one after the other -/

def readable {Row Record : Type} (read : Row → Except Raised Record) (rows : List Row) :
    List Record :=
  rows.filterMap fun row => (read row).toOption

theorem map_m_readable {Row Record : Type} (read : Row → Except Raised Record) (rows : List Row)
    (all : ∀ row ∈ rows, ∃ record, read row = .ok record) :
    rows.mapM read = .ok (readable read rows) := by
  induction rows with
  | nil => rfl
  | cons row rest ih =>
      obtain ⟨record, readRow⟩ := all row List.mem_cons_self
      have readRest := ih fun other member => all other (List.mem_cons_of_mem _ member)
      simp only [List.mapM_cons, readRow, readRest, readable, List.filterMap_cons,
        Except.toOption]
      rfl

/-- A read that succeeds returned exactly the readable rows, so nothing was
left out. -/
theorem map_m_ok_readable {Row Record : Type} (read : Row → Except Raised Record)
    (rows : List Row) (records : List Record) (ran : rows.mapM read = .ok records) :
    records = readable read rows := by
  induction rows generalizing records with
  | nil =>
      cases ran
      rfl
  | cons row rest ih =>
      rw [List.mapM_cons] at ran
      cases readRow : read row with
      | error raised =>
          rw [readRow] at ran
          cases ran
      | ok record =>
          cases readRest : rest.mapM read with
          | error raised =>
              rw [readRow, readRest] at ran
              cases ran
          | ok later =>
              rw [readRow, readRest] at ran
              cases ran
              simp only [readable, List.filterMap_cons, readRow, Except.toOption]
              rw [ih later readRest]
              rfl

/-- A field every record takes over from its row is read for all rows. -/
theorem map_m_ok_field {Row Record Field : Type} (read : Row → Except Raised Record)
    (ofRecord : Record → Field) (ofRow : Row → Field)
    (takesOver : ∀ row record, read row = .ok record → ofRecord record = ofRow row)
    (rows : List Row) (records : List Record) (ran : rows.mapM read = .ok records) :
    records.map ofRecord = rows.map ofRow := by
  induction rows generalizing records with
  | nil =>
      cases ran
      rfl
  | cons row rest ih =>
      rw [List.mapM_cons] at ran
      rcases bind_ok _ _ _ ran with ⟨record, readRow, after⟩
      rcases bind_ok _ _ _ after with ⟨later, readRest, made⟩
      cases made
      rw [List.map_cons, List.map_cons, takesOver row record readRow, ih later readRest]

theorem readable_append {Row Record : Type} (read : Row → Except Raised Record)
    (left right : List Row) :
    readable read (left ++ right) = readable read left ++ readable read right :=
  List.filterMap_append

theorem readable_perm {Row Record : Type} (read : Row → Except Raised Record)
    (left right : List Row) (perm : left.Perm right) :
    (readable read left).Perm (readable read right) :=
  perm.filterMap _

theorem mem_readable {Row Record : Type} (read : Row → Except Raised Record) (rows : List Row)
    (record : Record) :
    record ∈ readable read rows ↔ ∃ row ∈ rows, read row = .ok record := by
  simp only [readable, List.mem_filterMap]
  constructor
  · intro found
    rcases found with ⟨row, member, shape⟩
    cases outcome : read row with
    | error raised => simp [outcome, Except.toOption] at shape
    | ok other =>
        simp only [outcome, Except.toOption, Option.some.injEq] at shape
        exact ⟨row, member, shape ▸ outcome⟩
  · intro found
    rcases found with ⟨row, member, outcome⟩
    exact ⟨row, member, by simp [outcome, Except.toOption]⟩

end Morai.Db
