import Morai.Crypto.Envelope

/-!
# The fill table's write and read path

`insert_fills` encrypts quantity and price, cuts the batch into chunks and
inserts each with `ON CONFLICT DO NOTHING` on the full primary key;
`read_fills` decrypts every row under the key version it was stamped with.
`visible_fills` is what a reader of a sound table sees, and the two functions
are characterised by it.
-/

namespace Morai.Ledger.Fills

open Morai.Crypto Morai.Db Morai.Python Morai.Foundation.PrimaryKey

set_option autoImplicit false

/-- NN-5, D3-16. -/
def chunkSize : Nat := 2000

structure FillWrite where
  orderId : String
  occSymbol : String
  legIndex : Int
  executionTime : Instant
  positionEffect : String
  side : String
  quantity : Option Decimal
  priceUsd : Option Decimal
  deriving DecidableEq, Repr

def FillWrite.key (fill : FillWrite) : FillKey :=
  ⟨fill.orderId, fill.occSymbol, fill.legIndex, fill.executionTime⟩

/-- The columns take the fill; `leg_index` is a `SMALLINT`. -/
def FillWrite.Fits (fill : FillWrite) : Prop :=
  TextFits fill.orderId ∧ TextFits fill.occSymbol ∧
    (-32768 ≤ fill.legIndex ∧ fill.legIndex ≤ 32767) ∧ InstantFits fill.executionTime ∧
    TextFits fill.positionEffect ∧ TextFits fill.side

instance (fill : FillWrite) : Decidable fill.Fits := inferInstanceAs (Decidable (_ ∧ _))

structure FillRecord where
  userId : Uuid
  orderId : String
  occSymbol : String
  legIndex : Int
  executionTime : Instant
  positionEffect : String
  side : String
  quantity : Option Decimal
  priceUsd : Option Decimal
  keyVersion : Int
  deriving DecidableEq, Repr

def FillRecord.key (fill : FillRecord) : FillKey :=
  ⟨fill.orderId, fill.occSymbol, fill.legIndex, fill.executionTime⟩

/-- `_fill_associated_data`. -/
def fillAssociatedData (column : String) (userId : Uuid) (key : FillKey) : String :=
  "fills:" ++ column ++ ":" ++ userId.text ++ ":" ++ key.orderId ++ ":" ++ key.occSymbol ++ ":" ++
    toString key.legIndex ++ ":" ++ microsText key.executionTime

/-- The two nonces drawn while one fill is encrypted. -/
structure FillDraw where
  quantityNonce : Bytes
  priceUsdNonce : Bytes

variable (keys : KeyService)

/-- One entry of `values`. -/
def fillRow (userId : Uuid) (dek : Bytes) (keyVersion : Int) (draw : FillDraw)
    (fill : FillWrite) : Fill :=
  let quantity := encryptDecimal keys dek (fillAssociatedData "quantity" userId fill.key)
    draw.quantityNonce fill.quantity
  let priceUsd := encryptDecimal keys dek (fillAssociatedData "price_usd" userId fill.key)
    draw.priceUsdNonce fill.priceUsd
  { userId := userId
    orderId := fill.orderId
    occSymbol := fill.occSymbol
    legIndex := fill.legIndex
    executionTime := fill.executionTime
    positionEffect := fill.positionEffect
    side := fill.side
    quantityCiphertext := quantity.1
    quantityNonce := quantity.2
    priceUsdCiphertext := priceUsd.1
    priceUsdNonce := priceUsd.2
    keyVersion := keyVersion }

/-- The rows of a batch; the fill at position `i` draws `draws i`. -/
def fillRows (userId : Uuid) (dek : Bytes) (keyVersion : Int) (draws : Nat → FillDraw)
    (fills : List (FillWrite × Nat)) : List Fill :=
  fills.map fun fill => fillRow keys userId dek keyVersion (draws fill.2) fill.1

/-- Of fills that fit their columns. -/
def insertFills (draws : Nat → FillDraw) (userId : Uuid) (fills : List FillWrite)
    (db : Database) : Except Raised (Nat × Database) :=
  if fills = [] then .ok (0, db)
  else do
    let (dek, keyVersion) ← currentDek keys db userId
    let chunks := chunksOf chunkSize fills.zipIdx
    let inserted := insertChunked db.fills (chunks.map (fillRows keys userId dek keyVersion draws))
    .ok (inserted.2.length, { db with fills := inserted.1 })

def dataKeyMissing (userId : Uuid) (keyVersion : Int) : Raised :=
  .dataKeyMissing ("No user_data_keys row for user_id=" ++ userId.text ++ " key_version=" ++
    toString keyVersion ++ " -- the account's data key has been destroyed (crypto-shred, " ++
    "D3-08). This user's trade rows cannot be decrypted.")

/-- The loop body of `read_fills`; the `dek_cache` only saves lookups. -/
def readFill (db : Database) (userId : Uuid) (row : Fill) : Except Raised FillRecord := do
  let dek ← dekForVersion keys (dataKeyMissing userId row.keyVersion) db userId row.keyVersion
  let quantity ← decryptDecimal keys dek (fillAssociatedData "quantity" userId row.key)
    row.quantityCiphertext row.quantityNonce
  let priceUsd ← decryptDecimal keys dek (fillAssociatedData "price_usd" userId row.key)
    row.priceUsdCiphertext row.priceUsdNonce
  .ok { userId := userId
        orderId := row.orderId
        occSymbol := row.occSymbol
        legIndex := row.legIndex
        executionTime := row.executionTime
        positionEffect := row.positionEffect
        side := row.side
        quantity := quantity
        priceUsd := priceUsd
        keyVersion := row.keyVersion }

def fillRowsOf (db : Database) (userId : Uuid) : List Fill :=
  db.fills.rows.filter fun row => row.userId = userId

def readFills (order : ScanOrder Fill) (userId : Uuid) (db : Database) :
    Except Raised (List FillRecord) :=
  (order.arrange (fillRowsOf db userId)).mapM (readFill keys db userId)

/-! ## What a reader sees -/

/-- The record a row decrypts to, when it does. -/
def recordOf (userId : Uuid) (keyVersion : Int) (fill : FillWrite) : FillRecord where
  userId := userId
  orderId := fill.orderId
  occSymbol := fill.occSymbol
  legIndex := fill.legIndex
  executionTime := fill.executionTime
  positionEffect := fill.positionEffect
  side := fill.side
  quantity := fill.quantity
  priceUsd := fill.priceUsd
  keyVersion := keyVersion

theorem fill_row_primary_key (userId : Uuid) (dek : Bytes) (keyVersion : Int) (draw : FillDraw)
    (fill : FillWrite) :
    (fillRow keys userId dek keyVersion draw fill).primaryKey = (userId, fill.key) := rfl

/-- A row reads back as the fill it was written from, wherever the data key it
was written under is found again. -/
theorem read_fill_row_under (db : Database) (userId : Uuid) (dek : Bytes) (keyVersion : Int)
    (draw : FillDraw) (fill : FillWrite)
    (found : dekForVersion keys (dataKeyMissing userId keyVersion) db userId keyVersion =
      .ok dek) :
    readFill keys db userId (fillRow keys userId dek keyVersion draw fill) =
      .ok (recordOf userId keyVersion fill) := by
  have version : (fillRow keys userId dek keyVersion draw fill).keyVersion = keyVersion := rfl
  have rowKey : (fillRow keys userId dek keyVersion draw fill).key = fill.key := rfl
  simp only [readFill, version, rowKey, found]
  have quantity := decrypt_encrypt_decimal keys dek draw.quantityNonce
    (fillAssociatedData "quantity" userId fill.key) fill.quantity
  have priceUsd := decrypt_encrypt_decimal keys dek draw.priceUsdNonce
    (fillAssociatedData "price_usd" userId fill.key) fill.priceUsd
  simp only [fillRow, bind, Except.bind]
  rw [quantity]
  dsimp only
  rw [priceUsd]
  rfl

/-- A row written under the current key reads back as the fill it was written
from. -/
theorem read_fill_row (db : Database) (userId : Uuid) (dek : Bytes) (keyVersion : Int)
    (draw : FillDraw) (fill : FillWrite)
    (current : currentDek keys db userId = .ok (dek, keyVersion)) :
    readFill keys db userId (fillRow keys userId dek keyVersion draw fill) =
      .ok (recordOf userId keyVersion fill) := by
  apply read_fill_row_under
  exact dek_for_current_version keys (dataKeyMissing userId keyVersion) db userId dek keyVersion
    current

/-- Chunking is invisible: the batch lands as one statement would land it. -/
theorem insert_fills_rows (draws : Nat → FillDraw) (userId : Uuid) (fills : List FillWrite)
    (db : Database) (dek : Bytes) (keyVersion : Int)
    (current : currentDek keys db userId = .ok (dek, keyVersion)) :
    insertFills keys draws userId fills db =
      .ok ((insertOrSkip db.fills
          (fillRows keys userId dek keyVersion draws fills.zipIdx)).2.length,
        { db with fills := (insertOrSkip db.fills
          (fillRows keys userId dek keyVersion draws fills.zipIdx)).1 }) := by
  by_cases empty : fills = []
  · simp [insertFills, empty, fillRows, insertOrSkip]
  · have joined : ((chunksOf chunkSize fills.zipIdx).map
        (fillRows keys userId dek keyVersion draws)).flatten =
        fillRows keys userId dek keyVersion draws fills.zipIdx := by
      have whole := chunks_of_flatten chunkSize fills.zipIdx (by decide)
      conv_rhs => rw [← whole]
      simp only [fillRows, List.map_flatten]
      rfl
    simp only [insertFills, if_neg empty, current, bind, Except.bind,
      insert_chunked_flatten, joined]

/-- A batch without a data key to encrypt under is refused, unless it is
empty. -/
theorem insert_fills_raises (draws : Nat → FillDraw) (userId : Uuid) (fills : List FillWrite)
    (db : Database) (raised : Raised) (some : fills ≠ [])
    (current : currentDek keys db userId = .error raised) :
    insertFills keys draws userId fills db = .error raised := by
  simp only [insertFills, if_neg some, current, bind, Except.bind]

theorem fill_rows_keys (userId : Uuid) (dek : Bytes) (keyVersion : Int) (draws : Nat → FillDraw)
    (fills : List FillWrite) :
    (fillRows keys userId dek keyVersion draws fills.zipIdx).map Fill.primaryKey =
      fills.map fun fill => (userId, fill.key) := by
  rw [fillRows, List.map_map]
  have split : (Fill.primaryKey ∘ fun fill : FillWrite × Nat =>
      fillRow keys userId dek keyVersion (draws fill.2) fill.1) =
      (fun fill : FillWrite => (userId, fill.key)) ∘ Prod.fst := rfl
  rw [split, ← List.map_map, List.zipIdx_map_fst]

def visibleFills (userId : Uuid) (db : Database) : List FillRecord :=
  readable (readFill keys db userId) (fillRowsOf db userId)

theorem read_fills_ok (order : ScanOrder Fill) (userId : Uuid) (db : Database)
    (records : List FillRecord) (ran : readFills keys order userId db = .ok records) :
    records.Perm (visibleFills keys userId db) := by
  rw [map_m_ok_readable _ _ _ ran]
  apply readable_perm
  apply order.perm

theorem read_fill_key (db : Database) (userId : Uuid) (row : Fill) (record : FillRecord)
    (read : readFill keys db userId row = .ok record) :
    record.key = row.key ∧ record.userId = userId := by
  unfold readFill at read
  cases dek : dekForVersion keys (dataKeyMissing userId row.keyVersion) db userId
      row.keyVersion with
  | error raised => simp [dek, bind, Except.bind] at read
  | ok dek =>
      simp only [dek, bind, Except.bind] at read
      split at read
      · cases read
      · split at read
        · cases read
        · cases read
          exact ⟨rfl, rfl⟩

/-- Within one user the rows keep their own key, so what is read has pairwise
different keys. -/
theorem visible_fills_keys_nodup (userId : Uuid) (db : Database) :
    ((visibleFills keys userId db).map FillRecord.key).Nodup := by
  have stored : (db.fills.rows.map Fill.primaryKey).Nodup := db.fills.unique
  have ownRows : ((fillRowsOf db userId).map Fill.primaryKey).Nodup :=
    stored.sublist (List.filter_sublist.map _)
  have ownKeys : (fillRowsOf db userId).Pairwise fun left right => left.key ≠ right.key := by
    refine (List.pairwise_map.mp ownRows).imp_of_mem ?_
    intro left right leftMember rightMember different same
    apply different
    have leftOwner : left.userId = userId := by simpa using (List.mem_filter.mp leftMember).2
    have rightOwner : right.userId = userId := by simpa using (List.mem_filter.mp rightMember).2
    exact Prod.ext (leftOwner.trans rightOwner.symm) same
  refine List.pairwise_map.mpr (List.pairwise_filterMap.mpr (ownKeys.imp ?_))
  intro left right different leftRecord leftRead rightRecord rightRead same
  apply different
  have leftKey := read_fill_key keys db userId left leftRecord (by
    cases outcome : readFill keys db userId left <;> simp_all [Except.toOption])
  have rightKey := read_fill_key keys db userId right rightRecord (by
    cases outcome : readFill keys db userId right <;> simp_all [Except.toOption])
  rw [← leftKey.1, ← rightKey.1, same]

/-- The rows of a batch that land: the first of each new key, in batch
order. -/
def landedRows (userId : Uuid) (dek : Bytes) (keyVersion : Int) (draws : Nat → FillDraw)
    (fills : List FillWrite) (db : Database) : List Fill :=
  (insertOrSkip db.fills (fillRows keys userId dek keyVersion draws fills.zipIdx)).2

theorem mem_fill_rows (userId : Uuid) (dek : Bytes) (keyVersion : Int) (draws : Nat → FillDraw)
    (fills : List FillWrite) (row : Fill)
    (member : row ∈ fillRows keys userId dek keyVersion draws fills.zipIdx) :
    ∃ fill ∈ fills, ∃ draw, row = fillRow keys userId dek keyVersion draw fill := by
  rcases List.mem_map.mp member with ⟨indexed, indexedMember, shape⟩
  exact ⟨indexed.1, List.fst_mem_of_mem_zipIdx indexedMember, _, shape.symm⟩

theorem landed_rows_mem (userId : Uuid) (dek : Bytes) (keyVersion : Int)
    (draws : Nat → FillDraw) (fills : List FillWrite) (db : Database) (row : Fill)
    (member : row ∈ landedRows keys userId dek keyVersion draws fills db) :
    (∃ fill ∈ fills, ∃ draw, row = fillRow keys userId dek keyVersion draw fill) ∧
      ¬db.fills.Has row.primaryKey := by
  have returned := insert_or_skip_returned_mem _ _ row member
  exact ⟨mem_fill_rows keys userId dek keyVersion draws fills row returned.1, returned.2⟩

/-- What `insert_fills` does, for a user who can encrypt: it appends exactly
the landed rows and touches no other table. -/
theorem insert_fills_spec (draws : Nat → FillDraw) (userId : Uuid) (fills : List FillWrite)
    (db : Database) (dek : Bytes) (keyVersion : Int)
    (current : currentDek keys db userId = .ok (dek, keyVersion)) :
    ∃ after, insertFills keys draws userId fills db =
        .ok ((landedRows keys userId dek keyVersion draws fills db).length, after) ∧
      after = { db with fills := after.fills } ∧
      after.fills.rows = db.fills.rows ++
        landedRows keys userId dek keyVersion draws fills db ∧
      fillRowsOf after userId = fillRowsOf db userId ++
        landedRows keys userId dek keyVersion draws fills db := by
  refine ⟨_, insert_fills_rows keys draws userId fills db dek keyVersion current, rfl,
    insert_or_skip_rows _ _, ?_⟩
  have own : (landedRows keys userId dek keyVersion draws fills db).filter
      (fun row => row.userId = userId) =
      landedRows keys userId dek keyVersion draws fills db := by
    refine List.filter_eq_self.mpr ?_
    intro row member
    rcases (landed_rows_mem keys userId dek keyVersion draws fills db row member).1 with
      ⟨fill, _, draw, shape⟩
    rw [shape]
    simp [fillRow]
  simp only [fillRowsOf, insert_or_skip_rows, List.filter_append]
  exact congrArg _ own

/-- The records of the rows that land. -/
def landedRecords (userId : Uuid) (dek : Bytes) (keyVersion : Int) (draws : Nat → FillDraw)
    (fills : List FillWrite) (db : Database) : List FillRecord :=
  readable (readFill keys db userId) (landedRows keys userId dek keyVersion draws fills db)

theorem landed_row_reads (userId : Uuid) (dek : Bytes) (keyVersion : Int)
    (draws : Nat → FillDraw) (fills : List FillWrite) (db : Database)
    (current : currentDek keys db userId = .ok (dek, keyVersion)) (row : Fill)
    (member : row ∈ landedRows keys userId dek keyVersion draws fills db) :
    ∃ fill ∈ fills, readFill keys db userId row = .ok (recordOf userId keyVersion fill) := by
  rcases (landed_rows_mem keys userId dek keyVersion draws fills db row member).1 with
    ⟨fill, fillMember, draw, shape⟩
  exact ⟨fill, fillMember, shape ▸ read_fill_row keys db userId dek keyVersion draw fill current⟩

/-- First write wins, seen from the reader: old records stay as they are and
the landed ones come after them. -/
theorem insert_fills_visible (draws : Nat → FillDraw) (userId : Uuid) (fills : List FillWrite)
    (db after : Database) (dek : Bytes) (keyVersion : Int) (landed : Nat)
    (current : currentDek keys db userId = .ok (dek, keyVersion))
    (inserted : insertFills keys draws userId fills db = .ok (landed, after)) :
    after = { db with fills := after.fills } ∧
      visibleFills keys userId after = visibleFills keys userId db ++
        landedRecords keys userId dek keyVersion draws fills db := by
  rcases insert_fills_spec keys draws userId fills db dek keyVersion current with
    ⟨final, outcome, frame, _, own⟩
  rw [inserted] at outcome
  cases outcome
  have sameRead : readFill keys after userId = readFill keys db userId := by
    rw [frame]
    rfl
  refine ⟨frame, ?_⟩
  simp only [visibleFills, landedRecords, own, sameRead, readable_append]

/-- Whatever a batch holds, an insert that returned only added records. -/
theorem insert_fills_extends (draws : Nat → FillDraw) (userId : Uuid) (fills : List FillWrite)
    (db after : Database) (landed : Nat)
    (inserted : insertFills keys draws userId fills db = .ok (landed, after)) :
    after = { db with fills := after.fills } ∧
      ∃ added, visibleFills keys userId after = visibleFills keys userId db ++ added := by
  by_cases empty : fills = []
  · rw [insertFills, if_pos empty] at inserted
    cases inserted
    exact ⟨rfl, [], (List.append_nil _).symm⟩
  · cases current : currentDek keys db userId with
    | error raised =>
        rw [insert_fills_raises keys draws userId fills db raised empty current] at inserted
        cases inserted
    | ok found =>
        have visible := insert_fills_visible keys draws userId fills db after found.1 found.2
          landed current inserted
        exact ⟨visible.1, _, visible.2⟩

/-- The count returned is the number of rows added to the table. -/
theorem insert_fills_grows (draws : Nat → FillDraw) (userId : Uuid) (fills : List FillWrite)
    (landed : Nat) (db after : Database)
    (inserted : insertFills keys draws userId fills db = .ok (landed, after)) :
    after = { db with fills := after.fills } ∧
      ∃ added, after.fills.rows = db.fills.rows ++ added ∧ added.length = landed := by
  unfold insertFills at inserted
  split_ifs at inserted with empty
  · cases inserted
    exact ⟨rfl, [], (List.append_nil _).symm, rfl⟩
  · obtain ⟨found, _, written⟩ := bind_ok _ _ _ inserted
    cases written
    refine ⟨rfl, _, ?_, rfl⟩
    rw [insert_chunked_flatten]
    apply insert_or_skip_rows

/-- A batch of new, pairwise different keys lands whole and in order. -/
theorem landed_records_all (userId : Uuid) (dek : Bytes) (keyVersion : Int)
    (draws : Nat → FillDraw) (fills : List FillWrite) (db : Database)
    (current : currentDek keys db userId = .ok (dek, keyVersion))
    (nodup : (fills.map FillWrite.key).Nodup)
    (absent : ∀ fill ∈ fills, ¬db.fills.Has (userId, fill.key)) :
    landedRows keys userId dek keyVersion draws fills db =
        fillRows keys userId dek keyVersion draws fills.zipIdx ∧
      landedRecords keys userId dek keyVersion draws fills db =
        fills.map (recordOf userId keyVersion) := by
  have whole : landedRows keys userId dek keyVersion draws fills db =
      fillRows keys userId dek keyVersion draws fills.zipIdx := by
    apply insert_or_skip_all
    · have paired : fills.map (fun fill => (userId, fill.key)) =
          (fills.map FillWrite.key).map (Prod.mk userId) := by
        rw [List.map_map]
        rfl
      rw [fill_rows_keys, paired]
      exact nodup.map fun left right same => congrArg Prod.snd same
    · intro row member
      rcases mem_fill_rows keys userId dek keyVersion draws fills row member with
        ⟨fill, fillMember, draw, shape⟩
      rw [shape, fill_row_primary_key]
      exact absent fill fillMember
  refine ⟨whole, ?_⟩
  have reads : ∀ indexed : FillWrite × Nat, readFill keys db userId
      (fillRow keys userId dek keyVersion (draws indexed.2) indexed.1) =
      .ok (recordOf userId keyVersion indexed.1) := fun indexed =>
    read_fill_row keys db userId dek keyVersion _ _ current
  rw [landedRecords, whole, fillRows, readable, List.filterMap_map]
  have plain : ((fun row => (readFill keys db userId row).toOption) ∘
      fun fill : FillWrite × Nat => fillRow keys userId dek keyVersion (draws fill.2) fill.1) =
      fun indexed => some (recordOf userId keyVersion indexed.1) := by
    funext indexed
    simp only [Function.comp_apply, reads, Except.toOption]
  rw [plain, List.filterMap_eq_map']
  have split : (fun indexed : FillWrite × Nat => recordOf userId keyVersion indexed.1) =
      recordOf userId keyVersion ∘ Prod.fst := rfl
  rw [split, ← List.map_map, List.zipIdx_map_fst]

end Morai.Ledger.Fills
