import Morai.Crypto.Envelope
import Morai.Python.Pydantic

/-!
# The connection row

`upsert_connection` writes a whole grant, `read_connection` decrypts it, and
the write-back of `schwab_client_for_user` replaces the token columns alone.
Each function works on the database the calling transaction sees.
-/

namespace Morai.Vendor.Connections

open Morai.Crypto Morai.Db Morai.Python Morai.Foundation.PrimaryKey

set_option autoImplicit false

structure ExchangedToken where
  token : JsonValue
  createdAt : Instant

structure ConnectionRecord where
  userId : Uuid
  accountHash : String
  token : JsonValue
  tokenCreatedAt : Instant
  lastSyncedAt : Option Instant
  reauthNotifiedAt : Option Instant
  keyVersion : Int

/-- `_connection_associated_data`. -/
def connectionAssociatedData (column : String) (userId : Uuid) : String :=
  "schwab_connections:" ++ column ++ ":" ++ userId.text

def connectionDataKeyMissing (userId : Uuid) (keyVersion : Int) : Raised :=
  .connectionDataKeyMissing ("No user_data_keys row for user_id=" ++ userId.text ++
    " key_version=" ++ toString keyVersion ++
    " -- the account's data key has been destroyed (crypto-shred, D3-08).")

/-- The nonces drawn by one upsert. -/
structure UpsertDraw where
  tokenNonce : Bytes
  accountHashNonce : Bytes

variable (keys : KeyService) (pydantic : Pydantic)

def encryptToken (userId : Uuid) (dek nonce : Bytes) (token : JsonValue) : Bytes :=
  keys.encryptField (jsonDumps token) dek (connectionAssociatedData "token_ciphertext" userId)
    nonce

def encryptAccountHash (userId : Uuid) (dek nonce : Bytes) (accountHash : String) : Bytes :=
  keys.encryptField accountHash dek (connectionAssociatedData "account_hash_ciphertext" userId)
    nonce

/-- The row the `INSERT` proposes. -/
def excludedRow (draw : UpsertDraw) (userId : Uuid) (exchangedToken : ExchangedToken)
    (accountHash : String) (dek : Bytes) (keyVersion : Int) : SchwabConnection where
  userId := userId
  accountHashCiphertext := encryptAccountHash keys userId dek draw.accountHashNonce accountHash
  accountHashNonce := draw.accountHashNonce
  tokenCiphertext := encryptToken keys userId dek draw.tokenNonce exchangedToken.token
  tokenNonce := draw.tokenNonce
  keyVersion := keyVersion
  tokenCreatedAt := exchangedToken.createdAt
  lastSyncedAt := none
  reauthNotifiedAt := none

/-- `DO UPDATE SET`: `last_synced_at` and `reauth_notified_at` are not in the
list. -/
def setExcluded (stored excluded : SchwabConnection) : SchwabConnection :=
  { stored with
    accountHashCiphertext := excluded.accountHashCiphertext
    accountHashNonce := excluded.accountHashNonce
    tokenCiphertext := excluded.tokenCiphertext
    tokenNonce := excluded.tokenNonce
    keyVersion := excluded.keyVersion
    tokenCreatedAt := excluded.tokenCreatedAt }

/-- The database with one connection row written. -/
def storeConnection (db : Database) (row : SchwabConnection) : Database :=
  { db with schwabConnections := db.schwabConnections.put row }

def upsertConnection (draw : UpsertDraw) (userId : Uuid) (exchangedToken : ExchangedToken)
    (accountHash : String) (db : Database) : Except Raised Database := do
  let (dek, keyVersion) ← currentDek keys db userId
  let excluded := excludedRow keys draw userId exchangedToken accountHash dek keyVersion
  let row := match db.schwabConnections.get? userId with
    | none => excluded
    | some stored => setExcluded stored excluded
  .ok (storeConnection db row)

/-- `decrypt_field(...).decode("utf-8")`. -/
def decryptText (ciphertext nonce dek : Bytes) (associatedData : String) :
    Except Raised String :=
  match keys.decryptField ciphertext nonce dek associatedData with
  | none => .error .invalidTag
  | some text => .ok text

def readToken (text : String) : Except Raised JsonValue :=
  match pydantic.validateJson text with
  | none => .error .validationError
  | some token => .ok token

/-- What `read_connection` makes of a row. -/
def readRow (db : Database) (userId : Uuid) (row : SchwabConnection) :
    Except Raised ConnectionRecord := do
  let dek ← dekForVersion keys (connectionDataKeyMissing userId row.keyVersion) db userId
    row.keyVersion
  let accountHash ← decryptText keys row.accountHashCiphertext row.accountHashNonce dek
    (connectionAssociatedData "account_hash_ciphertext" userId)
  let tokenText ← decryptText keys row.tokenCiphertext row.tokenNonce dek
    (connectionAssociatedData "token_ciphertext" userId)
  let token ← readToken pydantic tokenText
  .ok { userId := userId
        accountHash := accountHash
        token := token
        tokenCreatedAt := row.tokenCreatedAt
        lastSyncedAt := row.lastSyncedAt
        reauthNotifiedAt := row.reauthNotifiedAt
        keyVersion := row.keyVersion }

def readConnection (userId : Uuid) (db : Database) : Except Raised (Option ConnectionRecord) :=
  match db.schwabConnections.get? userId with
  | none => .ok none
  | some row => (readRow keys pydantic db userId row).map some

/-! ## `schwab_client_for_user` -/

structure TokenHolder where
  token : JsonValue
  wrote : Bool

def TokenHolder.write (_ : TokenHolder) (token : JsonValue) : TokenHolder := ⟨token, true⟩

/-- The wrapper `schwab-py` exchanges with its read and write functions. -/
def wrapToken (creationTimestamp : Int) (token : JsonValue) : JsonValue :=
  .object [("creation_timestamp", .int creationTimestamp), ("token", token)]

/-- `WrappedToken.token`, of a value that has one. -/
def wrappedToken : JsonValue → Option JsonValue
  | .object fields => JsonValue.field fields "token"
  | _ => none

/-- `_WRAPPED_TOKEN.validate_python(...).token`. -/
def validateWrappedToken : JsonValue → Option JsonValue
  | .object fields => do
      let _ ← (JsonValue.field fields "creation_timestamp").bind pydantic.integer
      JsonValue.field fields "token"
  | _ => none

/-- From the second lock to the holder: the token is read again, and the
creation time is handed on in whole seconds. -/
def openHolder (userId : Uuid) (db : Database) : Except Raised TokenHolder := do
  match ← readConnection keys pydantic userId db with
  | none => .error (.connectionNotFound ("No schwab_connections row for user_id=" ++ userId.text ++
      " -- nothing to build a client from."))
  | some connection =>
      .ok ⟨wrapToken (connection.tokenCreatedAt.tdiv 1000000) connection.token, false⟩

def setToken (row : SchwabConnection) (tokenCiphertext tokenNonce : Bytes) (keyVersion : Int) :
    SchwabConnection :=
  { row with tokenCiphertext := tokenCiphertext, tokenNonce := tokenNonce, keyVersion := keyVersion }

/-- After the body returned: what the vendor wrote is persisted, and
`token_created_at` is left alone. -/
def writeBack (nonce : Bytes) (userId : Uuid) (holder : TokenHolder) (db : Database) :
    Except Raised Database :=
  if holder.wrote then
    match validateWrappedToken pydantic holder.token with
    | none => .error .validationError
    | some token => do
        let (dek, keyVersion) ← currentDek keys db userId
        match db.schwabConnections.get? userId with
        | none => .ok db
        | some row =>
            let tokenCiphertext := encryptToken keys userId dek nonce token
            .ok (storeConnection db (setToken row tokenCiphertext nonce keyVersion))
  else .ok db

/-- `.values(last_synced_at=started_at)`. -/
def stampSynced (userId : Uuid) (startedAt : Instant) (db : Database) : Database :=
  match db.schwabConnections.get? userId with
  | none => db
  | some row => storeConnection db { row with lastSyncedAt := some startedAt }

/-! ## What the writes leave behind -/

/-- A token that comes back from the parser as it was written. -/
structure StorableToken where
  value : JsonValue
  reads_back : pydantic.validateJson (jsonDumps value) = some value

theorem store_connection_get (db : Database) (row : SchwabConnection) (userId : Uuid) :
    (storeConnection db row).schwabConnections.get? userId =
      if row.userId = userId then some row else db.schwabConnections.get? userId :=
  put_get _ _ _

theorem connection_get_owner (db : Database) (userId : Uuid) (row : SchwabConnection)
    (stored : db.schwabConnections.get? userId = some row) : row.userId = userId :=
  ((get_eq_some_iff _ _ _).mp stored).2

/-- The row holds an account and a token, both under the key it is stamped
with. -/
structure RowHolds (userId : Uuid) (dek : Bytes) (keyVersion : Int) (row : SchwabConnection)
    (accountHash : String) (token : JsonValue) : Prop where
  owner : row.userId = userId
  version : row.keyVersion = keyVersion
  token : row.tokenCiphertext = encryptToken keys userId dek row.tokenNonce token
  accountHash : row.accountHashCiphertext =
    encryptAccountHash keys userId dek row.accountHashNonce accountHash

def recordOf (userId : Uuid) (row : SchwabConnection) (accountHash : String) (token : JsonValue) :
    ConnectionRecord where
  userId := userId
  accountHash := accountHash
  token := token
  tokenCreatedAt := row.tokenCreatedAt
  lastSyncedAt := row.lastSyncedAt
  reauthNotifiedAt := row.reauthNotifiedAt
  keyVersion := row.keyVersion

/-- A row under a stored key is read back, if the parser reads what
`json.dumps` wrote. -/
theorem read_row_under (db : Database) (userId : Uuid) (row : SchwabConnection) (dek : Bytes)
    (keyVersion : Int) (accountHash : String) (token : JsonValue)
    (found : dekForVersion keys (connectionDataKeyMissing userId keyVersion) db userId keyVersion =
      .ok dek)
    (holds : RowHolds keys userId dek keyVersion row accountHash token)
    (readsBack : pydantic.validateJson (jsonDumps token) = some token) :
    readRow keys pydantic db userId row = .ok (recordOf userId row accountHash token) := by
  simp only [readRow, holds.version, found, holds.token, holds.accountHash, bind, Except.bind,
    decryptText, encryptToken, encryptAccountHash, keys.decrypt_encrypt, readToken, readsBack,
    recordOf]

theorem read_row_of_holds (db : Database) (userId : Uuid) (row : SchwabConnection) (dek : Bytes)
    (keyVersion : Int) (accountHash : String) (token : JsonValue)
    (current : currentDek keys db userId = .ok (dek, keyVersion))
    (holds : RowHolds keys userId dek keyVersion row accountHash token)
    (readsBack : pydantic.validateJson (jsonDumps token) = some token) :
    readRow keys pydantic db userId row = .ok (recordOf userId row accountHash token) := by
  have found := dek_for_current_version keys (connectionDataKeyMissing userId keyVersion) db userId
    dek keyVersion current
  exact read_row_under keys pydantic db userId row dek keyVersion accountHash token found holds
    readsBack

theorem read_connection_ok (userId : Uuid) (db : Database) (record : ConnectionRecord)
    (read : readConnection keys pydantic userId db = .ok (some record)) :
    ∃ row, db.schwabConnections.get? userId = some row ∧
      readRow keys pydantic db userId row = .ok record := by
  unfold readConnection at read
  cases found : db.schwabConnections.get? userId with
  | none => simp [found] at read
  | some row =>
      refine ⟨row, rfl, ?_⟩
      simp only [found] at read
      cases outcome : readRow keys pydantic db userId row with
      | error raised => simp [outcome, Except.map] at read
      | ok other =>
          simp only [outcome, Except.map, Except.ok.injEq, Option.some.injEq] at read
          exact congrArg Except.ok read

/-- The record of a row keeps its plain columns. -/
theorem read_row_columns (db : Database) (userId : Uuid) (row : SchwabConnection)
    (record : ConnectionRecord) (read : readRow keys pydantic db userId row = .ok record) :
    record = recordOf userId row record.accountHash record.token := by
  obtain ⟨dek, _, read⟩ := bind_ok _ _ _ read
  obtain ⟨accountHash, _, read⟩ := bind_ok _ _ _ read
  obtain ⟨tokenText, _, read⟩ := bind_ok _ _ _ read
  obtain ⟨token, _, read⟩ := bind_ok _ _ _ read
  cases read
  rfl

theorem read_row_account_hash (db : Database) (userId : Uuid) (row : SchwabConnection)
    (dek : Bytes) (keyVersion : Int) (accountHash : String) (token : JsonValue)
    (record : ConnectionRecord) (current : currentDek keys db userId = .ok (dek, keyVersion))
    (holds : RowHolds keys userId dek keyVersion row accountHash token)
    (read : readRow keys pydantic db userId row = .ok record) :
    record.accountHash = accountHash := by
  have found := dek_for_current_version keys (connectionDataKeyMissing userId keyVersion) db userId
    dek keyVersion current
  obtain ⟨opened, unwrapped, read⟩ := bind_ok _ _ _ read
  rw [holds.version, found] at unwrapped
  cases unwrapped
  obtain ⟨text, decrypted, read⟩ := bind_ok _ _ _ read
  rw [holds.accountHash] at decrypted
  simp only [decryptText, encryptAccountHash, keys.decrypt_encrypt, Except.ok.injEq] at decrypted
  obtain ⟨_, _, read⟩ := bind_ok _ _ _ read
  obtain ⟨_, _, read⟩ := bind_ok _ _ _ read
  cases read
  exact decrypted.symm

/-- The token a row decrypts and parses to. -/
def storedToken (db : Database) (userId : Uuid) (row : SchwabConnection) :
    Except Raised JsonValue := do
  let dek ← dekForVersion keys (connectionDataKeyMissing userId row.keyVersion) db userId
    row.keyVersion
  let tokenText ← decryptText keys row.tokenCiphertext row.tokenNonce dek
    (connectionAssociatedData "token_ciphertext" userId)
  readToken pydantic tokenText

theorem read_row_token (db : Database) (userId : Uuid) (row : SchwabConnection)
    (record : ConnectionRecord) (read : readRow keys pydantic db userId row = .ok record) :
    storedToken keys pydantic db userId row = .ok record.token := by
  obtain ⟨dek, opened, read⟩ := bind_ok _ _ _ read
  obtain ⟨accountHash, _, read⟩ := bind_ok _ _ _ read
  obtain ⟨tokenText, decrypted, read⟩ := bind_ok _ _ _ read
  obtain ⟨token, parsed, read⟩ := bind_ok _ _ _ read
  cases read
  simp only [storedToken, opened, decrypted, parsed, bind, Except.bind]

/-- A token encrypted under the current key is what the row holds. -/
theorem stored_token_of_encrypted (db : Database) (userId : Uuid) (row : SchwabConnection)
    (dek : Bytes) (keyVersion : Int) (token : JsonValue)
    (current : currentDek keys db userId = .ok (dek, keyVersion))
    (readsBack : pydantic.validateJson (jsonDumps token) = some token)
    (version : row.keyVersion = keyVersion)
    (ciphertext : row.tokenCiphertext = encryptToken keys userId dek row.tokenNonce token) :
    storedToken keys pydantic db userId row = .ok token := by
  have found := dek_for_current_version keys (connectionDataKeyMissing userId keyVersion) db userId
    dek keyVersion current
  simp only [storedToken, version, found, ciphertext, bind, Except.bind, decryptText,
    encryptToken, keys.decrypt_encrypt, readToken, readsBack]

/-- The account hash the stored row decrypts to. -/
def storedAccountHash (userId : Uuid) (db : Database) : Option String := do
  let row ← db.schwabConnections.get? userId
  let dek ← (dekForVersion keys (connectionDataKeyMissing userId row.keyVersion) db userId
    row.keyVersion).toOption
  (decryptText keys row.accountHashCiphertext row.accountHashNonce dek
    (connectionAssociatedData "account_hash_ciphertext" userId)).toOption

def storedLastSyncedAt (userId : Uuid) (db : Database) : Option Instant :=
  (db.schwabConnections.get? userId).bind SchwabConnection.lastSyncedAt

theorem stored_last_synced_at_store (db : Database) (row : SchwabConnection) (userId : Uuid)
    (owner : row.userId = userId) :
    storedLastSyncedAt userId (storeConnection db row) = row.lastSyncedAt := by
  rw [storedLastSyncedAt, store_connection_get, if_pos owner]
  rfl

theorem stored_account_hash_of_holds (db : Database) (userId : Uuid) (row : SchwabConnection)
    (dek : Bytes) (keyVersion : Int) (accountHash : String) (token : JsonValue)
    (stored : db.schwabConnections.get? userId = some row)
    (current : currentDek keys db userId = .ok (dek, keyVersion))
    (holds : RowHolds keys userId dek keyVersion row accountHash token) :
    storedAccountHash keys userId db = some accountHash := by
  have found := dek_for_current_version keys (connectionDataKeyMissing userId keyVersion) db userId
    dek keyVersion current
  simp only [storedAccountHash, stored, bind, Option.bind_some, holds.version, found,
    holds.accountHash, decryptText, encryptAccountHash, keys.decrypt_encrypt, Except.toOption]

theorem set_token_holds (userId : Uuid) (dek nonce : Bytes) (keyVersion : Int)
    (row : SchwabConnection) (accountHash : String) (old token : JsonValue)
    (holds : RowHolds keys userId dek keyVersion row accountHash old) :
    RowHolds keys userId dek keyVersion
      (setToken row (encryptToken keys userId dek nonce token) nonce keyVersion) accountHash
      token :=
  ⟨holds.owner, rfl, rfl, holds.accountHash⟩

/-- The version of the row an upsert leaves: the exchanged grant and the
account under the current key, the sync time as it was. -/
structure Upserted (userId : Uuid) (exchangedToken : ExchangedToken) (accountHash : String)
    (db : Database) (dek : Bytes) (keyVersion : Int) (row : SchwabConnection) : Prop where
  current : currentDek keys db userId = .ok (dek, keyVersion)
  holds : RowHolds keys userId dek keyVersion row accountHash exchangedToken.token
  createdAt : row.tokenCreatedAt = exchangedToken.createdAt
  synced : row.lastSyncedAt =
    (db.schwabConnections.get? userId).bind SchwabConnection.lastSyncedAt

theorem upsert_connection_ok (draw : UpsertDraw) (userId : Uuid)
    (exchangedToken : ExchangedToken) (accountHash : String) (db after : Database)
    (ran : upsertConnection keys draw userId exchangedToken accountHash db = .ok after) :
    ∃ dek keyVersion row, after = storeConnection db row ∧
      Upserted keys userId exchangedToken accountHash db dek keyVersion row := by
  obtain ⟨⟨dek, keyVersion⟩, current, ran⟩ := bind_ok _ _ _ ran
  cases stored : db.schwabConnections.get? userId with
  | none =>
      simp only [stored, Except.ok.injEq] at ran
      exact ⟨dek, keyVersion, _, ran.symm, current, ⟨rfl, rfl, rfl, rfl⟩, rfl, by
        rw [stored]; rfl⟩
  | some row =>
      simp only [stored, Except.ok.injEq] at ran
      have owner := ((get_eq_some_iff _ _ _).mp stored).2
      exact ⟨dek, keyVersion, _, ran.symm, current, ⟨owner, rfl, rfl, rfl⟩, rfl, by
        rw [stored]; rfl⟩

/-- A write-back that ran either had nothing to write, found no row, or put
the vendor's token into the row under the current key. -/
theorem write_back_ok (nonce : Bytes) (userId : Uuid) (holder : TokenHolder)
    (db after : Database) (row : SchwabConnection)
    (stored : db.schwabConnections.get? userId = some row)
    (ran : writeBack keys pydantic nonce userId holder db = .ok after) :
    (holder.wrote = false ∧ after = db) ∨
      ∃ token dek keyVersion, holder.wrote = true ∧
        validateWrappedToken pydantic holder.token = some token ∧
        currentDek keys db userId = .ok (dek, keyVersion) ∧
        after = storeConnection db
          (setToken row (encryptToken keys userId dek nonce token) nonce keyVersion) := by
  unfold writeBack at ran
  cases wrote : holder.wrote with
  | false =>
      simp only [wrote, Bool.false_eq_true, if_false, Except.ok.injEq] at ran
      exact Or.inl ⟨rfl, ran.symm⟩
  | true =>
      right
      simp only [wrote, if_true] at ran
      cases validated : validateWrappedToken pydantic holder.token with
      | none => simp [validated] at ran
      | some token =>
          cases current : currentDek keys db userId with
          | error raised => simp [validated, current, bind, Except.bind] at ran
          | ok found =>
              simp only [validated, current, bind, Except.bind, stored, Except.ok.injEq] at ran
              exact ⟨token, found.1, found.2, rfl, rfl, rfl, ran.symm⟩

/-- A write-back keeps the account, the creation time and the sync time. -/
theorem write_back_holds (nonce : Bytes) (userId : Uuid) (holder : TokenHolder)
    (db after : Database) (row : SchwabConnection) (dek : Bytes) (keyVersion : Int)
    (accountHash : String) (token : JsonValue)
    (stored : db.schwabConnections.get? userId = some row)
    (current : currentDek keys db userId = .ok (dek, keyVersion))
    (holds : RowHolds keys userId dek keyVersion row accountHash token)
    (ran : writeBack keys pydantic nonce userId holder db = .ok after) :
    after.userDataKeys = db.userDataKeys ∧
      ∃ row' token', after.schwabConnections.get? userId = some row' ∧
        RowHolds keys userId dek keyVersion row' accountHash token' ∧
        row'.tokenCreatedAt = row.tokenCreatedAt ∧ row'.lastSyncedAt = row.lastSyncedAt := by
  cases write_back_ok keys pydantic nonce userId holder db after row stored ran with
  | inl kept =>
      obtain ⟨_, same⟩ := kept
      subst same
      exact ⟨rfl, row, token, stored, holds, rfl, rfl⟩
  | inr wrote =>
      obtain ⟨new, dek', keyVersion', _, _, current', shape⟩ := wrote
      rw [current] at current'
      cases current'
      subst shape
      refine ⟨rfl, _, new, ?_, set_token_holds keys userId dek nonce keyVersion row accountHash
        token new holds, rfl, rfl⟩
      rw [store_connection_get]
      exact if_pos holds.owner

theorem stamp_synced_get (userId : Uuid) (startedAt : Instant) (db : Database)
    (row : SchwabConnection) (stored : db.schwabConnections.get? userId = some row) :
    (stampSynced userId startedAt db).schwabConnections.get? userId =
      some { row with lastSyncedAt := some startedAt } := by
  have owner := ((get_eq_some_iff _ _ _).mp stored).2
  unfold stampSynced
  simp only [stored]
  rw [store_connection_get]
  exact if_pos owner

theorem stamp_synced_frame (userId : Uuid) (startedAt : Instant) (db : Database) :
    stampSynced userId startedAt db =
      { db with schwabConnections := (stampSynced userId startedAt db).schwabConnections } := by
  unfold stampSynced storeConnection
  cases db.schwabConnections.get? userId <;> rfl

theorem wrapped_token_wrap (creationTimestamp : Int) (token : JsonValue) :
    wrappedToken (wrapToken creationTimestamp token) = some token := by
  simp [wrappedToken, wrapToken, JsonValue.field]

theorem validate_wrapped_token_eq (value token : JsonValue)
    (validated : validateWrappedToken pydantic value = some token) :
    wrappedToken value = some token := by
  cases value with
  | object fields =>
      obtain ⟨_, _, found⟩ := Option.bind_eq_some_iff.mp validated
      exact found
  | _ => simp [validateWrappedToken] at validated

theorem open_holder_ok (userId : Uuid) (db : Database) (holder : TokenHolder)
    (ran : openHolder keys pydantic userId db = .ok holder) :
    ∃ record, readConnection keys pydantic userId db = .ok (some record) ∧
      wrappedToken holder.token = some record.token ∧ holder.wrote = false := by
  unfold openHolder at ran
  cases read : readConnection keys pydantic userId db with
  | error raised => simp [read, bind, Except.bind] at ran
  | ok found =>
      cases found with
      | none => simp [read, bind, Except.bind] at ran
      | some record =>
          simp only [read, bind, Except.bind, Except.ok.injEq] at ran
          rw [← ran]
          exact ⟨record, rfl, wrapped_token_wrap _ _, rfl⟩

end Morai.Vendor.Connections
