import Morai.Ingest.SyncUser

/-!
# What the token write-back leaves as it was

A connection row has two ciphertexts and one `key_version`. The write-back of
`schwab_client_for_user` encrypts the token under the user's current key and
stamps that key's version on the row; the account hash stays under the key it
was written with.
-/

namespace Morai.Vendor.WriteBack

open Morai.Crypto Morai.Db Morai.Python Morai.Foundation.PrimaryKey Morai.Vendor.Connections
  Morai.Ingest.SyncUser Morai.Ingest.SyncWindows

set_option autoImplicit false

variable (keys : KeyService) (pydantic : Pydantic)

/-- The code inside `async with`: the tokens its client wrote into the holder,
in order, and the database it leaves. -/
abbrev ClientBody := TokenHolder → Database → Except Raised (List JsonValue × Database)

/-- The body leaves the connections and the data keys alone. -/
def ClientBody.LeavesRow (body : ClientBody) : Prop :=
  ∀ holder db written after, body holder db = .ok (written, after) →
    after.schwabConnections = db.schwabConnections ∧ after.userDataKeys = db.userDataKeys

def writeTokens (holder : TokenHolder) (written : List JsonValue) : TokenHolder :=
  written.foldl TokenHolder.write holder

def schwabClientForUser (nonce : Bytes) (userId : Uuid)
    (buildClient : JsonValue → Except Raised Unit) (body : ClientBody) (db : Database) :
    Except Raised Database := do
  let holder ← openHolder keys pydantic userId db
  buildClient holder.token
  let (written, db) ← body holder db
  writeBack keys pydantic nonce userId (writeTokens holder written) db

/-- The token the user is left with: the last one the vendor wrote, or the old
one. -/
def lastToken (old : JsonValue) (written : List JsonValue) : Option JsonValue :=
  match written.getLast? with
  | none => some old
  | some value => validateWrappedToken pydantic value

/-- What the vendor wrote last is a wrapped token that the parser reads
back. -/
def WritesTokens (written : List JsonValue) : Prop :=
  ∀ value, written.getLast? = some value →
    ∃ token : StorableToken pydantic, validateWrappedToken pydantic value = some token.value

/-- The user's current key is the key the row was written under. -/
def CurrentKeyOpens (userId : Uuid) (rowVersion : Int) (db : Database) : Prop :=
  ∃ dek keyVersion, currentDek keys db userId = .ok (dek, keyVersion) ∧
    dekForVersion keys (connectionDataKeyMissing userId rowVersion) db userId rowVersion = .ok dek

theorem write_tokens_nil (holder : TokenHolder) : writeTokens holder [] = holder := rfl

theorem write_tokens_concat (holder : TokenHolder) (written : List JsonValue) (value : JsonValue) :
    writeTokens holder (written ++ [value]) = ⟨value, true⟩ := by
  rw [writeTokens, List.foldl_concat]
  rfl

/-- The block of `sync_user`. -/
def syncBody (vendor : VendorRun) (draws : SyncDraws) (userId : Uuid) (accountHash : String)
    (windows : List SyncWindow) : ClientBody := fun _ db => do
  let (_, db) ← syncEach keys pydantic vendor draws userId accountHash windows.zipIdx ⟨0, 0, []⟩ db
  .ok (vendor.written.toList, db)

theorem sync_body_leaves_row (vendor : VendorRun) (draws : SyncDraws) (userId : Uuid)
    (accountHash : String) (windows : List SyncWindow) :
    (syncBody keys pydantic vendor draws userId accountHash windows).LeavesRow := by
  intro holder db written after ran
  obtain ⟨⟨outcome, middle⟩, synced, ended⟩ := bind_ok _ _ _ ran
  cases ended
  have frame := sync_each_frame keys pydantic vendor draws userId accountHash windows.zipIdx
    ⟨0, 0, []⟩ outcome db after synced
  rw [frame]
  exact ⟨rfl, rfl⟩

theorem sync_with_client_eq (vendor : VendorRun) (draws : SyncDraws) (userId : Uuid)
    (accountHash : String) (windows : List SyncWindow) (db : Database) :
    (syncWithClient keys pydantic vendor draws userId accountHash windows db).map Prod.snd =
      schwabClientForUser keys pydantic draws.token userId vendor.buildClient
        (syncBody keys pydantic vendor draws userId accountHash windows) db := by
  unfold syncWithClient schwabClientForUser syncBody
  cases openHolder keys pydantic userId db with
  | error raised => rfl
  | ok holder =>
      have held : afterVendor vendor holder = writeTokens holder vendor.written.toList := by
        unfold afterVendor
        cases vendor.written <;> rfl
      simp only [bind, Except.bind]
      cases vendor.buildClient holder.token with
      | error raised => rfl
      | ok built =>
          cases syncEach keys pydantic vendor draws userId accountHash windows.zipIdx ⟨0, 0, []⟩
              db with
          | error raised => rfl
          | ok outcome =>
              dsimp only
              rw [held]
              cases writeBack keys pydantic draws.token userId
                (writeTokens holder vendor.written.toList) outcome.2 <;> rfl

/-- The two records differ in the token and the key version at most. -/
structure SameButToken (before after : ConnectionRecord) : Prop where
  accountHash : after.accountHash = before.accountHash
  tokenCreatedAt : after.tokenCreatedAt = before.tokenCreatedAt
  lastSyncedAt : after.lastSyncedAt = before.lastSyncedAt
  reauthNotifiedAt : after.reauthNotifiedAt = before.reauthNotifiedAt

theorem read_connection_of_row (userId : Uuid) (db : Database) (row : SchwabConnection)
    (record : ConnectionRecord) (stored : db.schwabConnections.get? userId = some row)
    (read : readRow keys pydantic db userId row = .ok record) :
    readConnection keys pydantic userId db = .ok (some record) := by
  simp only [readConnection, stored, read, Except.map]

/-- Reading depends on nothing but the connections and the key table. -/
theorem read_connection_congr (userId : Uuid) (left right : Database)
    (sameConnections : left.schwabConnections = right.schwabConnections)
    (sameKeys : left.userDataKeys = right.userDataKeys) :
    readConnection keys pydantic userId left = readConnection keys pydantic userId right := by
  simp only [readConnection, readRow, dekForVersion, sameConnections, sameKeys]

/-- With the account hash of an ideal cipher, a row whose hash was encrypted
under one key is read with that key or not at all. -/
theorem read_row_opens_with (ideal : keys.toEnvelope.Ideal) (userId : Uuid) (db : Database)
    (row : SchwabConnection) (dek otherDek : Bytes) (accountHash : String)
    (record : ConnectionRecord)
    (encrypted : row.accountHashCiphertext =
      encryptAccountHash keys userId dek row.accountHashNonce accountHash)
    (found : dekForVersion keys (connectionDataKeyMissing userId row.keyVersion) db userId
      row.keyVersion = .ok otherDek)
    (read : readRow keys pydantic db userId row = .ok record) : otherDek = dek := by
  obtain ⟨opened, unwrapped, read⟩ := bind_ok _ _ _ read
  rw [found] at unwrapped
  cases unwrapped
  obtain ⟨text, decrypted, _⟩ := bind_ok _ _ _ read
  rw [encrypted] at decrypted
  unfold decryptText at decrypted
  split at decrypted
  · cases decrypted
  · rename_i plain opened
    exact (ideal.decrypt_exact _ _ _ _ _ _ _ _ opened).2.1

/-- The write-back of a token on a row that reads: it is read again, with that
token and nothing else changed, exactly when the current key is the one the
row was written under. -/
theorem write_back_reads_iff (ideal : keys.toEnvelope.Ideal) (nonce : Bytes) (userId : Uuid)
    (db : Database) (row : SchwabConnection) (dek : Bytes) (accountHash : String)
    (old : JsonValue) (value : JsonValue) (token : StorableToken pydantic)
    (stored : db.schwabConnections.get? userId = some row)
    (opens : dekForVersion keys (connectionDataKeyMissing userId row.keyVersion) db userId
      row.keyVersion = .ok dek)
    (holds : RowHolds keys userId dek row.keyVersion row accountHash old)
    (validated : validateWrappedToken pydantic value = some token.value) :
    (∃ after final, writeBack keys pydantic nonce userId ⟨value, true⟩ db = .ok after ∧
      readConnection keys pydantic userId after = .ok (some final) ∧
      SameButToken (recordOf userId row accountHash old) final ∧ final.token = token.value) ↔
      CurrentKeyOpens keys userId row.keyVersion db := by
  constructor
  · intro succeeded
    obtain ⟨after, final, ran, read, _⟩ := succeeded
    cases write_back_ok keys pydantic nonce userId ⟨value, true⟩ db after row stored ran with
    | inl kept => cases kept.1
    | inr wrote =>
        obtain ⟨written, newDek, keyVersion, _, _, current, shape⟩ := wrote
        obtain ⟨newRow, newStored, newRead⟩ := read_connection_ok keys pydantic userId after final
          read
        rw [shape, store_connection_get, if_pos (by exact holds.owner)] at newStored
        have newShape := Option.some.inj newStored
        have version : newRow.keyVersion = keyVersion := by rw [← newShape]; rfl
        have encrypted : newRow.accountHashCiphertext =
            encryptAccountHash keys userId dek newRow.accountHashNonce accountHash := by
          rw [← newShape]
          exact holds.accountHash
        have found : dekForVersion keys (connectionDataKeyMissing userId newRow.keyVersion) after
            userId newRow.keyVersion = .ok newDek := by
          rw [version, shape]
          exact dek_for_current_version keys _ db userId newDek keyVersion current
        have same := read_row_opens_with keys pydantic ideal userId after newRow dek newDek
          accountHash final encrypted found newRead
        exact ⟨newDek, keyVersion, current, same ▸ opens⟩
  · intro opensCurrent
    obtain ⟨newDek, keyVersion, current, sameKey⟩ := opensCurrent
    rw [opens] at sameKey
    cases sameKey
    have written : writeBack keys pydantic nonce userId ⟨value, true⟩ db =
        .ok (storeConnection db (setToken row (encryptToken keys userId dek nonce token.value) nonce
          keyVersion)) := by
      simp only [writeBack, if_true, validated, current, bind, Except.bind, stored]
    have newHolds : RowHolds keys userId dek keyVersion
        (setToken row (encryptToken keys userId dek nonce token.value) nonce keyVersion)
        accountHash token.value := ⟨holds.owner, rfl, rfl, holds.accountHash⟩
    have newRead := read_row_of_holds keys pydantic (storeConnection db (setToken row
      (encryptToken keys userId dek nonce token.value) nonce keyVersion)) userId _ dek keyVersion
      accountHash token.value current newHolds token.reads_back
    refine ⟨_, _, written, read_connection_of_row keys pydantic userId _ _ _ ?_ newRead, ?_, rfl⟩
    · rw [store_connection_get]
      exact if_pos holds.owner
    · exact ⟨rfl, rfl, rfl, rfl⟩

/-- A connection row that reads, and a body that returned after its client
wrote any number of tokens: the connection is read afterwards with the last
token and otherwise as before exactly when nothing was written or the user's
current key is the one the row was written under. -/
theorem client_keeps_rest_iff (ideal : keys.toEnvelope.Ideal) (nonce : Bytes) (userId : Uuid)
    (buildClient : JsonValue → Except Raised Unit) (body : ClientBody) (db middle : Database)
    (row : SchwabConnection) (dek : Bytes) (accountHash : String) (old : StorableToken pydantic)
    (holder : TokenHolder) (written : List JsonValue)
    (stored : db.schwabConnections.get? userId = some row)
    (opens : dekForVersion keys (connectionDataKeyMissing userId row.keyVersion) db userId
      row.keyVersion = .ok dek)
    (holds : RowHolds keys userId dek row.keyVersion row accountHash old.value)
    (leaves : body.LeavesRow) (opened : openHolder keys pydantic userId db = .ok holder)
    (built : buildClient holder.token = .ok ()) (ran : body holder db = .ok (written, middle))
    (wellFormed : WritesTokens pydantic written) :
    ∃ before, readConnection keys pydantic userId db = .ok (some before) ∧
      ((∃ after final, schwabClientForUser keys pydantic nonce userId buildClient body db =
          .ok after ∧
        readConnection keys pydantic userId after = .ok (some final) ∧
        SameButToken before final ∧ lastToken pydantic before.token written = some final.token) ↔
        written = [] ∨ CurrentKeyOpens keys userId row.keyVersion db) := by
  have read := read_connection_of_row keys pydantic userId db row _ stored
    (read_row_under keys pydantic db userId row dek row.keyVersion accountHash old.value opens
      holds old.reads_back)
  have frame := leaves holder db written middle ran
  have whole : schwabClientForUser keys pydantic nonce userId buildClient body db =
      writeBack keys pydantic nonce userId (writeTokens holder written) middle := by
    simp only [schwabClientForUser, opened, built, ran, bind, Except.bind]
  refine ⟨_, read, ?_⟩
  rw [whole]
  cases List.eq_nil_or_concat written with
  | inl nothing =>
      obtain ⟨_, _, _, unwritten⟩ := open_holder_ok keys pydantic userId db holder opened
      have kept : writeBack keys pydantic nonce userId (writeTokens holder written) middle =
          .ok middle := by
        rw [nothing, write_tokens_nil, writeBack, unwritten]
        rfl
      have readAfter := (read_connection_congr keys pydantic userId middle db frame.1
        frame.2).trans read
      refine iff_of_true ⟨middle, _, kept, readAfter, ⟨rfl, rfl, rfl, rfl⟩, ?_⟩ (Or.inl nothing)
      rw [nothing]
      rfl
  | inr some =>
      obtain ⟨earlier, value, shape⟩ := some
      rw [List.concat_eq_append] at shape
      have last : written.getLast? = some value := by rw [shape, List.getLast?_concat]
      obtain ⟨token, validated⟩ := wellFormed value last
      have wrote : written ≠ [] := by simp [shape]
      have sameRow : middle.schwabConnections.get? userId = some row := by rw [frame.1, stored]
      have sameOpens : dekForVersion keys (connectionDataKeyMissing userId row.keyVersion) middle
          userId row.keyVersion = .ok dek := by
        rw [dekForVersion, frame.2]
        exact opens
      have sameCurrent : CurrentKeyOpens keys userId row.keyVersion middle ↔
          CurrentKeyOpens keys userId row.keyVersion db := by
        simp only [CurrentKeyOpens, current_dek_congr keys middle db userId frame.2, dekForVersion,
          frame.2]
      have writeBackIff := write_back_reads_iff keys pydantic ideal nonce userId middle row dek
        accountHash old.value value token sameRow sameOpens holds validated
      rw [shape, write_tokens_concat, or_iff_right (by simp), ← sameCurrent, ← writeBackIff]
      have lastIs : ∀ final : ConnectionRecord,
          lastToken pydantic old.value (earlier ++ [value]) = some final.token ↔
            final.token = token.value := by
        intro final
        rw [lastToken, List.getLast?_concat]
        dsimp only
        rw [validated, Option.some.injEq, eq_comm]
      simp only [recordOf, lastIs]

def idealKeys : KeyService := idealEnvelope.under [5]

def dataKey (keyVersion : Int) (dek : Bytes) : UserDataKey :=
  ⟨⟨1⟩, keyVersion, idealEnvelope.wrapDek dek [5] [3], [3]⟩

/-- A connection written under version 1 of the user's data key. -/
def connectedUnderFirst (dataKeys : KeyedTable UserDataKey.primaryKey) : Database :=
  storeConnection { Database.empty with userDataKeys := dataKeys }
    (excludedRow idealKeys ⟨[1], [2]⟩ ⟨1⟩ ⟨.str "first", 1000000⟩ "hash" [7] 1)

def oneDataKey : Database := connectedUnderFirst ⟨[dataKey 1 [7]], by decide⟩

def twoDataKeys : Database := connectedUnderFirst ⟨[dataKey 1 [7], dataKey 2 [9]], by decide⟩

/-- A body whose client refreshes the token once. -/
def refreshOnce : ClientBody := fun _ db => .ok ([wrapToken 1 (.str "second")], db)

theorem refresh_once_leaves_row : refreshOnce.LeavesRow := by
  intro holder db written after ran
  cases ran
  exact ⟨rfl, rfl⟩

def plainToken (text : String)
    (readsBack : plainPydantic.validateJson (jsonDumps (.str text)) = some (.str text)) :
    StorableToken plainPydantic :=
  ⟨.str text, readsBack⟩

theorem client_keeps_rest_iff_one_key :
    ∃ before after final, readConnection idealKeys plainPydantic ⟨1⟩ oneDataKey =
        .ok (some before) ∧
      schwabClientForUser idealKeys plainPydantic [4] ⟨1⟩ (fun _ => .ok ()) refreshOnce oneDataKey =
        .ok after ∧
      readConnection idealKeys plainPydantic ⟨1⟩ after = .ok (some final) ∧
      SameButToken before final ∧ final.token = .str "second" := by
  have opens : dekForVersion idealKeys (connectionDataKeyMissing ⟨1⟩ 1) oneDataKey ⟨1⟩ 1 =
      .ok [7] := by decide +kernel
  obtain ⟨holder, opened, _⟩ := ok_of_any (openHolder idealKeys plainPydantic ⟨1⟩ oneDataKey)
    (fun _ => true) (by decide +kernel)
  obtain ⟨before, read, keeps⟩ := client_keeps_rest_iff idealKeys plainPydantic
    ideal_envelope_ideal [4] ⟨1⟩ (fun _ => .ok ()) refreshOnce oneDataKey oneDataKey
    (excludedRow idealKeys ⟨[1], [2]⟩ ⟨1⟩ ⟨.str "first", 1000000⟩ "hash" [7] 1) [7] "hash"
    (plainToken "first" (by decide +kernel)) holder
    [wrapToken 1 (.str "second")] (by decide +kernel) opens ⟨rfl, rfl, rfl, rfl⟩
    refresh_once_leaves_row opened rfl rfl (by
      intro value last
      cases last
      exact ⟨plainToken "second" (by decide +kernel), rfl⟩)
  obtain ⟨after, final, ran, readAfter, same, last⟩ := keeps.mpr (Or.inr
    ⟨[7], 1, by decide +kernel, opens⟩)
  exact ⟨before, after, final, read, ran, readAfter, same, (Option.some.inj last).symm⟩

/-- A second key version, and the first refresh makes the connection
unreadable. -/
theorem refresh_under_newer_key_unreadable :
    (readConnection idealKeys plainPydantic ⟨1⟩ twoDataKeys).toOption.isSome = true ∧
      ∃ after, schwabClientForUser idealKeys plainPydantic [4] ⟨1⟩ (fun _ => .ok ()) refreshOnce
          twoDataKeys = .ok after ∧
        readConnection idealKeys plainPydantic ⟨1⟩ after = .error .invalidTag := by
  constructor
  · decide +kernel
  · obtain ⟨after, ran, unreadable⟩ := ok_of_any (schwabClientForUser idealKeys plainPydantic [4]
      ⟨1⟩ (fun _ => .ok ()) refreshOnce twoDataKeys)
      (fun after => raisesOnly .invalidTag (readConnection idealKeys plainPydantic ⟨1⟩ after))
      (by decide +kernel)
    exact ⟨after, ran, Option.some.inj (some_error_of_any (some _) .invalidTag unreadable)⟩

end Morai.Vendor.WriteBack
