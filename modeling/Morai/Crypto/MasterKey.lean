import Morai.Crypto.Rotation
import Morai.Python.Base64

/-!
# The master key as it is configured

The settings and the rotation tool read the same texts: strict base64 of 32
bytes, of which the last character holds two bits too many. The tool changes
nothing unless both its keys can be read and every data key opens under the
old one.
-/

namespace Morai.Crypto.MasterKey

open Morai.Crypto.Rotation Morai.Db Morai.Python Morai.Python.Base64 Morai.Foundation.PrimaryKey

set_option autoImplicit false

/-! ## `Settings.master_key_bytes` -/

def masterKeyMissing : String :=
  "Configuration rejected. `morai_master_key` is required to " ++
    "unwrap any user's data key, and is withheld deliberately " ++
    "even when present -- values are never rendered (NN-34)."

def masterKeyMalformed : String :=
  "Configuration rejected. `morai_master_key` must be base64 " ++
    "of exactly 32 bytes for AES-256-GCM; its value is withheld " ++
    "deliberately (NN-34)."

/-- The 32 bytes a text is read as, here and in the rotation tool. -/
def decodedKey (text : String) : Option Bytes :=
  (b64decode text).filter fun decoded => decoded.length = 32

/-- The error is the text of the `RuntimeError`. -/
def masterKeyBytes (moraiMasterKey : Option String) : Except String Bytes :=
  match moraiMasterKey with
  | none => .error masterKeyMissing
  | some text =>
      match decodedKey text with
      | none => .error masterKeyMalformed
      | some decoded => .ok decoded

/-! ## `tools/rotate_kek.py` -/

/-- The error is the line on stderr; the exit code is 2. -/
def decodeKey (raw label : String) : Except String Bytes :=
  match decodedKey raw with
  | none =>
      .error ("rotate_kek: " ++ label ++ " must be base64 of exactly 32 bytes for " ++
        "AES-256-GCM; its value is withheld deliberately (NN-34)")
  | some decoded => .ok decoded

inductive Exit where
  | code (status : Nat) (line : String)
  | raised (raised : Raised)
  deriving DecidableEq, Repr

section Tool

variable (envelope : Envelope) (nonces : Nat → Bytes)

/-- `_run`: what `rotate_kek` flushed is committed, unless it raised. -/
def run (oldKek newKek : Bytes) (db : Database) :
    Except Raised Nat × KeyedTable UserDataKey.primaryKey :=
  match rotateKek envelope oldKek newKek nonces db with
  | (.ok count, session) => (.ok count, session.stored)
  | (.error raised, _) => (.error raised, db.userDataKeys)

def bothRequired : String :=
  "rotate_kek: both --old-key and --new-key (or OLD_MASTER_KEY / " ++
    "NEW_MASTER_KEY) are required"

/-- How the tool ends, and the key table it leaves. -/
def main (oldKey newKey : Option String) (db : Database) :
    Exit × KeyedTable UserDataKey.primaryKey :=
  match oldKey.filter (· ≠ ""), newKey.filter (· ≠ "") with
  | some oldText, some newText =>
      match decodeKey oldText "the old key" with
      | .error line => (.code 2 line, db.userDataKeys)
      | .ok oldKek =>
          match decodeKey newText "the new key" with
          | .error line => (.code 2 line, db.userDataKeys)
          | .ok newKek =>
              match run envelope nonces oldKek newKek db with
              | (.ok count, table) =>
                  (.code 0 ("rotate_kek: re-wrapped " ++ toString count ++ " data key(s)"), table)
              | (.error raised, table) => (.raised raised, table)
  | _, _ => (.code 2 bothRequired, db.userDataKeys)

end Tool

/-! ## The texts of one key -/

theorem decoded_key_iff (text : String) (key : Bytes) :
    decodedKey text = some key ↔ key.length = 32 ∧ text.toList ∈ spellings key := by
  unfold decodedKey
  rw [Option.filter_eq_some_iff, b64decode_iff, decide_eq_true_eq]
  exact And.comm

theorem decode_key_iff (raw label : String) (key : Bytes) :
    decodeKey raw label = .ok key ↔ decodedKey raw = some key := by
  unfold decodeKey
  cases decodedKey raw with
  | none => simp
  | some decoded => simp

theorem master_key_bytes_iff (text : String) (key : Bytes) :
    masterKeyBytes (some text) = .ok key ↔ decodedKey text = some key := by
  unfold masterKeyBytes
  dsimp only
  cases decodedKey text with
  | none => simp
  | some decoded => simp

/-- A key of 32 bytes has exactly four texts that are read as it, in the
settings and in the rotation tool alike; no text is read as a key of any other
length. -/
theorem master_key_texts (key : Bytes) :
    ∃ texts : List (List Char), texts.Nodup ∧
      texts.length = (if key.length = 32 then 4 else 0) ∧
      ∀ text : String, (masterKeyBytes (some text) = .ok key ↔ text.toList ∈ texts) ∧
        ∀ label, decodeKey text label = .ok key ↔ text.toList ∈ texts := by
  by_cases sized : key.length = 32
  · refine ⟨spellings key, spellings_nodup key, ?_, fun text => ?_⟩
    · rw [spellings_length, sized]
      decide
    · have listed : decodedKey text = some key ↔ text.toList ∈ spellings key := by
        rw [decoded_key_iff, and_iff_right sized]
      exact ⟨(master_key_bytes_iff text key).trans listed,
        fun label => (decode_key_iff text label key).trans listed⟩
  · refine ⟨[], List.nodup_nil, by simp [sized], fun text => ?_⟩
    have unread : decodedKey text = some key ↔ text.toList ∈ [] := by
      rw [decoded_key_iff]
      simp [sized]
    exact ⟨(master_key_bytes_iff text key).trans unread,
      fun label => (decode_key_iff text label key).trans unread⟩

/-! ## What the tool leaves -/

section Tool

variable (envelope : Envelope) (nonces : Nat → Bytes)

/-- The data key of the row under `wanted`, opened under the master key. -/
def openedAt (kek : Bytes) (table : KeyedTable UserDataKey.primaryKey)
    (wanted : Uuid × Int) : Option (Option Bytes) :=
  (table.get? wanted).map fun row => envelope.unwrapDek row.wrappedDek row.wrapNonce kek

/-- Both texts are read as keys and every row opens under the old one. -/
def CanRotate (oldKey newKey : Option String) (db : Database) (oldKek newKek : Bytes) : Prop :=
  masterKeyBytes oldKey = .ok oldKek ∧ masterKeyBytes newKey = .ok newKek ∧
    ∀ row ∈ db.userDataKeys.rows, ∃ dek,
      envelope.unwrapDek row.wrappedDek row.wrapNonce oldKek = some dek

/-- Rotated, the table keeps the same data key under each key. -/
theorem run_rotates (oldKek newKek : Bytes) (db : Database)
    (opens : ∀ row ∈ db.userDataKeys.rows, ∃ dek,
      envelope.unwrapDek row.wrappedDek row.wrapNonce oldKek = some dek) :
    ∃ table, run envelope nonces oldKek newKek db = (.ok db.userDataKeys.rows.length, table) ∧
      ∀ wanted, openedAt envelope newKek table wanted =
        openedAt envelope oldKek db.userDataKeys wanted := by
  obtain ⟨count, session, ran⟩ :=
    (rotate_kek_ok_iff envelope oldKek newKek nonces db).mpr opens
  obtain ⟨counted, absent, rewrote⟩ :=
    rotate_kek_returned envelope oldKek newKek nonces db count session ran
  refine ⟨session.stored, ?_, fun wanted => ?_⟩
  · unfold run
    rw [ran, counted]
  · unfold openedAt
    cases found : db.userDataKeys.get? wanted with
    | none => rw [absent wanted ((get_eq_none_iff _ _).mp found), Option.map_none, Option.map_none]
    | some row =>
        obtain ⟨member, keyed⟩ := (get_eq_some_iff _ _ _).mp found
        obtain ⟨next, ⟨dek, wrapNonce, opened, shape⟩, stored⟩ := rewrote row member
        rw [← keyed, stored, Option.map_some, Option.map_some, opened, shape]
        exact congrArg some (envelope.unwrap_wrap dek newKek wrapNonce)

/-- A row that does not open leaves the table as it was. -/
theorem run_refused (oldKek newKek : Bytes) (db : Database)
    (closed : ¬∀ row ∈ db.userDataKeys.rows, ∃ dek,
      envelope.unwrapDek row.wrappedDek row.wrapNonce oldKek = some dek) :
    ∃ raised, run envelope nonces oldKek newKek db = (.error raised, db.userDataKeys) := by
  cases ran : rotateKek envelope oldKek newKek nonces db with
  | mk outcome session =>
      cases outcome with
      | ok count =>
          exact absurd ((rotate_kek_ok_iff envelope oldKek newKek nonces db).mp ⟨_, _, ran⟩) closed
      | error raised =>
          refine ⟨raised, ?_⟩
          unfold run
          rw [ran]

theorem read_text (key : Option String) (kek : Bytes) (read : masterKeyBytes key = .ok kek) :
    ∃ text, key.filter (· ≠ "") = some text ∧ decodedKey text = some kek := by
  cases key with
  | none => cases read
  | some text =>
      have decoded := (master_key_bytes_iff text kek).mp read
      have blank : decodedKey "" = none := by decide
      have filled : text ≠ "" := by
        intro empty
        rw [empty, blank] at decoded
        cases decoded
      exact ⟨text, by simp [filled], decoded⟩

/-- What the tool does when it does not stop at a text. -/
theorem main_eq_run (oldKey newKey : Option String) (db : Database) (oldKek newKek : Bytes)
    (oldRead : masterKeyBytes oldKey = .ok oldKek)
    (newRead : masterKeyBytes newKey = .ok newKek) :
    main envelope nonces oldKey newKey db =
      match run envelope nonces oldKek newKek db with
      | (.ok count, table) =>
          (.code 0 ("rotate_kek: re-wrapped " ++ toString count ++ " data key(s)"), table)
      | (.error raised, table) => (.raised raised, table) := by
  obtain ⟨oldText, oldGiven, oldDecoded⟩ := read_text oldKey oldKek oldRead
  obtain ⟨newText, newGiven, newDecoded⟩ := read_text newKey newKek newRead
  unfold main
  rw [oldGiven, newGiven]
  dsimp only
  rw [(decode_key_iff oldText _ oldKek).mpr oldDecoded]
  dsimp only
  rw [(decode_key_iff newText _ newKek).mpr newDecoded]

theorem decoded_read (key : Option String) (text label : String) (kek : Bytes)
    (given : key.filter (· ≠ "") = some text) (read : decodeKey text label = .ok kek) :
    masterKeyBytes key = .ok kek := by
  have decoded := (decode_key_iff text label kek).mp read
  rw [(Option.filter_eq_some_iff.mp given).1]
  exact (master_key_bytes_iff text kek).mpr decoded

/-- The tool stops with code 2 before it opens a session, or both texts are
read as keys. -/
theorem main_stops_or_reads (oldKey newKey : Option String) (db : Database) :
    (∃ line, main envelope nonces oldKey newKey db = (.code 2 line, db.userDataKeys)) ∨
      ∃ oldKek newKek, masterKeyBytes oldKey = .ok oldKek ∧ masterKeyBytes newKey = .ok newKek := by
  unfold main
  cases oldGiven : oldKey.filter (· ≠ "") with
  | none => exact Or.inl ⟨_, rfl⟩
  | some oldText =>
      cases newGiven : newKey.filter (· ≠ "") with
      | none => exact Or.inl ⟨_, rfl⟩
      | some newText =>
          dsimp only
          cases oldRead : decodeKey oldText "the old key" with
          | error line => exact Or.inl ⟨line, rfl⟩
          | ok oldKek =>
              dsimp only
              cases newRead : decodeKey newText "the new key" with
              | error line => exact Or.inl ⟨line, rfl⟩
              | ok newKek =>
                  exact Or.inr ⟨oldKek, newKek, decoded_read oldKey oldText _ oldKek oldGiven oldRead,
                    decoded_read newKey newText _ newKek newGiven newRead⟩

/-- The tool ends with code 0 exactly when both texts are read as keys and
every row opens under the old one; then each key holds the same data key,
now under the new master key. In every other case the table is unchanged. -/
theorem rotation_tool_all_or_nothing (oldKey newKey : Option String) (db : Database) :
    (∃ oldKek newKek table, CanRotate envelope oldKey newKey db oldKek newKek ∧
        main envelope nonces oldKey newKey db =
          (.code 0 ("rotate_kek: re-wrapped " ++ toString db.userDataKeys.rows.length ++
            " data key(s)"), table) ∧
        ∀ wanted, openedAt envelope newKek table wanted =
          openedAt envelope oldKek db.userDataKeys wanted) ∨
      ((∀ oldKek newKek, ¬CanRotate envelope oldKey newKey db oldKek newKek) ∧
        ∃ exit, main envelope nonces oldKey newKey db = (exit, db.userDataKeys) ∧
          ∀ line, exit ≠ .code 0 line) := by
  by_cases able : ∃ oldKek newKek, CanRotate envelope oldKey newKey db oldKek newKek
  · obtain ⟨oldKek, newKek, oldRead, newRead, opens⟩ := able
    obtain ⟨table, ran, kept⟩ := run_rotates envelope nonces oldKek newKek db opens
    refine Or.inl ⟨oldKek, newKek, table, ⟨oldRead, newRead, opens⟩, ?_, kept⟩
    rw [main_eq_run envelope nonces oldKey newKey db oldKek newKek oldRead newRead, ran]
  · refine Or.inr ⟨fun oldKek newKek can => able ⟨oldKek, newKek, can⟩, ?_⟩
    cases main_stops_or_reads envelope nonces oldKey newKey db with
    | inl stopped =>
        obtain ⟨line, ended⟩ := stopped
        exact ⟨_, ended, fun _ same => by cases same⟩
    | inr reads =>
        obtain ⟨oldKek, newKek, oldRead, newRead⟩ := reads
        obtain ⟨raised, ran⟩ := run_refused envelope nonces oldKek newKek db
          fun opens => able ⟨oldKek, newKek, oldRead, newRead, opens⟩
        refine ⟨.raised raised, ?_, fun _ same => by cases same⟩
        rw [main_eq_run envelope nonces oldKey newKey db oldKek newKek oldRead newRead, ran]

end Tool

end Morai.Crypto.MasterKey
