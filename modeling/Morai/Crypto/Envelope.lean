import Morai.Db.Models
import Morai.Python.Decimal
import Morai.Python.Timestamp

/-!
# Envelope encryption

AES-256-GCM is the `cryptography` package's; what the ledger relies on is that
a value decrypts under the key, nonce and associated data it was encrypted
with. Every plaintext and every associated-data value of this code is UTF-8
text and is modelled as that text. Nonces are arguments, so a statement about
all nonces covers whatever `os.urandom` returned.
-/

namespace Morai.Crypto

open Morai.Db Morai.Python Morai.Foundation.PrimaryKey

set_option autoImplicit false

/-- `none` from `unwrapDek` and `decryptField` is `InvalidTag`. -/
structure Envelope where
  wrapDek : (dek kek nonce : Bytes) → Bytes
  unwrapDek : (wrappedDek wrapNonce kek : Bytes) → Option Bytes
  encryptField : (plaintext : String) → (dek : Bytes) → (associatedData : String) →
    (nonce : Bytes) → Bytes
  decryptField : (ciphertext nonce dek : Bytes) → (associatedData : String) → Option String
  unwrap_wrap : ∀ dek kek nonce, unwrapDek (wrapDek dek kek nonce) nonce kek = some dek
  decrypt_encrypt : ∀ plaintext dek associatedData nonce,
    decryptField (encryptField plaintext dek associatedData nonce) nonce dek associatedData =
      some plaintext

/-- The envelope of a process together with its configured master key. -/
structure KeyService extends Envelope where
  masterKeyBytes : Bytes

/-- A process configured with this master key. -/
def Envelope.under (envelope : Envelope) (masterKeyBytes : Bytes) : KeyService :=
  { envelope with masterKeyBytes := masterKeyBytes }

/-- An ideal cipher: nothing but the key, the nonce and the associated data of
the encryption opens a ciphertext. -/
structure Envelope.Ideal (envelope : Envelope) : Prop where
  unwrap_exact : ∀ dek kek nonce wrapNonce otherKek found,
    envelope.unwrapDek (envelope.wrapDek dek kek nonce) wrapNonce otherKek = some found →
      wrapNonce = nonce ∧ otherKek = kek
  decrypt_exact : ∀ plaintext dek associatedData nonce otherNonce otherDek otherData found,
    envelope.decryptField (envelope.encryptField plaintext dek associatedData nonce) otherNonce
        otherDek otherData = some found →
      otherNonce = nonce ∧ otherDek = dek ∧ otherData = associatedData

variable (keys : KeyService)

/-- The execution time in associated data and in hashed fill ids. -/
def microsText (instant : Instant) : String := toString (timestampMicros instant)

/-- `SELECT ... WHERE user_id = :user_id`. -/
def keyRowsOf (db : Database) (userId : Uuid) : List UserDataKey :=
  db.userDataKeys.rows.filter fun row => row.userId = userId

/-- `ORDER BY key_version DESC LIMIT 1`. -/
def latestKeyRow : List UserDataKey → Option UserDataKey
  | [] => none
  | row :: rest =>
      match latestKeyRow rest with
      | none => some row
      | some later => if row.keyVersion < later.keyVersion then some later else some row

/-- `_current_dek`, the same helper in `fills.py`, `events.py`,
`broker_transactions.py` and `connections.py`: the user's data key of the
highest version, unwrapped in-process. -/
def currentDek (db : Database) (userId : Uuid) : Except Raised (Bytes × Int) :=
  match latestKeyRow (keyRowsOf db userId) with
  | none => .error .noResultFound
  | some row =>
      match keys.unwrapDek row.wrappedDek row.wrapNonce keys.masterKeyBytes with
      | none => .error .invalidTag
      | some dek => .ok (dek, row.keyVersion)

/-- The data key of one stored version; `missing` is the reader's own error. -/
def dekForVersion (missing : Raised) (db : Database) (userId : Uuid) (keyVersion : Int) :
    Except Raised Bytes :=
  match db.userDataKeys.get? (userId, keyVersion) with
  | none => .error missing
  | some row =>
      match keys.unwrapDek row.wrappedDek row.wrapNonce keys.masterKeyBytes with
      | none => .error .invalidTag
      | some dek => .ok dek

/-- A nullable money column pair: absent stays absent, a value is encrypted
as its text. -/
def encryptDecimal (dek : Bytes) (associatedData : String) (nonce : Bytes) :
    Option Decimal → Option Bytes × Option Bytes
  | none => (none, none)
  | some value => (some (keys.encryptField value.str dek associatedData nonce), some nonce)

def decryptDecimal (dek : Bytes) (associatedData : String) :
    Option Bytes → Option Bytes → Except Raised (Option Decimal)
  | some ciphertext, some nonce =>
      match keys.decryptField ciphertext nonce dek associatedData with
      | none => .error .invalidTag
      | some text =>
          match Decimal.ofStr? text with
          | none => .error .invalidOperation
          | some value => .ok (some value)
  | _, _ => .ok none

theorem decrypt_encrypt_decimal (dek nonce : Bytes) (associatedData : String)
    (value : Option Decimal) :
    decryptDecimal keys dek associatedData
      (encryptDecimal keys dek associatedData nonce value).1
      (encryptDecimal keys dek associatedData nonce value).2 = .ok value := by
  cases value with
  | none => rfl
  | some value =>
      simp only [encryptDecimal, decryptDecimal, keys.decrypt_encrypt, Decimal.of_str_str]

/-- The data key depends on nothing but the key table. -/
theorem current_dek_congr (left right : Database) (userId : Uuid)
    (same : left.userDataKeys = right.userDataKeys) :
    currentDek keys left userId = currentDek keys right userId := by
  unfold currentDek keyRowsOf
  rw [same]

theorem latest_key_row_mem (rows : List UserDataKey) (row : UserDataKey)
    (latest : latestKeyRow rows = some row) : row ∈ rows := by
  induction rows generalizing row with
  | nil => simp [latestKeyRow] at latest
  | cons head rest ih =>
      unfold latestKeyRow at latest
      cases tail : latestKeyRow rest with
      | none =>
          simp only [tail, Option.some.injEq] at latest
          exact latest ▸ List.mem_cons_self
      | some later =>
          simp only [tail] at latest
          split_ifs at latest with higher
          · exact List.mem_cons_of_mem _ (ih row (tail.trans latest))
          · exact Option.some.inj latest ▸ List.mem_cons_self

theorem latest_key_row_none (rows : List UserDataKey) (none_ : latestKeyRow rows = none) :
    rows = [] := by
  cases rows with
  | nil => rfl
  | cons head rest =>
      unfold latestKeyRow at none_
      split at none_
      · cases none_
      · split_ifs at none_

/-- A user with key rows, all of which unwrap, has a current data key. -/
theorem current_dek_of_rows (db : Database) (userId : Uuid)
    (some_ : ∃ row ∈ db.userDataKeys.rows, row.userId = userId)
    (unwraps : ∀ row ∈ db.userDataKeys.rows, ∃ dek,
      keys.unwrapDek row.wrappedDek row.wrapNonce keys.masterKeyBytes = some dek) :
    ∃ dek keyVersion, currentDek keys db userId = .ok (dek, keyVersion) := by
  unfold currentDek
  cases latest : latestKeyRow (keyRowsOf db userId) with
  | none =>
      rcases some_ with ⟨row, stored, owner⟩
      have own : row ∈ keyRowsOf db userId := List.mem_filter.mpr ⟨stored, by simpa using owner⟩
      rw [latest_key_row_none _ latest] at own
      cases own
  | some row =>
      have stored := (List.mem_filter.mp (latest_key_row_mem _ row latest)).1
      rcases unwraps row stored with ⟨dek, opened⟩
      exact ⟨dek, row.keyVersion, by simp only [opened]⟩

/-- What a writer encrypts under, a reader of the row it stamped finds
again. -/
theorem dek_for_current_version (missing : Raised) (db : Database) (userId : Uuid) (dek : Bytes)
    (keyVersion : Int) (current : currentDek keys db userId = .ok (dek, keyVersion)) :
    dekForVersion keys missing db userId keyVersion = .ok dek := by
  unfold currentDek at current
  cases latest : latestKeyRow (keyRowsOf db userId) with
  | none => simp [latest] at current
  | some row =>
      simp only [latest] at current
      cases unwrapped : keys.unwrapDek row.wrappedDek row.wrapNonce keys.masterKeyBytes with
      | none => simp [unwrapped] at current
      | some opened =>
          simp only [unwrapped, Except.ok.injEq, Prod.mk.injEq] at current
          obtain ⟨rfl, rfl⟩ := current
          have member := latest_key_row_mem _ row latest
          obtain ⟨stored, owner⟩ := List.mem_filter.mp member
          have owned : row.userId = userId := by simpa using owner
          have found : db.userDataKeys.get? (userId, row.keyVersion) = some row :=
            (get_eq_some_iff _ _ _).mpr ⟨stored, by rw [← owned]; rfl⟩
          simp only [dekForVersion, found, unwrapped]

/-! ## An envelope without secrecy

The laws above have a model that evaluates: text written out as three bytes a
character and a data key wrapped as itself. -/

def charBytes (char : Char) : Bytes :=
  [UInt8.ofNat (char.toNat / 65536), UInt8.ofNat (char.toNat / 256), UInt8.ofNat char.toNat]

def bytesChars : Bytes → List Char
  | high :: middle :: low :: rest =>
      Char.ofNat (high.toNat * 65536 + middle.toNat * 256 + low.toNat) :: bytesChars rest
  | _ => []

theorem bytes_chars_char_bytes (char : Char) (rest : Bytes) :
    bytesChars (charBytes char ++ rest) = char :: bytesChars rest := by
  have bound : char.toNat < 1114112 := by
    rcases char.valid with low | high
    · exact Nat.lt_trans low (by decide)
    · exact high.2
  have value : (UInt8.ofNat (char.toNat / 65536)).toNat * 65536 +
      (UInt8.ofNat (char.toNat / 256)).toNat * 256 + (UInt8.ofNat char.toNat).toNat =
      char.toNat := by
    simp only [UInt8.toNat_ofNat']
    omega
  simp only [charBytes, List.cons_append, List.nil_append, bytesChars, value, Char.ofNat_toNat]

theorem bytes_chars_text (chars : List Char) : bytesChars (chars.flatMap charBytes) = chars := by
  induction chars with
  | nil => rfl
  | cons char rest ih => rw [List.flatMap_cons, bytes_chars_char_bytes, ih]

def plainKeys : KeyService where
  wrapDek dek _ _ := dek
  unwrapDek wrappedDek _ _ := some wrappedDek
  encryptField plaintext _ _ _ := plaintext.toList.flatMap charBytes
  decryptField ciphertext _ _ _ := some (String.ofList (bytesChars ciphertext))
  unwrap_wrap _ _ _ := rfl
  decrypt_encrypt plaintext _ _ _ := by rw [bytes_chars_text, String.ofList_toList]
  masterKeyBytes := []

/-! ## An ideal envelope

Nonce, key and associated data written in front of the payload, each byte and
the end behind a mark, so that a value opens only under what it was
written with. -/

def frame (label : Bytes) : Bytes := label.flatMap (fun byte => [1, byte]) ++ [0, 0]

def unframe : Bytes → Option (Bytes × Bytes)
  | mark :: byte :: rest =>
      if mark = 0 then some ([], rest)
      else (unframe rest).map fun found => (byte :: found.1, found.2)
  | _ => none

def sealWith (labels : List Bytes) (payload : Bytes) : Bytes := labels.flatMap frame ++ payload

def openWith : List Bytes → Bytes → Option Bytes
  | [], payload => some payload
  | label :: rest, ciphertext =>
      match unframe ciphertext with
      | some (found, inner) => if found = label then openWith rest inner else none
      | none => none

theorem unframe_frame (label rest : Bytes) : unframe (frame label ++ rest) = some (label, rest) := by
  induction label with
  | nil =>
      have shape : frame [] ++ rest = 0 :: 0 :: rest := rfl
      rw [shape, unframe, if_pos rfl]
  | cons byte later ih =>
      have shape : frame (byte :: later) ++ rest = 1 :: byte :: (frame later ++ rest) := by
        simp [frame]
      rw [shape, unframe, if_neg (by decide), ih]
      rfl

theorem open_with_seal_with (labels wanted : List Bytes) (payload : Bytes)
    (sameLength : wanted.length = labels.length) :
    openWith wanted (sealWith labels payload) = if wanted = labels then some payload else none := by
  induction labels generalizing wanted with
  | nil =>
      have empty : wanted = [] := List.eq_nil_of_length_eq_zero sameLength
      rw [empty, if_pos rfl]
      rfl
  | cons label rest ih =>
      cases wanted with
      | nil => cases sameLength
      | cons first others =>
          have restLength : others.length = rest.length := by simpa using sameLength
          have outer : sealWith (label :: rest) payload = frame label ++ sealWith rest payload := by
            simp [sealWith]
          rw [outer, openWith, unframe_frame]
          dsimp only
          rw [ih others restLength]
          by_cases whole : first :: others = label :: rest
          · injection whole with heads tails
            rw [if_pos heads.symm, if_pos tails, if_pos (by rw [heads, tails])]
          · rw [if_neg whole]
            split_ifs with heads tails
            · exact absurd (by rw [heads, tails]) whole
            · rfl
            · rfl

def textBytes (text : String) : Bytes := text.toList.flatMap charBytes

theorem text_bytes_injective : Function.Injective textBytes := by
  intro left right same
  have chars := congrArg bytesChars same
  rw [textBytes, textBytes, bytes_chars_text, bytes_chars_text] at chars
  exact String.toList_injective chars

def idealEnvelope : Envelope where
  wrapDek dek kek nonce := sealWith [nonce, kek] dek
  unwrapDek wrappedDek wrapNonce kek := openWith [wrapNonce, kek] wrappedDek
  encryptField plaintext dek associatedData nonce :=
    sealWith [nonce, dek, textBytes associatedData] (textBytes plaintext)
  decryptField ciphertext nonce dek associatedData :=
    (openWith [nonce, dek, textBytes associatedData] ciphertext).map fun payload =>
      String.ofList (bytesChars payload)
  unwrap_wrap dek kek nonce := by rw [open_with_seal_with _ _ _ rfl, if_pos rfl]
  decrypt_encrypt plaintext dek associatedData nonce := by
    rw [open_with_seal_with _ _ _ rfl, if_pos rfl, Option.map_some, textBytes, bytes_chars_text,
      String.ofList_toList]

theorem ideal_envelope_ideal : idealEnvelope.Ideal where
  unwrap_exact dek kek nonce wrapNonce otherKek found opened := by
    have unsealed : openWith [wrapNonce, otherKek] (sealWith [nonce, kek] dek) = some found := opened
    rw [open_with_seal_with [nonce, kek] [wrapNonce, otherKek] dek rfl] at unsealed
    split_ifs at unsealed with same
    injection same with nonces rest
    injection rest with keks
    exact ⟨nonces, keks⟩
  decrypt_exact plaintext dek associatedData nonce otherNonce otherDek otherData found opened := by
    obtain ⟨payload, unsealed, _⟩ := Option.map_eq_some_iff.mp opened
    have unsealed : openWith [otherNonce, otherDek, textBytes otherData]
        (sealWith [nonce, dek, textBytes associatedData] (textBytes plaintext)) = some payload :=
      unsealed
    rw [open_with_seal_with [nonce, dek, textBytes associatedData]
      [otherNonce, otherDek, textBytes otherData] (textBytes plaintext) rfl] at unsealed
    split_ifs at unsealed with same
    injection same with nonces rest
    injection rest with deks last
    injection last with data
    exact ⟨nonces, deks, text_bytes_injective data⟩

end Morai.Crypto
