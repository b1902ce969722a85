import Morai.Foundation.JoinedText
import Morai.Ledger.ConcurrentSync
import Morai.Ledger.Partition

/-!
# What a digest of fills says

`hash_fill_ids` joins the fields of a key and the keys of a collection by one
and the same colon. Every key has four fields, so where no field holds a colon
the joined text still says which keys it was made of, each as often as it was
there.
-/

namespace Morai.Ledger.FillIdsHash

open Morai.Crypto Morai.Db Morai.Python Morai.Foundation.JoinedText
open Morai.Ledger.Fills Morai.Ledger.Pairing Morai.Ledger.Partition Morai.Ledger.ScopedReplay
open Morai.Ledger.ConcurrentSync

set_option autoImplicit false

/-! ## The digest of a text -/

/-- `text.encode("utf-8")`. -/
def encoded (text : String) : Bytes := text.toUTF8.data.toList

/-- `digest.hex()`. -/
def hexOf (digest : Bytes) : String :=
  String.ofList (digest.map fun byte => hexText 2 byte.toNat).flatten

/-- `hashlib.sha256(text.encode("utf-8")).hexdigest()`. -/
def hexdigest (sha256 : Bytes → Bytes) (text : String) : String := hexOf (sha256 (encoded text))

theorem encoded_injective : Function.Injective encoded := by
  intro left right same
  have arrays : left.toUTF8.data = right.toUTF8.data := Array.toList_inj.mp same
  have bytes : left.toByteArray = right.toByteArray := ByteArray.ext arrays
  exact String.toByteArray_inj.mp bytes

theorem byte_text_injective (left right : UInt8)
    (same : hexText 2 left.toNat = hexText 2 right.toNat) : left = right := by
  have small : ∀ byte : UInt8, byte.toNat < 16 ^ 2 := UInt8.toNat_lt
  have read := read_hex_text 2 left.toNat
  rw [same, read_hex_text, Nat.mod_eq_of_lt (small left), Nat.mod_eq_of_lt (small right)] at read
  exact UInt8.toNat_inj.mp (Option.some.inj read).symm

theorem hex_of_injective : Function.Injective hexOf := by
  intro left right same
  have widths : ∀ digest : Bytes,
      ∀ part ∈ digest.map (fun byte => hexText 2 byte.toNat), part.length = 2 := by
    intro digest part member
    obtain ⟨byte, _, shape⟩ := List.mem_map.mp member
    rw [← shape, hex_text_length]
  have parts := flatten_unique 2 (by decide) _ _ (widths left) (widths right)
    (String.ofList_injective same)
  exact List.map_injective_iff.mpr (fun byte other => byte_text_injective byte other) parts

theorem hexdigest_injective (sha256 : Bytes → Bytes) (injective : Function.Injective sha256) :
    Function.Injective (hexdigest sha256) :=
  hex_of_injective.comp (injective.comp encoded_injective)

/-! ## What a key renders as -/

def keyFields (key : FillKey) : List String :=
  [key.orderId, key.occSymbol, toString key.legIndex, microsText key.executionTime]

/-- A numeric order id and an OCC symbol hold no colon. -/
def ColonFree (key : FillKey) : Prop := ':' ∉ key.orderId.toList ∧ ':' ∉ key.occSymbol.toList

instance decidableColonFree (key : FillKey) : Decidable (ColonFree key) :=
  inferInstanceAs (Decidable (_ ∧ _))

/-- The execution time comes out of its double as it went in. -/
def EpochExact (key : FillKey) : Prop := timestampMicros key.executionTime = key.executionTime

instance decidableEpochExact (key : FillKey) : Decidable (EpochExact key) :=
  inferInstanceAs (Decidable (_ = _))

theorem render_key_fields (key : FillKey) : renderKey key = ":".intercalate (keyFields key) := by
  simp [renderKey, keyFields, String.append_assoc]

theorem key_fields_free (key : FillKey) (free : ColonFree key) :
    ∀ field ∈ keyFields key, ':' ∉ field.toList := by
  intro field member
  simp only [keyFields, List.mem_cons, List.not_mem_nil, or_false] at member
  rcases member with order | symbol | leg | time
  · exact order ▸ free.1
  · exact symbol ▸ free.2
  · exact leg ▸ int_text_colon_free _
  · exact time ▸ int_text_colon_free _

theorem key_fields_unique (left right : FillKey) (leftExact : EpochExact left)
    (rightExact : EpochExact right) (same : keyFields left = keyFields right) : left = right := by
  simp only [keyFields, List.cons.injEq, and_true, microsText, int_text_iff] at same
  rw [leftExact, rightExact] at same
  cases left
  cases right
  simpa only [FillKey.mk.injEq] using same

/-- The keys in the order their renderings are sorted in. -/
def sortedKeys (keys : List FillKey) : List FillKey :=
  keys.insertionSort fun left right => renderKey left ≤ renderKey right

theorem sorted_texts_keys (keys : List FillKey) :
    sortedTexts (keys.map renderKey) = (sortedKeys keys).map renderKey :=
  (List.map_insertionSort _ _ renderKey keys fun _ _ _ _ => Iff.rfl).symm

/-- Free of colons and rendered exactly. -/
def Plain (key : FillKey) : Prop := ColonFree key ∧ EpochExact key

instance decidablePlain (key : FillKey) : Decidable (Plain key) :=
  inferInstanceAs (Decidable (_ ∧ _))

/-- The text that is hashed says which keys it was made of. -/
theorem joined_keys_unique (left right : List FillKey) (leftPlain : ∀ key ∈ left, Plain key)
    (rightPlain : ∀ key ∈ right, Plain key)
    (joined : ":".intercalate (sortedTexts (left.map renderKey)) =
      ":".intercalate (sortedTexts (right.map renderKey))) : left.Perm right := by
  have leftPerm : (sortedKeys left).Perm left := List.perm_insertionSort _ left
  have rightPerm : (sortedKeys right).Perm right := List.perm_insertionSort _ right
  have rendered : ∀ keys : List FillKey, sortedTexts (keys.map renderKey) =
      ((sortedKeys keys).map keyFields).map ":".intercalate := by
    intro keys
    rw [sorted_texts_keys, List.map_map]
    exact List.map_congr_left fun key _ => render_key_fields key
  have width : ∀ keys : List FillKey, ∀ fields ∈ (sortedKeys keys).map keyFields,
      fields.length = 4 := by
    intro keys fields member
    obtain ⟨key, _, shape⟩ := List.mem_map.mp member
    rw [← shape]
    rfl
  have free : ∀ keys : List FillKey, (∀ key ∈ keys, Plain key) →
      ∀ fields ∈ (sortedKeys keys).map keyFields, ∀ field ∈ fields, ':' ∉ field.toList := by
    intro keys plain fields member
    obtain ⟨key, among, shape⟩ := List.mem_map.mp member
    have inside : key ∈ keys := (List.perm_insertionSort _ keys).mem_iff.mp among
    rw [← shape]
    exact key_fields_free key (plain key inside).1
  rw [rendered, rendered] at joined
  have sameFields := text_records_unique 4 (by decide) _ _ (width left) (width right)
    (free left leftPlain) (free right rightPlain) joined
  have sameKeys : sortedKeys left = sortedKeys right := by
    apply map_unique keyFields _ _ _ sameFields
    intro key among other otherAmong
    apply key_fields_unique
    · exact (leftPlain key (leftPerm.mem_iff.mp among)).2
    · exact (rightPlain other (rightPerm.mem_iff.mp otherAmong)).2
  exact leftPerm.symm.trans (sameKeys ▸ rightPerm)

theorem digest_names_keys (sha256 : String → String) (injective : Function.Injective sha256)
    (left right : List FillKey) (leftPlain : ∀ key ∈ left, Plain key)
    (rightPlain : ∀ key ∈ right, Plain key)
    (same : hashFillIds sha256 left = hashFillIds sha256 right) : left.Perm right :=
  joined_keys_unique left right leftPlain rightPlain (injective same)

/-! ## The digest as the identity of an event -/

section Identity

variable (sha256 : String → String) (resolutions : Resolutions) (fills : List FillRecord)

/-- Fills whose keys are plain. -/
def PlainFills : Prop := ∀ fill ∈ fills, Plain fill.key

theorem plain_member_keys (plain : PlainFills fills) (group : GroupKey) :
    ∀ key ∈ memberKeys resolutions fills group, Plain key := by
  intro key member
  obtain ⟨fill, among, shape⟩ := List.mem_map.mp member
  rw [← shape]
  exact plain fill ((mem_group_members resolutions fills group fill).mp among).1

/-- Such fills can be read in any order. -/
theorem plain_separates_sets (injective : Function.Injective sha256) (plain : PlainFills fills) :
    SeparatesSets sha256 (fills.map FillRecord.key) := by
  have listed : ∀ keys : List FillKey, keys ⊆ fills.map FillRecord.key →
      ∀ key ∈ keys, Plain key := by
    intro keys inside key member
    obtain ⟨fill, among, shape⟩ := List.mem_map.mp (inside member)
    exact shape ▸ plain fill among
  intro left right _ _ leftInside rightInside same
  exact digest_names_keys sha256 injective left right (listed left leftInside)
    (listed right rightInside) same

/-- Such fills can be replayed by scopes. -/
theorem plain_hash_separates (injective : Function.Injective sha256) (plain : PlainFills fills) :
    HashSeparates sha256 resolutions fills := by
  intro left _ right _ same
  exact digest_names_keys sha256 injective _ _ (plain_member_keys resolutions fills plain left)
    (plain_member_keys resolutions fills plain right) same

/-- No two events of one derivation have one digest. -/
theorem plain_digests_nodup (injective : Function.Injective sha256) (plain : PlainFills fills)
    (distinct : (fills.map FillRecord.key).Nodup) :
    ((deriveEvents sha256 fills resolutions).events.map DerivedEvent.fillIdsHash).Nodup := by
  have listed := (derive_events_perm sha256 fills resolutions).map DerivedEvent.fillIdsHash
  rw [List.map_map] at listed
  apply listed.nodup_iff.mpr
  apply (group_keys_nodup resolutions fills).map_on
  intro left present right _ same
  apply group_of_keys resolutions fills distinct left right present
  exact digest_names_keys sha256 injective _ _ (plain_member_keys resolutions fills plain left)
    (plain_member_keys resolutions fills plain right) same

/-- What `sync_events` inserts from one reading has one row for each triple. -/
theorem plain_told_apart (injective : Function.Injective sha256) (reading : Reading)
    (plain : PlainFills reading.fills) (distinct : (reading.fills.map FillRecord.key).Nodup) :
    ToldApart sha256 reading := by
  intro left present right otherPresent _ _ same
  apply Or.inr
  apply group_of_keys reading.resolutions reading.fills distinct left right present
  exact plain_hash_separates sha256 reading.resolutions reading.fills injective plain left present
    right otherPresent same

/-- An event with the digest of an event derived at another time is of the
same fills: skipping it loses nothing. -/
theorem digest_names_fills (injective : Function.Injective sha256) (later : Resolutions)
    (grown : List FillRecord) (plain : PlainFills fills) (grownPlain : PlainFills grown)
    (first second : DerivedEvent)
    (firstMember : first ∈ (deriveEvents sha256 fills resolutions).events)
    (secondMember : second ∈ (deriveEvents sha256 grown later).events)
    (same : first.fillIdsHash = second.fillIdsHash) :
    ∃ left ∈ groupKeys resolutions fills, ∃ right ∈ groupKeys later grown,
      first = eventOfGroup sha256 (left, groupMembers resolutions fills left) ∧
        second = eventOfGroup sha256 (right, groupMembers later grown right) ∧
          (memberKeys resolutions fills left).Perm (memberKeys later grown right) := by
  have listed := derive_events_perm sha256 fills resolutions
  have otherListed := derive_events_perm sha256 grown later
  obtain ⟨left, present, shape⟩ := List.mem_map.mp (listed.mem_iff.mp firstMember)
  obtain ⟨right, otherPresent, otherShape⟩ :=
    List.mem_map.mp (otherListed.mem_iff.mp secondMember)
  refine ⟨left, present, right, otherPresent, shape.symm, otherShape.symm, ?_⟩
  rw [← shape, ← otherShape] at same
  exact digest_names_keys sha256 injective _ _ (plain_member_keys resolutions fills plain left)
    (plain_member_keys later grown grownPlain right) same

end Identity

/-- **The digest identifies the multiset of keys.** -/
theorem hash_fill_ids_identifies_keys (sha256 : Bytes → Bytes)
    (injective : Function.Injective sha256) (left right : List FillKey)
    (leftFree : ∀ key ∈ left, ColonFree key) (rightFree : ∀ key ∈ right, ColonFree key)
    (leftExact : ∀ key ∈ left, EpochExact key) (rightExact : ∀ key ∈ right, EpochExact key) :
    hashFillIds (hexdigest sha256) left = hashFillIds (hexdigest sha256) right ↔
      left.Perm right := by
  constructor
  · intro same
    have named := digest_names_keys (hexdigest sha256) (hexdigest_injective sha256 injective)
      left right
    apply named _ _ same
    · intro key member
      exact ⟨leftFree key member, leftExact key member⟩
    · intro key member
      exact ⟨rightFree key member, rightExact key member⟩
  · exact hash_fill_ids_perm (hexdigest sha256) left right

/-! Two legs of two orders; as text the later number comes first. -/

def twoLegs : List FillKey :=
  [⟨"9", "SPXW260420C05000000", 1, 1700000000000001⟩,
    ⟨"10", "SPXW260320C05000000", 0, 1700000000000000⟩]

/-- SHA-256 on the two texts hashed, and injective. -/
def legsSha256 : Equiv.Perm Bytes :=
  (Equiv.swap
    (encoded ("10:SPXW260320C05000000:0:1700000000000000:" ++
      "9:SPXW260420C05000000:1:1700000000000001"))
    [226, 16, 44, 48, 197, 207, 209, 207, 150, 98, 9, 105, 157, 97, 89, 192, 255, 47, 44, 115, 62,
      118, 63, 188, 174, 42, 211, 189, 136, 115, 180, 42]).trans
  (Equiv.swap
    (encoded "10:SPXW260320C05000000:0:1700000000000000")
    [210, 68, 172, 18, 230, 191, 67, 156, 21, 209, 1, 215, 66, 245, 38, 197, 227, 93, 253, 149, 21,
      166, 114, 255, 121, 121, 101, 214, 63, 56, 5, 215])

theorem hash_fill_ids_identifies_keys_two :
    hashFillIds (hexdigest legsSha256) twoLegs =
        hashFillIds (hexdigest legsSha256) twoLegs.reverse ∧
      hashFillIds (hexdigest legsSha256) twoLegs ≠
        hashFillIds (hexdigest legsSha256) (twoLegs.drop 1) := by
  constructor
  · exact (hash_fill_ids_identifies_keys legsSha256 legsSha256.injective twoLegs twoLegs.reverse
      (by decide +kernel) (by decide +kernel) (by decide +kernel) (by decide +kernel)).mpr
      twoLegs.reverse_perm.symm
  · intro same
    have perm := (hash_fill_ids_identifies_keys legsSha256 legsSha256.injective twoLegs
      (twoLegs.drop 1) (by decide +kernel) (by decide +kernel) (by decide +kernel)
      (by decide +kernel)).mp same
    exact absurd perm.length_eq (by decide)

example : hashFillIds (hexdigest legsSha256) (twoLegs.drop 1) =
    "d244ac12e6bf439c15d101d742f526c5e35dfd9515a672ff797965d63f3805d7" := by decide +kernel

end Morai.Ledger.FillIdsHash
