import Morai.Crypto.Envelope
import Mathlib.Data.List.Sort

/-!
# Master-key rotation

`rotate_kek` loads every key row, unwraps it under the old master key, wraps
it under the new one and flushes once at the end. The loaded rows are changed
in the session only, so a row that does not open leaves the table as it was.
-/

namespace Morai.Crypto.Rotation

open Morai.Db Morai.Python Morai.Foundation.PrimaryKey

set_option autoImplicit false

variable (envelope : Envelope)

/-- `dirty` are the loaded rows changed since the last flush. -/
structure KeySession where
  stored : KeyedTable UserDataKey.primaryKey
  dirty : List UserDataKey

/-- `ORDER BY user_id, key_version`. -/
def LoadsBefore (left right : UserDataKey) : Prop :=
  left.userId.value < right.userId.value ∨
    left.userId.value = right.userId.value ∧ left.keyVersion ≤ right.keyVersion

instance decidableLoadsBefore : DecidableRel LoadsBefore := fun _ _ =>
  inferInstanceAs (Decidable (_ ∨ _))

def rewrapped (newKek : Bytes) (row : UserDataKey) (dek wrapNonce : Bytes) : UserDataKey :=
  { row with wrappedDek := envelope.wrapDek dek newKek wrapNonce, wrapNonce := wrapNonce }

/-- The loop; the row at position `i` draws the nonce `nonces i`. -/
def rewrapRows (oldKek newKek : Bytes) (nonces : Nat → Bytes) :
    List (UserDataKey × Nat) → Nat → KeySession → Except Raised Nat × KeySession
  | [], count, session => (.ok count, session)
  | (row, index) :: rest, count, session =>
      match envelope.unwrapDek row.wrappedDek row.wrapNonce oldKek with
      | none => (.error .invalidTag, session)
      | some dek =>
          rewrapRows oldKek newKek nonces rest (count + 1)
            { session with
              dirty := session.dirty ++ [rewrapped envelope newKek row dek (nonces index)] }

def flushKeys (session : KeySession) : KeySession where
  stored := session.dirty.foldl KeyedTable.put session.stored
  dirty := []

def rotateKek (oldKek newKek : Bytes) (nonces : Nat → Bytes) (db : Database) :
    Except Raised Nat × KeySession :=
  let rows := db.userDataKeys.rows.insertionSort LoadsBefore
  match rewrapRows envelope oldKek newKek nonces rows.zipIdx 0 ⟨db.userDataKeys, []⟩ with
  | (.error raised, session) => (.error raised, session)
  | (.ok count, session) => (.ok count, flushKeys session)

/-- Until the flush the table is as it was, whatever the loop met. -/
theorem rewrap_rows_stored (oldKek newKek : Bytes) (nonces : Nat → Bytes)
    (rows : List (UserDataKey × Nat)) (count : Nat) (session : KeySession) :
    (rewrapRows envelope oldKek newKek nonces rows count session).2.stored = session.stored := by
  induction rows generalizing count session with
  | nil => rfl
  | cons indexed rest ih =>
      unfold rewrapRows
      cases envelope.unwrapDek indexed.1.wrappedDek indexed.1.wrapNonce oldKek with
      | none => rfl
      | some dek => exact ih _ _

/-- One row through the loop: opened under the old key, wrapped under the
new. -/
def Rewraps (oldKek newKek : Bytes) (row changed : UserDataKey) : Prop :=
  ∃ dek wrapNonce, envelope.unwrapDek row.wrappedDek row.wrapNonce oldKek = some dek ∧
    changed = rewrapped envelope newKek row dek wrapNonce

/-- The loop that came through rewrapped every row, in order. -/
theorem rewrap_rows_returned (oldKek newKek : Bytes) (nonces : Nat → Bytes)
    (rows : List (UserDataKey × Nat)) (count total : Nat) (session after : KeySession)
    (ran : rewrapRows envelope oldKek newKek nonces rows count session = (.ok total, after)) :
    total = count + rows.length ∧
      ∃ changed, after.dirty = session.dirty ++ changed ∧
        List.Forall₂ (Rewraps envelope oldKek newKek) (rows.map Prod.fst) changed := by
  induction rows generalizing count session with
  | nil =>
      cases ran
      exact ⟨rfl, [], (List.append_nil _).symm, List.Forall₂.nil⟩
  | cons indexed rest ih =>
      unfold rewrapRows at ran
      cases opened : envelope.unwrapDek indexed.1.wrappedDek indexed.1.wrapNonce oldKek with
      | none => simp [opened] at ran
      | some dek =>
          simp only [opened] at ran
          rcases ih _ _ ran with ⟨counted, changed, dirty, all⟩
          refine ⟨?_, rewrapped envelope newKek indexed.1 dek (nonces indexed.2) :: changed, ?_, ?_⟩
          · rw [counted, List.length_cons]
            omega
          · rw [dirty, List.append_assoc]
            rfl
          · exact List.Forall₂.cons ⟨dek, nonces indexed.2, opened, rfl⟩ all

theorem rewraps_keys (oldKek newKek : Bytes) (rows changed : List UserDataKey)
    (all : List.Forall₂ (Rewraps envelope oldKek newKek) rows changed) :
    rows.map UserDataKey.primaryKey = changed.map UserDataKey.primaryKey := by
  apply related_keys (Rewraps envelope oldKek newKek) _ _ _ all
  intro row rewrappedRow step
  rcases step with ⟨dek, wrapNonce, _, shape⟩
  rw [shape]
  rfl

/-- The table after the flush of a loop over all rows, in whatever order. -/
theorem flushed_rows (oldKek newKek : Bytes) (table : KeyedTable UserDataKey.primaryKey)
    (rows changed : List UserDataKey) (perm : rows.Perm table.rows)
    (all : List.Forall₂ (Rewraps envelope oldKek newKek) rows changed) :
    (∀ wanted, ¬table.Has wanted →
        (changed.foldl KeyedTable.put table).get? wanted = none) ∧
      ∀ row ∈ table.rows, ∃ next, Rewraps envelope oldKek newKek row next ∧
        (changed.foldl KeyedTable.put table).get? row.primaryKey = some next := by
  have sameKeys := rewraps_keys envelope oldKek newKek rows changed all
  have nodup : (changed.map UserDataKey.primaryKey).Nodup := by
    rw [← sameKeys]
    exact (perm.map _).nodup_iff.mpr table.unique
  constructor
  · intro wanted absent
    rw [fold_put_other, get_eq_none_iff]
    · exact absent
    · rw [← sameKeys, (perm.map _).mem_iff]
      exact absent
  · intro row member
    have loaded : row ∈ rows := perm.mem_iff.mpr member
    rcases List.mem_iff_get.mp loaded with ⟨index, found⟩
    have bound : index.val < changed.length := all.length_eq ▸ index.isLt
    have step := all.get index.isLt bound
    rw [found] at step
    have stored := fold_put_member table changed nodup _ (List.get_mem changed ⟨_, bound⟩)
    rcases step with ⟨dek, wrapNonce, opened, shape⟩
    have sameKey : (changed.get ⟨_, bound⟩).primaryKey = row.primaryKey := by
      rw [shape]
      rfl
    rw [sameKey] at stored
    exact ⟨_, ⟨dek, wrapNonce, opened, shape⟩, stored⟩

/-- A rotation that returned counts every row, and under each key stands the
row that was there with its data key wrapped under the new master key. -/
theorem rotate_kek_returned (oldKek newKek : Bytes) (nonces : Nat → Bytes) (db : Database)
    (count : Nat) (session : KeySession)
    (ran : rotateKek envelope oldKek newKek nonces db = (.ok count, session)) :
    count = db.userDataKeys.rows.length ∧
      (∀ wanted, ¬db.userDataKeys.Has wanted → session.stored.get? wanted = none) ∧
      ∀ row ∈ db.userDataKeys.rows, ∃ next, Rewraps envelope oldKek newKek row next ∧
        session.stored.get? row.primaryKey = some next := by
  unfold rotateKek at ran
  let rows := db.userDataKeys.rows.insertionSort LoadsBefore
  have perm : rows.Perm db.userDataKeys.rows := List.perm_insertionSort _ _
  have kept := rewrap_rows_stored envelope oldKek newKek nonces rows.zipIdx 0
    ⟨db.userDataKeys, []⟩
  cases looped : rewrapRows envelope oldKek newKek nonces rows.zipIdx 0 ⟨db.userDataKeys, []⟩ with
  | mk outcome after =>
      rw [looped] at kept
      cases outcome with
      | error raised => simp [rows, looped] at ran
      | ok total =>
          simp only [rows, looped, Prod.mk.injEq, Except.ok.injEq] at ran
          rcases rewrap_rows_returned envelope oldKek newKek nonces rows.zipIdx 0 total _ after
            looped with ⟨counted, changed, dirty, all⟩
          rw [List.zipIdx_map_fst] at all
          rw [List.nil_append] at dirty
          have final : session.stored = changed.foldl KeyedTable.put db.userDataKeys := by
            rw [← ran.2, flushKeys, kept, dirty]
          constructor
          · rw [← ran.1, counted, List.length_zipIdx, perm.length_eq]
            omega
          · rw [final]
            exact flushed_rows envelope oldKek newKek db.userDataKeys rows changed perm all

/-- The loop comes through exactly when every row opens. -/
theorem rewrap_rows_ok_iff (oldKek newKek : Bytes) (nonces : Nat → Bytes)
    (rows : List (UserDataKey × Nat)) (count : Nat) (session : KeySession) :
    (∃ total after, rewrapRows envelope oldKek newKek nonces rows count session =
        (.ok total, after)) ↔
      ∀ indexed ∈ rows, ∃ dek,
        envelope.unwrapDek indexed.1.wrappedDek indexed.1.wrapNonce oldKek = some dek := by
  induction rows generalizing count session with
  | nil => simp [rewrapRows]
  | cons indexed rest ih =>
      rw [List.forall_mem_cons]
      unfold rewrapRows
      cases envelope.unwrapDek indexed.1.wrappedDek indexed.1.wrapNonce oldKek with
      | none => simp
      | some dek =>
          dsimp only
          rw [ih]
          simp

/-- A rotation returns exactly when every stored row opens under the old
master key. -/
theorem rotate_kek_ok_iff (oldKek newKek : Bytes) (nonces : Nat → Bytes) (db : Database) :
    (∃ count session, rotateKek envelope oldKek newKek nonces db = (.ok count, session)) ↔
      ∀ row ∈ db.userDataKeys.rows, ∃ dek,
        envelope.unwrapDek row.wrappedDek row.wrapNonce oldKek = some dek := by
  let rows := db.userDataKeys.rows.insertionSort LoadsBefore
  have perm : rows.Perm db.userDataKeys.rows := List.perm_insertionSort _ _
  have loop := rewrap_rows_ok_iff envelope oldKek newKek nonces rows.zipIdx 0
    ⟨db.userDataKeys, []⟩
  have overRows : (∀ indexed ∈ rows.zipIdx, ∃ dek,
      envelope.unwrapDek indexed.1.wrappedDek indexed.1.wrapNonce oldKek = some dek) ↔
      ∀ row ∈ db.userDataKeys.rows, ∃ dek,
        envelope.unwrapDek row.wrappedDek row.wrapNonce oldKek = some dek := by
    have projected := List.forall_mem_map (f := Prod.fst) (l := rows.zipIdx) (P := fun row =>
      ∃ dek, envelope.unwrapDek row.wrappedDek row.wrapNonce oldKek = some dek)
    rw [← projected, List.zipIdx_map_fst]
    exact forall_congr' fun row => imp_congr_left perm.mem_iff
  rw [← overRows, ← loop]
  unfold rotateKek
  cases looped : rewrapRows envelope oldKek newKek nonces rows.zipIdx 0 ⟨db.userDataKeys, []⟩ with
  | mk outcome after =>
      cases outcome with
      | error raised => simp [rows, looped]
      | ok total => simp [rows, looped]

end Morai.Crypto.Rotation
