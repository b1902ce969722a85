import Morai.Crypto.Rotation
import Morai.Foundation.Runs

/-!
# A rotation beside account creations

`rotate_kek` works on the rows of one `SELECT` and takes no lock on the table.
A web process wraps a new account's data key under the master key it was
started with, so a creation that commits after the `SELECT` is not among the
rewrapped rows.
-/

namespace Morai.Crypto.RotationRace

open Morai.Crypto.Rotation Morai.Db Morai.Python Morai.Foundation.PrimaryKey Morai.Foundation.Runs

set_option autoImplicit false

/-- Where the rotation stands. `flushed` holds the rows its `UPDATE`s write,
seen by others from the commit on; after `aborted` nothing of it is left. -/
inductive Stage where
  | waiting
  | selected (rows : List UserDataKey)
  | flushed (changed : List UserDataKey)
  | committed
  | restarted
  | aborted
  deriving DecidableEq, Repr

/-- `creations` are the key rows of the open `create_user` transactions. -/
structure State where
  db : Database
  stage : Stage
  creations : List UserDataKey

inductive Action where
  | provision (userId : Uuid) (dek wrapNonce : Bytes)
  | commitCreation (row : UserDataKey)
  | rollbackCreation (row : UserDataKey)
  | select
  | flush (nonces : Nat → Bytes)
  | commitRotation
  | rollbackRotation
  | restart

variable (envelope : Envelope) (oldKek newKek : Bytes)

/-- The master key the web processes are configured with. -/
def webKek (stage : Stage) : Bytes := if stage = .restarted then newKek else oldKek

/-- What `provision_data_key` inserts. -/
def provisionedRow (kek : Bytes) (userId : Uuid) (dek wrapNonce : Bytes) : UserDataKey :=
  ⟨userId, 1, envelope.wrapDek dek kek wrapNonce, wrapNonce⟩

/-- What a web process inserts as the system stands. -/
def newKeyRow (state : State) (userId : Uuid) (dek wrapNonce : Bytes) : UserDataKey :=
  provisionedRow envelope (webKek oldKek newKek state.stage) userId dek wrapNonce

/-- Anyone's next statement, each reading what is committed when it runs. A
restart ends the open transactions of the web processes. -/
def step (state : State) : Action → Option State
  | .provision userId dek wrapNonce =>
      let row := newKeyRow envelope oldKek newKek state userId dek wrapNonce
      if state.db.userDataKeys.Has row.primaryKey then none
      else some { state with creations := row :: state.creations }
  | .commitCreation row =>
      if row ∈ state.creations then
        if present : state.db.userDataKeys.Has row.primaryKey then none
        else some { state with
          db := { state.db with userDataKeys := state.db.userDataKeys.push row present }
          creations := state.creations.erase row }
      else none
  | .rollbackCreation row => some { state with creations := state.creations.erase row }
  | .select =>
      match state.stage with
      | .waiting => some { state with
          stage := .selected (state.db.userDataKeys.rows.insertionSort LoadsBefore) }
      | _ => none
  | .flush nonces =>
      match state.stage with
      | .selected rows =>
          match rewrapRows envelope oldKek newKek nonces rows.zipIdx 0
              ⟨state.db.userDataKeys, []⟩ with
          | (.ok _, session) => some { state with stage := .flushed session.dirty }
          | (.error _, _) => none
      | _ => none
  | .commitRotation =>
      match state.stage with
      | .flushed changed => some { state with
          db := { state.db with userDataKeys := changed.foldl KeyedTable.put state.db.userDataKeys }
          stage := .committed }
      | _ => none
  | .rollbackRotation =>
      match state.stage with
      | .selected _ | .flushed _ => some { state with stage := .aborted }
      | _ => none
  | .restart =>
      match state.stage with
      | .committed => some { state with stage := .restarted, creations := [] }
      | _ => none

def start (db : Database) : State := ⟨db, .waiting, []⟩

/-- The rotation has read its rows and the web processes still have the old
key. -/
def Stage.Between : Stage → Prop
  | .selected _ | .flushed _ | .committed => True
  | .waiting | .restarted | .aborted => False

instance decidableBetween : ∀ stage : Stage, Decidable stage.Between
  | .selected _ | .flushed _ | .committed => isTrue trivial
  | .waiting | .restarted | .aborted => isFalse id

/-- No account is committed between the rotation's `SELECT` and the
restart. -/
def NoLateAccount (state : State) : Action → Prop
  | .commitCreation _ => ¬state.stage.Between
  | _ => True

instance decidableNoLateAccount (state : State) :
    ∀ action, Decidable (NoLateAccount state action)
  | .commitCreation _ => inferInstanceAs (Decidable (¬state.stage.Between))
  | .provision _ _ _ | .rollbackCreation _ | .select | .flush _ | .commitRotation
  | .rollbackRotation | .restart => isTrue trivial

def OpensUnder (kek : Bytes) (row : UserDataKey) : Prop :=
  ∃ dek, envelope.unwrapDek row.wrappedDek row.wrapNonce kek = some dek

/-- Every account is readable under the new master key, and the key can be
rotated again. -/
structure Readable (db : Database) : Prop where
  opens : ∀ row ∈ db.userDataKeys.rows, OpensUnder envelope newKek row
  rotates : ∀ newerKek nonces, ∃ count session,
    rotateKek envelope newKek newerKek nonces db = (.ok count, session)

theorem readable_iff (db : Database) :
    Readable envelope newKek db ↔ ∀ row ∈ db.userDataKeys.rows, OpensUnder envelope newKek row := by
  constructor
  · exact Readable.opens
  · intro opens
    refine ⟨opens, fun newerKek nonces => ?_⟩
    exact (rotate_kek_ok_iff envelope newKek newerKek nonces db).mpr opens

/-! ## What holds on every run -/

/-- The keys the rotation has yet to write. -/
def Stage.keys : Stage → List (Uuid × Int)
  | .selected rows => rows.map UserDataKey.primaryKey
  | .flushed changed => changed.map UserDataKey.primaryKey
  | .waiting | .committed | .restarted | .aborted => []

def WrappedUnder (kek : Bytes) (row : UserDataKey) : Prop :=
  ∃ dek, row.wrappedDek = envelope.wrapDek dek kek row.wrapNonce

structure Sound (state : State) : Prop where
  wrapped : ∀ row ∈ state.creations, WrappedUnder envelope (webKek oldKek newKek state.stage) row
  stored : ∀ wanted ∈ state.stage.keys, state.db.userDataKeys.Has wanted

/-- How far the rotation has got with the rows there are. -/
def Covers (state : State) : Prop :=
  match state.stage with
  | .waiting | .aborted => True
  | .selected rows => rows.Perm state.db.userDataKeys.rows
  | .flushed changed => ∃ rows, rows.Perm state.db.userDataKeys.rows ∧
      List.Forall₂ (Rewraps envelope oldKek newKek) rows changed
  | .committed | .restarted => ∀ row ∈ state.db.userDataKeys.rows, OpensUnder envelope newKek row

/-- A row under the old master key that the rotation will not write, once the
rotation has begun. -/
def Stranded (state : State) : Prop :=
  state.stage = .aborted ∨ (state.stage ≠ .waiting ∧ ∃ row ∈ state.db.userDataKeys.rows,
    WrappedUnder envelope oldKek row ∧ row.primaryKey ∉ state.stage.keys)

/-- All a step can do. -/
inductive Steps (state : State) : Action → State → Prop
  | provision (userId : Uuid) (dek wrapNonce : Bytes) (row : UserDataKey)
      (made : row = newKeyRow envelope oldKek newKek state userId dek wrapNonce) :
      Steps state (.provision userId dek wrapNonce)
        { state with creations := row :: state.creations }
  | commitCreation (row : UserDataKey) (opened : row ∈ state.creations)
      (fresh : ¬state.db.userDataKeys.Has row.primaryKey) :
      Steps state (.commitCreation row) { state with
        db := { state.db with userDataKeys := state.db.userDataKeys.push row fresh }
        creations := state.creations.erase row }
  | rollbackCreation (row : UserDataKey) :
      Steps state (.rollbackCreation row) { state with creations := state.creations.erase row }
  | select (waiting : state.stage = .waiting) :
      Steps state .select { state with
        stage := .selected (state.db.userDataKeys.rows.insertionSort LoadsBefore) }
  | flush (nonces : Nat → Bytes) (rows changed : List UserDataKey)
      (selected : state.stage = .selected rows)
      (rewrapped : List.Forall₂ (Rewraps envelope oldKek newKek) rows changed) :
      Steps state (.flush nonces) { state with stage := .flushed changed }
  | commitRotation (changed : List UserDataKey) (flushed : state.stage = .flushed changed) :
      Steps state .commitRotation { state with
        db := { state.db with userDataKeys := changed.foldl KeyedTable.put state.db.userDataKeys }
        stage := .committed }
  | rollbackRotation (old : webKek oldKek newKek state.stage = oldKek) :
      Steps state .rollbackRotation { state with stage := .aborted }
  | restart (committed : state.stage = .committed) :
      Steps state .restart { state with stage := .restarted, creations := [] }

theorem step_cases (state next : State) (action : Action)
    (stepped : step envelope oldKek newKek state action = some next) :
    Steps envelope oldKek newKek state action next := by
  cases action with
  | provision userId dek wrapNonce =>
      simp only [step] at stepped
      split_ifs at stepped
      cases stepped
      exact Steps.provision userId dek wrapNonce _ rfl
  | commitCreation row =>
      simp only [step] at stepped
      split_ifs at stepped with opened present
      cases stepped
      exact Steps.commitCreation row opened present
  | rollbackCreation row =>
      cases stepped
      exact Steps.rollbackCreation row
  | select =>
      cases stage : state.stage with
      | waiting =>
          simp only [step, stage, Option.some.injEq] at stepped
          rw [← stepped]
          exact Steps.select stage
      | _ => simp [step, stage] at stepped
  | flush nonces =>
      cases stage : state.stage with
      | selected rows =>
          simp only [step, stage] at stepped
          cases looped : rewrapRows envelope oldKek newKek nonces rows.zipIdx 0
              ⟨state.db.userDataKeys, []⟩ with
          | mk outcome session =>
              cases outcome with
              | error raised => simp [looped] at stepped
              | ok count =>
                  simp only [looped, Option.some.injEq] at stepped
                  obtain ⟨_, changed, dirty, all⟩ := rewrap_rows_returned envelope oldKek newKek
                    nonces rows.zipIdx 0 count _ session looped
                  rw [List.zipIdx_map_fst] at all
                  rw [← stepped, dirty]
                  exact Steps.flush nonces rows changed stage all
      | _ => simp [step, stage] at stepped
  | commitRotation =>
      cases stage : state.stage with
      | flushed changed =>
          simp only [step, stage, Option.some.injEq] at stepped
          rw [← stepped]
          exact Steps.commitRotation changed stage
      | _ => simp [step, stage] at stepped
  | rollbackRotation =>
      cases stage : state.stage with
      | selected rows =>
          simp only [step, stage, Option.some.injEq] at stepped
          rw [← stepped]
          exact Steps.rollbackRotation (by simp [stage, webKek])
      | flushed changed =>
          simp only [step, stage, Option.some.injEq] at stepped
          rw [← stepped]
          exact Steps.rollbackRotation (by simp [stage, webKek])
      | _ => simp [step, stage] at stepped
  | restart =>
      cases stage : state.stage with
      | committed =>
          simp only [step, stage, Option.some.injEq] at stepped
          rw [← stepped]
          exact Steps.restart stage
      | _ => simp [step, stage] at stepped

theorem sound_step (state next : State) (action : Action)
    (sound : Sound envelope oldKek newKek state)
    (stepped : Steps envelope oldKek newKek state action next) :
    Sound envelope oldKek newKek next := by
  cases stepped with
  | provision userId dek wrapNonce row made =>
      refine ⟨?_, sound.stored⟩
      intro other member
      cases List.mem_cons.mp member with
      | inl first =>
          rw [first, made]
          exact ⟨dek, rfl⟩
      | inr earlier => exact sound.wrapped other earlier
  | commitCreation row opened fresh =>
      constructor
      · intro other member
        exact sound.wrapped other (List.mem_of_mem_erase member)
      · intro wanted pending
        have present := sound.stored wanted pending
        simp only [KeyedTable.Has, KeyedTable.push, List.map_append, List.mem_append]
        exact Or.inl present
  | rollbackCreation row =>
      refine ⟨?_, sound.stored⟩
      intro other member
      exact sound.wrapped other (List.mem_of_mem_erase member)
  | select waiting =>
      constructor
      · intro row member
        have wrapped := sound.wrapped row member
        rw [waiting] at wrapped
        exact wrapped
      · intro wanted pending
        have perm := (List.perm_insertionSort LoadsBefore state.db.userDataKeys.rows).map
          UserDataKey.primaryKey
        exact perm.mem_iff.mp pending
  | flush nonces rows changed selected rewrapped =>
      constructor
      · intro row member
        have wrapped := sound.wrapped row member
        rw [selected] at wrapped
        exact wrapped
      · intro wanted pending
        apply sound.stored wanted
        rw [selected]
        simp only [Stage.keys] at pending ⊢
        rw [rewraps_keys envelope oldKek newKek rows changed rewrapped]
        exact pending
  | commitRotation changed flushed =>
      constructor
      · intro row member
        have wrapped := sound.wrapped row member
        rw [flushed] at wrapped
        exact wrapped
      · intro wanted pending
        cases pending
  | rollbackRotation old =>
      constructor
      · intro row member
        have wrapped := sound.wrapped row member
        rw [old] at wrapped
        exact wrapped
      · intro wanted pending
        cases pending
  | restart committed =>
      constructor
      · intro row member
        cases member
      · intro wanted pending
        cases pending

theorem opens_of_wrapped (kek : Bytes) (row : UserDataKey)
    (wrapped : WrappedUnder envelope kek row) : OpensUnder envelope kek row := by
  obtain ⟨dek, shape⟩ := wrapped
  refine ⟨dek, ?_⟩
  rw [shape, envelope.unwrap_wrap]

/-- Once the rewrapped rows are written over the rows they were read from,
every row opens under the new key. -/
theorem rewrapped_rows_open (table : KeyedTable UserDataKey.primaryKey)
    (rows changed : List UserDataKey) (perm : rows.Perm table.rows)
    (all : List.Forall₂ (Rewraps envelope oldKek newKek) rows changed) :
    ∀ row ∈ (changed.foldl KeyedTable.put table).rows, OpensUnder envelope newKek row := by
  intro row member
  have found := (get_eq_some_iff _ row.primaryKey row).mpr ⟨member, rfl⟩
  obtain ⟨others, written⟩ := flushed_rows envelope oldKek newKek table rows changed perm all
  by_cases present : table.Has row.primaryKey
  · obtain ⟨old, stored, sameKey⟩ := List.mem_map.mp present
    obtain ⟨next, ⟨dek, wrapNonce, _, shape⟩, holds⟩ := written old stored
    rw [sameKey, found] at holds
    cases holds
    refine ⟨dek, ?_⟩
    rw [shape]
    exact envelope.unwrap_wrap dek newKek wrapNonce
  · rw [others _ present] at found
    cases found

theorem covers_step (state next : State) (action : Action)
    (sound : Sound envelope oldKek newKek state) (covers : Covers envelope oldKek newKek state)
    (onTime : NoLateAccount state action)
    (stepped : Steps envelope oldKek newKek state action next) :
    Covers envelope oldKek newKek next := by
  cases stepped with
  | provision userId dek wrapNonce row made => exact covers
  | commitCreation row opened fresh =>
      cases stage : state.stage with
      | waiting => simp [Covers]
      | aborted => simp [Covers]
      | restarted =>
          have wrapped := sound.wrapped row opened
          simp only [Covers, stage] at covers ⊢
          simp only [stage, webKek, if_true] at wrapped
          intro other member
          cases List.mem_append.mp member with
          | inl old => exact covers other old
          | inr new =>
              rw [List.mem_singleton.mp new]
              exact opens_of_wrapped envelope newKek row wrapped
      | selected rows => exact absurd (by simp [Stage.Between, stage]) onTime
      | flushed changed => exact absurd (by simp [Stage.Between, stage]) onTime
      | committed => exact absurd (by simp [Stage.Between, stage]) onTime
  | rollbackCreation row => exact covers
  | select waiting => exact List.perm_insertionSort LoadsBefore state.db.userDataKeys.rows
  | flush nonces rows changed selected rewrapped =>
      simp only [Covers, selected] at covers
      exact ⟨rows, covers, rewrapped⟩
  | commitRotation changed flushed =>
      simp only [Covers, flushed] at covers
      obtain ⟨rows, perm, all⟩ := covers
      exact rewrapped_rows_open envelope oldKek newKek state.db.userDataKeys rows changed perm all
  | rollbackRotation old => trivial
  | restart committed =>
      simp only [Covers, committed] at covers
      exact covers

/-- A late commit leaves a row that nothing will rewrap. -/
theorem late_account_stranded (state next : State) (action : Action)
    (sound : Sound envelope oldKek newKek state) (late : ¬NoLateAccount state action)
    (stepped : Steps envelope oldKek newKek state action next) :
    Stranded envelope oldKek next := by
  cases stepped with
  | commitCreation row opened fresh =>
      have between : state.stage.Between := not_not.mp late
      have wrapped := sound.wrapped row opened
      have old : webKek oldKek newKek state.stage = oldKek := by
        cases stage : state.stage <;> simp_all [Stage.Between, webKek]
      rw [old] at wrapped
      refine Or.inr ⟨?_, row, ?_, wrapped, fun pending => fresh (sound.stored _ pending)⟩
      · intro waiting
        rw [show state.stage = .waiting from waiting] at between
        exact between
      · exact List.mem_append_right _ (List.mem_singleton_self row)
  | _ => exact absurd trivial late

theorem stranded_stays (state next : State) (action : Action)
    (stranded : Stranded envelope oldKek state)
    (stepped : Steps envelope oldKek newKek state action next) :
    Stranded envelope oldKek next := by
  cases stepped with
  | provision userId dek wrapNonce row made => exact stranded
  | commitCreation row opened fresh =>
      cases stranded with
      | inl aborted => exact Or.inl aborted
      | inr begun =>
          obtain ⟨notWaiting, old, stored, wrapped, missed⟩ := begun
          exact Or.inr ⟨notWaiting, old, List.mem_append_left _ stored, wrapped, missed⟩
  | rollbackCreation row => exact stranded
  | select waiting =>
      cases stranded with
      | inl aborted => exact absurd (waiting.symm.trans aborted) (by decide)
      | inr begun => exact absurd waiting begun.1
  | flush nonces rows changed selected rewrapped =>
      cases stranded with
      | inl aborted => exact absurd (selected.symm.trans aborted) (by simp)
      | inr begun =>
          obtain ⟨_, old, stored, wrapped, missed⟩ := begun
          refine Or.inr ⟨by simp, old, stored, wrapped, ?_⟩
          rw [selected] at missed
          simp only [Stage.keys] at missed ⊢
          rw [← rewraps_keys envelope oldKek newKek rows changed rewrapped]
          exact missed
  | commitRotation changed flushed =>
      cases stranded with
      | inl aborted => exact absurd (flushed.symm.trans aborted) (by simp)
      | inr begun =>
          obtain ⟨_, old, stored, wrapped, missed⟩ := begun
          rw [flushed] at missed
          have kept := fold_put_other state.db.userDataKeys changed old.primaryKey missed
          rw [(get_eq_some_iff _ old.primaryKey old).mpr ⟨stored, rfl⟩] at kept
          refine Or.inr ⟨by simp, old, ((get_eq_some_iff _ _ _).mp kept).1, wrapped, ?_⟩
          simp [Stage.keys]
  | rollbackRotation old => exact Or.inl rfl
  | restart committed =>
      cases stranded with
      | inl aborted => exact absurd (committed.symm.trans aborted) (by decide)
      | inr begun =>
          obtain ⟨_, old, stored, wrapped, _⟩ := begun
          exact Or.inr ⟨by simp, old, stored, wrapped, by simp [Stage.keys]⟩

/-- After a rotation that committed and the restart of the web processes,
every account is readable under the new master key exactly when no account was
committed between the rotation's `SELECT` and the restart. -/
theorem rotation_readable_iff (ideal : envelope.Ideal) (different : oldKek ≠ newKek)
    (db : Database) (actions : List Action) (final : State)
    (ran : runFrom (step envelope oldKek newKek) actions (start db) = some final)
    (done : final.stage = .restarted) :
    Readable envelope newKek final.db ↔
      Meets (step envelope oldKek newKek) NoLateAccount actions (start db) := by
  have initial : Sound envelope oldKek newKek (start db) ∧
      Covers envelope oldKek newKek (start db) := by
    refine ⟨⟨?_, ?_⟩, trivial⟩
    · intro row member
      cases member
    · intro wanted pending
      cases pending
  have split := run_splits (step envelope oldKek newKek) NoLateAccount
    (fun state => Sound envelope oldKek newKek state ∧ Covers envelope oldKek newKek state)
    (Stranded envelope oldKek)
    (fun state action next holds onTime stepped =>
      have taken := step_cases envelope oldKek newKek state next action stepped
      ⟨sound_step envelope oldKek newKek state next action holds.1 taken,
        covers_step envelope oldKek newKek state next action holds.1 holds.2 onTime taken⟩)
    (fun state action next holds late stepped =>
      late_account_stranded envelope oldKek newKek state next action holds.1 late
        (step_cases envelope oldKek newKek state next action stepped))
    (fun state action next stranded stepped =>
      stranded_stays envelope oldKek newKek state next action stranded
        (step_cases envelope oldKek newKek state next action stepped))
    actions (start db) final initial ran
  rw [readable_iff]
  cases split with
  | inl onTime =>
      have covers := onTime.2.2
      simp only [Covers, done] at covers
      exact iff_of_true covers onTime.1
  | inr late =>
      refine iff_of_false ?_ late.1
      intro opens
      cases late.2 with
      | inl aborted => exact absurd (done.symm.trans aborted) (by decide)
      | inr begun =>
          obtain ⟨_, row, stored, ⟨dek, shape⟩, _⟩ := begun
          obtain ⟨found, opened⟩ := opens row stored
          rw [shape] at opened
          exact different (ideal.unwrap_exact _ _ _ _ _ _ opened).2.symm

/-! ## Two runs -/

def keyRowOf (userId : Uuid) : UserDataKey := provisionedRow idealEnvelope [5] userId [7] [1]

def oneAccount : Database :=
  { Database.empty with userDataKeys := ⟨[keyRowOf ⟨1⟩], by decide⟩ }

def earlyAccount : List Action :=
  [.provision ⟨2⟩ [7] [1], .commitCreation (keyRowOf ⟨2⟩), .select, .flush (fun _ => [2]),
    .commitRotation, .restart]

def lateAccount : List Action :=
  [.provision ⟨2⟩ [7] [1], .select, .commitCreation (keyRowOf ⟨2⟩), .flush (fun _ => [2]),
    .commitRotation, .restart]

theorem rotation_readable_iff_early :
    ∃ final, runFrom (step idealEnvelope [5] [6]) earlyAccount (start oneAccount) = some final ∧
      final.stage = .restarted ∧ Readable idealEnvelope [6] final.db := by
  have computed : (runFrom (step idealEnvelope [5] [6]) earlyAccount (start oneAccount)).any
      (fun final => final.stage = .restarted) = true := by decide +kernel
  obtain ⟨present, holds⟩ := (Option.any_eq_true_iff_get _ _).mp computed
  have ran := (Option.some_get present).symm
  have done := of_decide_eq_true holds
  refine ⟨_, ran, done, ?_⟩
  exact (rotation_readable_iff idealEnvelope [5] [6] ideal_envelope_ideal (by decide) oneAccount
    earlyAccount _ ran done).mpr (by decide +kernel)

/-- An account committed between the `SELECT` and the flush: its key does not
open under the new master key, and the next rotation raises. -/
theorem late_account_unreadable :
    ∃ final, runFrom (step idealEnvelope [5] [6]) lateAccount (start oneAccount) = some final ∧
      final.stage = .restarted ∧
      (∃ row ∈ final.db.userDataKeys.rows, row.userId = ⟨2⟩ ∧
        idealEnvelope.unwrapDek row.wrappedDek row.wrapNonce [6] = none) ∧
      raisesOnly .invalidTag (rotateKek idealEnvelope [6] [8] (fun _ => [3]) final.db).1 = true := by
  have computed : (runFrom (step idealEnvelope [5] [6]) lateAccount (start oneAccount)).any
      (fun final => decide (final.stage = .restarted ∧
        (∃ row ∈ final.db.userDataKeys.rows, row.userId = ⟨2⟩ ∧
          idealEnvelope.unwrapDek row.wrappedDek row.wrapNonce [6] = none) ∧
        raisesOnly .invalidTag (rotateKek idealEnvelope [6] [8] (fun _ => [3]) final.db).1 =
          true)) = true := by decide +kernel
  obtain ⟨present, holds⟩ := (Option.any_eq_true_iff_get _ _).mp computed
  exact ⟨_, (Option.some_get present).symm, of_decide_eq_true holds⟩

end Morai.Crypto.RotationRace
