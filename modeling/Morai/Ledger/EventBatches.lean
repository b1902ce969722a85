import Mathlib.Data.List.TakeWhile
import Morai.Ledger.Events

/-!
# A batch with an invalid `ROLL`

`insert_events` meets the invalid event in the middle of its loop: the events
before it are in the session by then, and a caller that goes on commits them.
-/

namespace Morai.Ledger.EventBatches

open Morai.Crypto Morai.Db Morai.Python Morai.Foundation.PrimaryKey Morai.Ledger.Events

set_option autoImplicit false

/-- `COMMIT` by a caller that went on: what is pending is flushed, and a row
the database refuses, by a `CHECK` or for a position that is not there, ends
the transaction. -/
def commitEvents (positions : List Uuid) (before : List Event) (session : EventSession) :
    Option (List Event) :=
  match flush session with
  | (.error _, _) => none
  | (.ok (), flushed) =>
      if ∀ row ∈ flushed.stored.drop before.length, row.positionId ∈ positions then
        some flushed.stored
      else none

/-- What the database asks of an event besides the amounts of a `ROLL`. -/
structure Admitted (positions : List Uuid) (event : EventWrite) : Prop where
  type : event.eventType = "OPEN" ∨ event.eventType = "CLOSE" ∨ event.eventType = "ROLL" ∨
    event.eventType = "SETTLEMENT"
  position : event.positionId ∈ positions

instance decidableAdmitted (positions : List Uuid) (event : EventWrite) :
    Decidable (Admitted positions event) :=
  decidable_of_iff ((event.eventType = "OPEN" ∨ event.eventType = "CLOSE" ∨
    event.eventType = "ROLL" ∨ event.eventType = "SETTLEMENT") ∧ event.positionId ∈ positions)
    ⟨fun found => ⟨found.1, found.2⟩, fun admitted => ⟨admitted.type, admitted.position⟩⟩

/-- The events before the first invalid `ROLL`. -/
def validPrefix (events : List EventWrite) : List EventWrite :=
  events.takeWhile fun event => ¬RollWithoutBoth event

/-! ## How far the loops get -/

section Loops

variable (keys : KeyService) (userId : Uuid) (dek : Bytes) (keyVersion : Int)
  (draws : Nat → EventDraw)

def validIndexed (events : List (EventWrite × Nat)) : List (EventWrite × Nat) :=
  events.takeWhile fun event => ¬RollWithoutBoth event.1

def reached (events : List (EventWrite × Nat)) : Except Raised Unit :=
  if validIndexed events = events then .ok () else .error missingRollAmount

theorem valid_indexed_mem (events : List (EventWrite × Nat)) (event : EventWrite × Nat)
    (member : event ∈ validIndexed events) : ¬RollWithoutBoth event.1 := by
  have passed := List.mem_takeWhile_imp member
  exact of_decide_eq_true passed

theorem valid_indexed_cons (event : EventWrite × Nat) (rest : List (EventWrite × Nat)) :
    validIndexed (event :: rest) =
      if RollWithoutBoth event.1 then [] else event :: validIndexed rest := by
  unfold validIndexed
  rw [List.takeWhile_cons]
  by_cases bad : RollWithoutBoth event.1 <;> simp [bad]

theorem add_events_spec (events : List (EventWrite × Nat)) (session : EventSession) :
    addEvents keys userId dek keyVersion draws events session =
      (reached events, { session with
        pending := session.pending ++
          eventRows keys userId dek keyVersion draws (validIndexed events) }) := by
  induction events generalizing session with
  | nil => simp [addEvents, reached, validIndexed, eventRows]
  | cons event rest ih =>
      by_cases bad : RollWithoutBoth event.1
      · simp [addEvents, reached, valid_indexed_cons, eventRows, bad]
      · rw [addEvents, if_neg bad, ih]
        simp [reached, valid_indexed_cons, eventRows, bad]

theorem roll_has_both_legs (draw : EventDraw) (event : EventWrite)
    (valid : ¬RollWithoutBoth event) :
    RollHasBothLegs (eventRow keys userId dek keyVersion draw event) := by
  by_cases roll : event.eventType = "ROLL"
  · right
    simp only [RollWithoutBoth, roll, true_and, not_or] at valid
    constructor
    · cases openDebit : event.openDebitUsd with
      | none => exact absurd openDebit valid.1
      | some amount => simp [eventRow, encryptDecimal, openDebit]
    · cases closeCredit : event.closeCreditUsd with
      | none => exact absurd closeCredit valid.2
      | some amount => simp [eventRow, encryptDecimal, closeCredit]
  · exact Or.inl roll

theorem valid_rows_legs (events : List (EventWrite × Nat)) :
    ∀ row ∈ eventRows keys userId dek keyVersion draws (validIndexed events), RollHasBothLegs row := by
  intro row member
  obtain ⟨event, eventMember, shape⟩ := List.mem_map.mp member
  rw [← shape]
  exact roll_has_both_legs keys userId dek keyVersion _ event.1
    (valid_indexed_mem events event eventMember)

theorem flush_cases (session : EventSession)
    (legs : ∀ row ∈ session.pending, RollHasBothLegs row) :
    (∀ row ∈ session.pending, EventTypeCheck row) ∧
        flush session = (.ok (), ⟨session.stored ++ session.pending, []⟩) ∨
      (∃ row ∈ session.pending, ¬EventTypeCheck row) ∧
        ∃ raised, flush session = (.error raised, session) := by
  unfold flush
  by_cases typed : ∀ row ∈ session.pending, EventTypeCheck row
  · left
    rw [if_pos typed, if_pos legs]
    exact ⟨typed, rfl⟩
  · right
    rw [if_neg typed]
    push Not at typed
    exact ⟨typed, _, rfl⟩

theorem valid_indexed_append (left right : List (EventWrite × Nat)) :
    validIndexed (left ++ right) =
      if validIndexed left = left then left ++ validIndexed right else validIndexed left := by
  unfold validIndexed
  rw [List.takeWhile_append]
  by_cases whole : left.takeWhile (fun event => ¬RollWithoutBoth event.1) = left
  · rw [if_pos whole, if_pos (congrArg List.length whole)]
  · rw [if_neg whole, if_neg]
    intro size
    exact whole ((List.takeWhile_prefix _).eq_of_length size)

theorem reached_append (left right : List (EventWrite × Nat)) :
    reached (left ++ right) = if validIndexed left = left then reached right else reached left := by
  unfold reached
  rw [valid_indexed_append]
  by_cases whole : validIndexed left = left
  · simp only [whole, if_true, List.append_cancel_left_eq]
  · have shorter : validIndexed left ≠ left ++ right := by
      intro same
      have size := congrArg List.length same
      have bound := (List.takeWhile_sublist (fun event => ¬RollWithoutBoth event.1) (l := left)).length_le
      rw [List.length_append] at size
      unfold validIndexed at size whole
      exact whole ((List.takeWhile_prefix _).eq_of_length (by omega))
    simp only [whole, shorter, if_false]

/-- Where the database takes every event before the first invalid `ROLL`, the
session holds them all, stored or pending. -/
theorem insert_event_chunks_typed (chunks : List (List (EventWrite × Nat))) (stored : List Event)
    (typed : ∀ row ∈ eventRows keys userId dek keyVersion draws (validIndexed chunks.flatten),
      EventTypeCheck row) :
    ∃ session, insertEventChunks keys userId dek keyVersion draws chunks ⟨stored, []⟩ =
        (reached chunks.flatten, session) ∧
      session.stored ++ session.pending = stored ++
        eventRows keys userId dek keyVersion draws (validIndexed chunks.flatten) ∧
      ∀ row ∈ session.pending, EventTypeCheck row ∧ RollHasBothLegs row := by
  induction chunks generalizing stored with
  | nil => exact ⟨⟨stored, []⟩, rfl, rfl, by simp⟩
  | cons chunk rest ih =>
      rw [List.flatten_cons, valid_indexed_append] at typed ⊢
      rw [reached_append, insertEventChunks, add_events_spec, List.nil_append]
      have legs := valid_rows_legs keys userId dek keyVersion draws chunk
      by_cases whole : validIndexed chunk = chunk
      · simp only [whole, if_true] at typed legs ⊢
        rw [eventRows, List.map_append] at typed
        have own := fun row member => typed row (List.mem_append_left _ member)
        have later := fun row member => typed row (List.mem_append_right _ member)
        have flushed := flush_ok ⟨stored, eventRows keys userId dek keyVersion draws chunk⟩
          fun row member => ⟨own row member, legs row member⟩
        have all : reached chunk = .ok () := if_pos whole
        simp only [all, flushed]
        obtain ⟨session, ran, rows, pending⟩ := ih _ later
        refine ⟨session, ran, ?_, pending⟩
        rw [rows, eventRows, eventRows, eventRows, List.map_append, List.append_assoc]
      · simp only [whole, if_false] at typed ⊢
        have stopped : reached chunk = .error missingRollAmount := if_neg whole
        simp only [stopped]
        exact ⟨_, rfl, rfl, fun row member => ⟨typed row member, legs row member⟩⟩

/-- Otherwise the run raises and leaves a row pending that cannot be stored. -/
theorem insert_event_chunks_untyped (chunks : List (List (EventWrite × Nat))) (stored : List Event)
    (odd : ∃ row ∈ eventRows keys userId dek keyVersion draws (validIndexed chunks.flatten),
      ¬EventTypeCheck row) :
    ∃ raised session, insertEventChunks keys userId dek keyVersion draws chunks ⟨stored, []⟩ =
        (.error raised, session) ∧ ∃ row ∈ session.pending, ¬EventTypeCheck row := by
  induction chunks generalizing stored with
  | nil => simp [validIndexed, eventRows] at odd
  | cons chunk rest ih =>
      rw [List.flatten_cons, valid_indexed_append] at odd
      rw [insertEventChunks, add_events_spec, List.nil_append]
      have legs := valid_rows_legs keys userId dek keyVersion draws chunk
      by_cases whole : validIndexed chunk = chunk
      · simp only [whole, if_true] at odd legs ⊢
        have all : reached chunk = .ok () := if_pos whole
        simp only [all]
        cases flush_cases ⟨stored, eventRows keys userId dek keyVersion draws chunk⟩ legs with
        | inl passed =>
            obtain ⟨typed, flushed⟩ := passed
            simp only [flushed]
            apply ih
            obtain ⟨row, member, untyped⟩ := odd
            rw [eventRows, List.map_append] at member
            cases List.mem_append.mp member with
            | inl own => exact absurd (typed row own) untyped
            | inr later => exact ⟨row, later, untyped⟩
        | inr refused =>
            obtain ⟨untyped, raised, flushed⟩ := refused
            simp only [flushed]
            exact ⟨raised, _, rfl, untyped⟩
      · simp only [whole, if_false] at odd ⊢
        have stopped : reached chunk = .error missingRollAmount := if_neg whole
        simp only [stopped]
        exact ⟨_, _, rfl, odd⟩

end Loops

/-! ## What a commit keeps -/

theorem commit_typed (positions : List Uuid) (before rows : List Event) (session : EventSession)
    (held : session.stored ++ session.pending = before ++ rows)
    (checks : ∀ row ∈ session.pending, EventTypeCheck row ∧ RollHasBothLegs row) :
    commitEvents positions before session =
      if ∀ row ∈ rows, row.positionId ∈ positions then some (before ++ rows) else none := by
  unfold commitEvents
  rw [flush_ok session checks]
  simp only [held, List.drop_left]

theorem commit_untyped (positions : List Uuid) (before : List Event) (session : EventSession)
    (odd : ∃ row ∈ session.pending, ¬EventTypeCheck row) :
    commitEvents positions before session = none := by
  obtain ⟨row, member, untyped⟩ := odd
  unfold commitEvents flush
  rw [if_neg fun typed => untyped (typed row member)]

section Batch

variable (keys : KeyService) (draws : Nat → EventDraw) (positions : List Uuid) (userId : Uuid)
  (events : List EventWrite) (db : Database) (dek : Bytes) (keyVersion : Int)

theorem valid_indexed_events : (validIndexed events.zipIdx).map Prod.fst = validPrefix events := by
  have listed : (events.zipIdx.map Prod.fst).takeWhile (fun event => ¬RollWithoutBoth event) =
      (events.zipIdx.takeWhile ((fun event => decide ¬RollWithoutBoth event) ∘ Prod.fst)).map
        Prod.fst := List.takeWhile_map
  rw [List.zipIdx_map_fst] at listed
  exact listed.symm

theorem valid_prefix_whole :
    validPrefix events = events ↔ ∀ event ∈ events, ¬RollWithoutBoth event := by
  unfold validPrefix
  rw [List.takeWhile_eq_self_iff]
  simp only [decide_eq_true_eq]

theorem reached_ok_iff :
    reached events.zipIdx = .ok () ↔ ∀ event ∈ events, ¬RollWithoutBoth event := by
  have whole : validIndexed events.zipIdx = events.zipIdx ↔
      ∀ event ∈ events.zipIdx, ¬RollWithoutBoth event.1 := by
    unfold validIndexed
    rw [List.takeWhile_eq_self_iff]
    simp only [decide_eq_true_eq]
  have listed : (∀ event ∈ events.zipIdx, ¬RollWithoutBoth event.1) ↔
      ∀ event ∈ events.zipIdx.map Prod.fst, ¬RollWithoutBoth event := by
    rw [List.forall_mem_map]
  unfold reached
  rw [List.zipIdx_map_fst] at listed
  rw [← listed, ← whole]
  split_ifs with all <;> simp [all]

/-- The rows of the events before the first invalid `ROLL`. -/
def validRows : List Event := eventRows keys userId dek keyVersion draws (validIndexed events.zipIdx)

theorem valid_rows_admitted : (∀ event ∈ validPrefix events, Admitted positions event) ↔
    (∀ row ∈ validRows keys draws userId events dek keyVersion, EventTypeCheck row) ∧
      ∀ row ∈ validRows keys draws userId events dek keyVersion, row.positionId ∈ positions := by
  rw [← valid_indexed_events, List.forall_mem_map, ← forall₂_and, validRows, eventRows,
    List.forall_mem_map]
  constructor
  · intro all event member
    exact ⟨(all event member).type, (all event member).position⟩
  · intro all event member
    exact ⟨(all event member).1, (all event member).2⟩

/-- The outcome, and what a caller that goes on commits. -/
theorem insert_events_commits (current : currentDek keys db userId = .ok (dek, keyVersion)) :
    ((∀ event ∈ validPrefix events, Admitted positions event) ∧
        (insertEvents keys draws userId events db).1 = reached events.zipIdx ∧
        commitEvents positions db.events (insertEvents keys draws userId events db).2 =
          some (db.events ++ validRows keys draws userId events dek keyVersion)) ∨
      (∃ event ∈ validPrefix events, ¬Admitted positions event) ∧
        (reached events.zipIdx ≠ .ok () →
          ∃ raised, (insertEvents keys draws userId events db).1 = .error raised) ∧
        commitEvents positions db.events (insertEvents keys draws userId events db).2 = none := by
  have whole := chunks_of_flatten chunkSize events.zipIdx (by decide)
  have typedRun := insert_event_chunks_typed keys userId dek keyVersion draws
    (chunksOf chunkSize events.zipIdx) db.events
  have untypedRun := insert_event_chunks_untyped keys userId dek keyVersion draws
    (chunksOf chunkSize events.zipIdx) db.events
  rw [whole] at typedRun untypedRun
  have admitted := valid_rows_admitted keys draws positions userId events dek keyVersion
  simp only [insertEvents, current]
  by_cases typed : ∀ row ∈ validRows keys draws userId events dek keyVersion, EventTypeCheck row
  · obtain ⟨session, ran, rows, checks⟩ := typedRun typed
    have commits := commit_typed positions db.events _ session rows checks
    rw [ran]
    by_cases placed : ∀ row ∈ validRows keys draws userId events dek keyVersion,
        row.positionId ∈ positions
    · left
      rw [validRows] at placed ⊢
      rw [if_pos placed] at commits
      exact ⟨admitted.mpr ⟨typed, placed⟩, rfl, commits⟩
    · right
      have refused : ¬∀ event ∈ validPrefix events, Admitted positions event :=
        fun all => placed (admitted.mp all).2
      push Not at refused
      rw [validRows] at placed
      rw [if_neg placed] at commits
      refine ⟨refused, ?_, commits⟩
      intro stopped
      cases ended : reached events.zipIdx with
      | error raised => exact ⟨raised, rfl⟩
      | ok done => exact absurd ended stopped
  · right
    have refused : ¬∀ event ∈ validPrefix events, Admitted positions event :=
      fun all => typed (admitted.mp all).1
    push Not at refused typed
    obtain ⟨raised, session, ran, odd⟩ := untypedRun typed
    rw [ran]
    exact ⟨refused, fun _ => ⟨raised, rfl⟩, commit_untyped positions db.events session odd⟩

/-- An invalid `ROLL` anywhere raises and leaves nothing to commit; without one
every event is stored once, with its own amounts. -/
structure AllOrNothing : Prop where
  raises : (∃ event ∈ events, RollWithoutBoth event) →
    ∃ raised, (insertEvents keys draws userId events db).1 = .error raised
  nothing : (∃ event ∈ events, RollWithoutBoth event) → ∀ table,
    commitEvents positions db.events (insertEvents keys draws userId events db).2 = some table →
      table = db.events
  all : (∀ event ∈ events, ¬RollWithoutBoth event) →
    (insertEvents keys draws userId events db).1 = .ok () ∧ ∃ rows,
      commitEvents positions db.events (insertEvents keys draws userId events db).2 =
        some (db.events ++ rows) ∧
      List.Forall₂ (fun event row =>
        readEvent keys db userId row = .ok (eventRecordOf userId keyVersion row.id event)) events rows

/-- The first invalid `ROLL` has nothing before it that could be stored whole;
without one the database takes every event. -/
structure NothingToKeep : Prop where
  invalid : (∃ event ∈ events, RollWithoutBoth event) →
    validPrefix events = [] ∨ ∃ event ∈ validPrefix events, ¬Admitted positions event
  valid : (∀ event ∈ events, ¬RollWithoutBoth event) → ∀ event ∈ events, Admitted positions event

theorem no_roll_iff : (¬∃ event ∈ events, RollWithoutBoth event) ↔
    ∀ event ∈ events, ¬RollWithoutBoth event := by
  push Not
  exact Iff.rfl

theorem event_rows_read (current : currentDek keys db userId = .ok (dek, keyVersion))
    (indexed : List (EventWrite × Nat)) :
    List.Forall₂ (fun event row =>
      readEvent keys db userId row = .ok (eventRecordOf userId keyVersion row.id event))
      (indexed.map Prod.fst) (eventRows keys userId dek keyVersion draws indexed) := by
  unfold eventRows
  rw [List.forall₂_map_left_iff, List.forall₂_map_right_iff, List.forall₂_same]
  intro event _
  exact read_event_row keys db userId dek keyVersion (draws event.2) event.1 current

/-- Without an invalid `ROLL`, what counts is that the database takes every
event. -/
theorem valid_batch_iff (current : currentDek keys db userId = .ok (dek, keyVersion))
    (valid : ∀ event ∈ events, ¬RollWithoutBoth event) :
    AllOrNothing keys draws positions userId events db keyVersion ↔
      ∀ event ∈ events, Admitted positions event := by
  have none : ¬∃ event ∈ events, RollWithoutBoth event := (no_roll_iff events).mpr valid
  have all := (valid_prefix_whole events).mpr valid
  have commits := insert_events_commits keys draws positions userId events db dek keyVersion current
  rw [all] at commits
  cases commits with
  | inl stored =>
      obtain ⟨admitted, outcome, committed⟩ := stored
      have whole : validIndexed events.zipIdx = events.zipIdx := by
        unfold validIndexed
        rw [List.takeWhile_eq_self_iff]
        intro event member
        exact decide_eq_true (valid event.1 (List.fst_mem_of_mem_zipIdx member))
      have reads := event_rows_read keys draws userId db dek keyVersion current events.zipIdx
      rw [List.zipIdx_map_fst] at reads
      constructor
      · intro _
        exact admitted
      · intro _
        refine ⟨fun bad => absurd bad none, fun bad => absurd bad none, fun _ =>
          ⟨outcome.trans ((reached_ok_iff events).mpr valid), _, committed, ?_⟩⟩
        rw [validRows, whole]
        exact reads
  | inr refused =>
      obtain ⟨⟨event, member, odd⟩, _, committed⟩ := refused
      constructor
      · intro batch
        obtain ⟨_, rows, kept, _⟩ := batch.all valid
        rw [committed] at kept
        cases kept
      · intro admitted
        exact absurd (admitted event member) odd

/-- With one, the call raises, and nothing is kept where nothing before it
could be. -/
theorem invalid_batch_iff (current : currentDek keys db userId = .ok (dek, keyVersion))
    (bad : ∃ event ∈ events, RollWithoutBoth event) :
    AllOrNothing keys draws positions userId events db keyVersion ↔
      validPrefix events = [] ∨ ∃ event ∈ validPrefix events, ¬Admitted positions event := by
  have invalid : ¬∀ event ∈ events, ¬RollWithoutBoth event :=
    fun free => (no_roll_iff events).mpr free bad
  have stopped : reached events.zipIdx ≠ .ok () :=
    fun ended => invalid ((reached_ok_iff events).mp ended)
  cases insert_events_commits keys draws positions userId events db dek keyVersion current with
  | inl stored =>
      obtain ⟨admitted, outcome, committed⟩ := stored
      have nobody : ¬∃ event ∈ validPrefix events, ¬Admitted positions event := by
        intro odd
        obtain ⟨event, member, other⟩ := odd
        exact other (admitted event member)
      have empty : validRows keys draws userId events dek keyVersion = [] ↔
          validPrefix events = [] := by
        rw [validRows, eventRows, List.map_eq_nil_iff, ← valid_indexed_events, List.map_eq_nil_iff]
      rw [or_iff_left nobody, ← empty]
      constructor
      · intro batch
        simpa using batch.nothing bad _ committed
      · intro none
        refine ⟨fun _ => ?_, fun _ table kept => ?_, fun free => absurd free invalid⟩
        · cases ended : reached events.zipIdx with
          | error raised => exact ⟨raised, outcome.trans ended⟩
          | ok done => exact absurd ended stopped
        · rw [committed, none, List.append_nil, Option.some.injEq] at kept
          exact kept.symm
  | inr refused =>
      obtain ⟨odd, raises, committed⟩ := refused
      constructor
      · intro _
        exact Or.inr odd
      · intro _
        refine ⟨fun _ => raises stopped, fun _ table kept => ?_, fun free => absurd free invalid⟩
        rw [committed] at kept
        cases kept

/-- **A batch is all or nothing exactly where nothing that could be stored
comes before its first invalid `ROLL`.** -/
theorem insert_events_all_or_nothing_iff
    (current : currentDek keys db userId = .ok (dek, keyVersion)) :
    AllOrNothing keys draws positions userId events db keyVersion ↔
      NothingToKeep positions events := by
  by_cases valid : ∀ event ∈ events, ¬RollWithoutBoth event
  · have none : ¬∃ event ∈ events, RollWithoutBoth event := (no_roll_iff events).mpr valid
    rw [valid_batch_iff keys draws positions userId events db dek keyVersion current valid]
    constructor
    · intro admitted
      exact ⟨fun bad => absurd bad none, fun _ => admitted⟩
    · intro keeps
      exact keeps.valid valid
  · have bad : ∃ event ∈ events, RollWithoutBoth event :=
      not_not.mp fun none => valid ((no_roll_iff events).mp none)
    rw [invalid_batch_iff keys draws positions userId events db dek keyVersion current bad]
    constructor
    · intro nothing
      exact ⟨fun _ => nothing, fun free => absurd free valid⟩
    · intro keeps
      exact keeps.invalid bad

end Batch

/-! ## An open event and half a roll -/

def keyedUser : Database :=
  { Database.empty with userDataKeys := ⟨[⟨⟨1⟩, 1, [7], [4]⟩], by decide⟩ }

def plainEventDraw (index : Nat) : EventDraw := ⟨⟨Fin.ofNat _ index⟩, [1], [2]⟩

def openEvent : EventWrite := ⟨⟨9⟩, "OPEN", 5, none, some ⟨1250, -2⟩, none⟩

def halfRoll : EventWrite := ⟨⟨9⟩, "ROLL", 6, none, some ⟨1250, -2⟩, none⟩

theorem insert_events_all_or_nothing_iff_first :
    AllOrNothing plainKeys plainEventDraw [⟨9⟩] ⟨1⟩ [halfRoll, openEvent] keyedUser 1 :=
  (insert_events_all_or_nothing_iff plainKeys plainEventDraw [⟨9⟩] ⟨1⟩ [halfRoll, openEvent]
    keyedUser [7] 1 (by decide)).mpr
      ⟨fun _ => Or.inl (by decide), fun free => absurd free (by decide)⟩

theorem event_before_half_roll_kept :
    ¬AllOrNothing plainKeys plainEventDraw [⟨9⟩] ⟨1⟩ [openEvent, halfRoll] keyedUser 1 := by
  intro holds
  have bad : ∃ event ∈ [openEvent, halfRoll], RollWithoutBoth event := by decide
  have kept : (commitEvents [⟨9⟩] keyedUser.events
      (insertEvents plainKeys plainEventDraw ⟨1⟩ [openEvent, halfRoll] keyedUser).2).map
        List.length = some 1 := by decide +kernel
  obtain ⟨table, committed, size⟩ := Option.map_eq_some_iff.mp kept
  rw [holds.nothing bad table committed] at size
  revert size
  decide

end Morai.Ledger.EventBatches
