import Morai.Foundation.KeyedTable

/-!
# Attempts inside a transaction

An attempt runs on what an open transaction sees. It may never end, and one
that raises leaves in the transaction's view whatever it had written by then;
only the session says what is committed.
-/

namespace Morai.Foundation.Attempts

open Morai.Foundation.PrimaryKey

set_option autoImplicit false

def Attempt (State Error Value : Type) : Type := State → Option (Except Error Value × State)

instance (State Error : Type) : Monad (Attempt State Error) where
  pure value := fun state => some (.ok value, state)
  bind first later := fun state =>
    match first state with
    | none => none
    | some (.error raised, after) => some (.error raised, after)
    | some (.ok value, after) => later value after

variable {State Error Value Result : Type}

/-- A query, or a computation that writes nothing. -/
def reads (query : State → Except Error Value) : Attempt State Error Value :=
  fun state => some (query state, state)

/-- A computation that writes nothing and may never end. -/
def awaits (query : State → Option (Except Error Value)) : Attempt State Error Value :=
  fun state => (query state).map fun outcome => (outcome, state)

/-- A statement that raised wrote nothing. -/
def writes (change : State → Except Error (Value × State)) : Attempt State Error Value :=
  fun state =>
    match change state with
    | .error raised => some (.error raised, state)
    | .ok (value, after) => some (.ok value, after)

/-- A point at which something outside the program can raise. -/
def reach (fault : Option Error) : Attempt State Error Unit :=
  fun state =>
    match fault with
    | none => some (.ok (), state)
    | some raised => some (.error raised, state)

/-! ## Sessions -/

structure Session (State : Type) where
  committed : State
  seen : State

namespace Session

def start (committed : State) : Session State := ⟨committed, committed⟩

def perform (session : Session State) (attempt : Attempt State Error Value) :
    Option (Except Error Value × Session State) :=
  (attempt session.seen).map fun ended => (ended.1, { session with seen := ended.2 })

def rollback (session : Session State) : Session State := start session.committed

def commit (session : Session State) : Session State := start session.seen

theorem perform_eq (session : Session State) (attempt : Attempt State Error Value)
    (outcome : Except Error Value) (after : State)
    (ran : attempt session.seen = some (outcome, after)) :
    session.perform attempt = some (outcome, { session with seen := after }) :=
  congrArg (Option.map _) ran

/-- Whatever an attempt wrote, a rollback returns to what was committed. -/
theorem perform_rollback (committed : State) (attempt : Attempt State Error Value)
    (outcome : Except Error Value) (session : Session State)
    (performed : (start committed).perform attempt = some (outcome, session)) :
    session.rollback = start committed := by
  obtain ⟨ended, _, shape⟩ := Option.map_eq_some_iff.mp performed
  cases shape
  rfl

end Session

/-! ## Transactions in a row

Outside its transactions a program acts on what is committed. -/

/-- The body and then `COMMIT`; whatever raises before the commit is through
leaves nothing behind. -/
def transaction (fault : Option Error) (body : Attempt State Error Value) :
    Attempt State Error Value :=
  fun committed =>
    match body committed with
    | none => none
    | some (.error raised, _) => some (.error raised, committed)
    | some (.ok value, seen) =>
        match fault with
        | some raised => some (.error raised, committed)
        | none => some (.ok value, seen)

def raises (raised : Error) : Attempt State Error Value :=
  fun state => some (.error raised, state)

/-- However it ends, the attempt leaves a state the invariant holds in. -/
def Keeps (invariant : State → Prop) (attempt : Attempt State Error Value) : Prop :=
  ∀ state outcome after, invariant state → attempt state = some (outcome, after) → invariant after

section Invariants

variable (invariant : State → Prop)

theorem keeps_raises (raised : Error) :
    Keeps invariant (raises raised : Attempt State Error Value) := by
  intro state outcome after holds ran
  cases ran
  exact holds

theorem keeps_pure (value : Value) : Keeps invariant (pure value : Attempt State Error Value) := by
  intro state outcome after holds ran
  cases ran
  exact holds

theorem keeps_reads (query : State → Except Error Value) : Keeps invariant (reads query) := by
  intro state outcome after holds ran
  cases ran
  exact holds

/-- What follows need only keep the invariant where something can have been
returned. -/
theorem keeps_bind_returned (first : Attempt State Error Value)
    (later : Value → Attempt State Error Result) (here : Keeps invariant first)
    (there : ∀ value state middle, invariant state → first state = some (.ok value, middle) →
      Keeps invariant (later value)) : Keeps invariant (first >>= later) := by
  intro state outcome after holds ran
  simp only [bind] at ran
  split at ran
  · cases ran
  · rename_i raised middle reached
    cases ran
    exact here state _ _ holds reached
  · rename_i value middle reached
    exact there value state middle holds reached middle outcome after
      (here state _ _ holds reached) ran

theorem keeps_bind (first : Attempt State Error Value) (later : Value → Attempt State Error Result)
    (here : Keeps invariant first) (there : ∀ value, Keeps invariant (later value)) :
    Keeps invariant (first >>= later) :=
  keeps_bind_returned invariant first later here fun value _ _ _ _ => there value

/-- A transaction is judged by what its body has done once it returned. -/
theorem keeps_transaction (fault : Option Error) (body : Attempt State Error Value)
    (returned : ∀ state value after, invariant state → body state = some (.ok value, after) →
      invariant after) : Keeps invariant (transaction fault body) := by
  intro state outcome after holds ran
  unfold transaction at ran
  split at ran
  · cases ran
  · cases ran
    exact holds
  · rename_i value seen ended
    cases fault with
    | some raised =>
        cases ran
        exact holds
    | none =>
        cases ran
        exact returned state value _ holds ended

end Invariants

/-! ## Attempts and the functions they carry out -/

/-- The attempt carries out the plan: what it returned is what the plan
returns, and when nothing outside disturbs it it ends as the plan does. -/
structure CarriesOut (undisturbed : Prop) (attempt : Attempt State Error Value)
    (plan : State → Except Error (Value × State)) : Prop where
  returned : ∀ state value after, attempt state = some (.ok value, after) →
    plan state = .ok (value, after)
  ends : undisturbed → ∀ state, ∃ after, attempt state = some ((plan state).map Prod.fst, after)

theorem bind_eq_some (first : Attempt State Error Value)
    (later : Value → Attempt State Error Result) (state : State) (result : Result) (after : State)
    (ran : (first >>= later) state = some (.ok result, after)) :
    ∃ value middle, first state = some (.ok value, middle) ∧
      later value middle = some (.ok result, after) := by
  simp only [bind] at ran
  split at ran
  · cases ran
  · cases ran
  · rename_i value middle reached
    exact ⟨value, middle, reached, ran⟩

theorem bind_returned (first : Attempt State Error Value)
    (later : Value → Attempt State Error Result) (state middle : State) (value : Value)
    (ran : first state = some (.ok value, middle)) : (first >>= later) state = later value middle := by
  simp only [bind, ran]

theorem reads_ok (query : State → Except Error Value) (state after : State) (value : Value)
    (ran : reads query state = some (.ok value, after)) :
    query state = .ok value ∧ after = state := by
  obtain ⟨queried, same⟩ := Prod.mk.inj (Option.some.inj ran)
  exact ⟨queried, same.symm⟩

theorem awaits_ok (query : State → Option (Except Error Value)) (state after : State)
    (value : Value) (ran : awaits query state = some (.ok value, after)) :
    query state = some (.ok value) ∧ after = state := by
  obtain ⟨outcome, queried, shape⟩ := Option.map_eq_some_iff.mp ran
  obtain ⟨same, unchanged⟩ := Prod.mk.inj shape
  exact ⟨same ▸ queried, unchanged.symm⟩

theorem reach_ok (fault : Option Error) (state after : State)
    (ran : reach fault state = some (.ok (), after)) : after = state := by
  cases fault with
  | none =>
      cases ran
      rfl
  | some raised => cases ran

theorem writes_ok (change : State → Except Error (Value × State)) (state after : State)
    (value : Value) (ran : writes change state = some (.ok value, after)) :
    change state = .ok (value, after) := by
  unfold writes at ran
  split at ran
  · cases ran
  · rename_i changed
    cases ran
    exact changed

theorem reach_bind_ok (fault : Option Error) (later : Attempt State Error Result) (state after : State)
    (result : Result)
    (ran : (reach fault >>= fun _ => later) state = some (.ok result, after)) :
    later state = some (.ok result, after) := by
  obtain ⟨_, middle, reached, ran⟩ := bind_eq_some _ _ state result after ran
  rwa [reach_ok fault state middle reached] at ran

theorem reads_bind_ok (query : State → Except Error Value)
    (later : Value → Attempt State Error Result) (state after : State) (result : Result)
    (ran : (reads query >>= later) state = some (.ok result, after)) :
    ∃ value, query state = .ok value ∧ later value state = some (.ok result, after) := by
  obtain ⟨value, middle, queried, ran⟩ := bind_eq_some _ _ state result after ran
  obtain ⟨found, same⟩ := reads_ok query state middle value queried
  exact ⟨value, found, same ▸ ran⟩

theorem writes_bind_ok (change : State → Except Error (Value × State))
    (later : Value → Attempt State Error Result) (state after : State) (result : Result)
    (ran : (writes change >>= later) state = some (.ok result, after)) :
    ∃ value middle, change state = .ok (value, middle) ∧
      later value middle = some (.ok result, after) := by
  obtain ⟨value, middle, written, ran⟩ := bind_eq_some _ _ state result after ran
  exact ⟨value, middle, writes_ok change state middle value written, ran⟩

variable {undisturbed : Prop}

theorem carries_out_pure (value : Value) :
    CarriesOut undisturbed (pure value : Attempt State Error Value)
      fun state => .ok (value, state) := by
  constructor
  · intro state other after ran
    cases ran
    rfl
  · intro _ state
    exact ⟨state, rfl⟩

theorem carries_out_writes (change : State → Except Error (Value × State)) :
    CarriesOut undisturbed (writes change) change := by
  constructor
  · intro state value after ran
    exact writes_ok change state after value ran
  · intro _ state
    unfold writes
    cases change state with
    | error raised => exact ⟨state, rfl⟩
    | ok ended => exact ⟨ended.2, rfl⟩

theorem carries_out_bind (first : Attempt State Error Value)
    (later : Value → Attempt State Error Result) (plan : State → Except Error (Value × State))
    (laterPlan : Value → State → Except Error (Result × State))
    (here : CarriesOut undisturbed first plan)
    (there : ∀ value, CarriesOut undisturbed (later value) (laterPlan value)) :
    CarriesOut undisturbed (first >>= later)
      fun state => plan state >>= fun ended => laterPlan ended.1 ended.2 := by
  constructor
  · intro state result after ran
    obtain ⟨value, middle, reached, ran⟩ := bind_eq_some first later state result after ran
    rw [here.returned state value middle reached]
    exact (there value).returned middle result after ran
  · intro calm state
    obtain ⟨middle, reached⟩ := here.ends calm state
    simp only [bind, reached]
    cases planned : plan state with
    | error raised => exact ⟨middle, rfl⟩
    | ok ended =>
        rw [planned] at reached
        have same := here.returned state ended.1 middle reached
        rw [planned, Except.ok.injEq] at same
        have final : ended.2 = middle := congrArg Prod.snd same
        rw [← final]
        exact (there ended.1).ends calm ended.2

theorem carries_out_reads (query : State → Except Error Value)
    (later : Value → Attempt State Error Result)
    (laterPlan : Value → State → Except Error (Result × State))
    (there : ∀ value, CarriesOut undisturbed (later value) (laterPlan value)) :
    CarriesOut undisturbed (reads query >>= later)
      fun state => query state >>= fun value => laterPlan value state := by
  constructor
  · intro state result after ran
    obtain ⟨value, queried, ran⟩ := reads_bind_ok query later state after result ran
    rw [queried]
    exact (there value).returned state result after ran
  · intro calm state
    simp only [bind, reads]
    cases query state with
    | error raised => exact ⟨state, rfl⟩
    | ok found => exact (there found).ends calm state

theorem carries_out_reach (fault : Option Error) (later : Attempt State Error Result)
    (plan : State → Except Error (Result × State)) (quiet : undisturbed → fault = none)
    (there : CarriesOut undisturbed later plan) :
    CarriesOut undisturbed (reach fault >>= fun _ => later) plan := by
  constructor
  · intro state result after ran
    exact there.returned state result after (reach_bind_ok fault later state after result ran)
  · intro calm state
    rw [quiet calm]
    exact there.ends calm state

/-! ## Inserting chunk after chunk -/

variable {Row Key : Type} [DecidableEq Key] {key : Row → Key}

/-- One table of a database. -/
structure TableOf (State : Type) (key : Row → Key) where
  table : State → KeyedTable key
  store : State → KeyedTable key → State
  table_store : ∀ state rows, table (store state rows) = rows
  store_store : ∀ state rows rows', store (store state rows) rows' = store state rows'
  store_table : ∀ state, store state (table state) = state

variable (place : TableOf State key)

def insertChunk (rows : List Row) : Attempt State Error Nat :=
  writes fun state =>
    let inserted := insertOrSkip (place.table state) rows
    .ok (inserted.2.length, place.store state inserted.1)

/-- The `for` loop over chunks, each a statement of its own. -/
def insertChunks (faults : Nat → Option Error) :
    List (List Row × Nat) → Nat → Attempt State Error Nat
  | [], landed => pure landed
  | chunk :: rest, landed => do
      reach (faults chunk.2)
      let returned ← insertChunk place chunk.1
      insertChunks faults rest (landed + returned)

theorem insert_chunks_carry_out (faults : Nat → Option Error)
    (quiet : undisturbed → ∀ index, faults index = none) (chunks : List (List Row × Nat))
    (landed : Nat) :
    CarriesOut undisturbed (insertChunks place faults chunks landed) fun state =>
      .ok (landed + (insertChunked (place.table state) (chunks.map Prod.fst)).2.length,
        place.store state (insertChunked (place.table state) (chunks.map Prod.fst)).1) := by
  induction chunks generalizing landed with
  | nil =>
      simp only [List.map_nil, insertChunked, List.length_nil, Nat.add_zero, place.store_table]
      exact carries_out_pure landed
  | cons chunk rest ih =>
      apply carries_out_reach _ _ _ fun calm => quiet calm chunk.2
      have here : CarriesOut undisturbed (insertChunk place chunk.1 : Attempt State Error Nat)
          fun state => .ok ((insertOrSkip (place.table state) chunk.1).2.length,
            place.store state (insertOrSkip (place.table state) chunk.1).1) :=
        carries_out_writes _
      have stepwise := carries_out_bind _ _ _ _ here fun returned => ih (landed + returned)
      simp only [bind, Except.bind, place.table_store, place.store_store] at stepwise
      simp only [List.map_cons, insertChunked, List.length_append, ← Nat.add_assoc]
      exact stepwise

end Morai.Foundation.Attempts
