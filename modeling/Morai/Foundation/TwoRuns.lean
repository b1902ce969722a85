import Morai.Foundation.Attempts

/-!
# One attempt from two states

To show that what an attempt answers and leaves does not depend on some part
of the state, run it from two states that differ there only. The rules carry
the relation between the two through a program, statement by statement.
-/

namespace Morai.Foundation.TwoRuns

open Morai.Foundation.Attempts

set_option autoImplicit false

variable {State Inner Error Value Result : Type}

/-- The two ends of an attempt: neither comes, both raise the same, or both
return the same. -/
inductive Alike (raised : State → State → Prop) (returned : Value → State → State → Prop) :
    Option (Except Error Value × State) → Option (Except Error Value × State) → Prop
  | hung : Alike raised returned none none
  | raises (error : Error) (left right : State) (related : raised left right) :
      Alike raised returned (some (.error error, left)) (some (.error error, right))
  | returns (value : Value) (left right : State) (related : returned value left right) :
      Alike raised returned (some (.ok value, left)) (some (.ok value, right))

/-- From states so related the attempt ends alike. -/
def Tracks (before raised : State → State → Prop) (returned : Value → State → State → Prop)
    (attempt : Attempt State Error Value) : Prop :=
  ∀ left right, before left right → Alike raised returned (attempt left) (attempt right)

section Rules

variable {before raised : State → State → Prop} {returned : Value → State → State → Prop}

theorem tracks_pure (value : Value)
    (related : ∀ left right, before left right → returned value left right) :
    Tracks before raised returned (pure value : Attempt State Error Value) := by
  intro left right held
  exact .returns value left right (related left right held)

theorem tracks_raises (error : Error)
    (related : ∀ left right, before left right → raised left right) :
    Tracks before raised returned (raises error : Attempt State Error Value) := by
  intro left right held
  exact .raises error left right (related left right held)

theorem tracks_bind {middle : Value → State → State → Prop}
    {after : Result → State → State → Prop} (first : Attempt State Error Value)
    (later : Value → Attempt State Error Result) (here : Tracks before raised middle first)
    (there : ∀ value, Tracks (middle value) raised after (later value)) :
    Tracks before raised after (first >>= later) := by
  intro left right held
  have ends := here left right held
  simp only [bind]
  generalize first left = leftEnd at ends ⊢
  generalize first right = rightEnd at ends ⊢
  cases ends with
  | hung => exact .hung
  | raises error left right related => exact .raises error left right related
  | returns value left right related => exact there value left right related

/-- A query that answers the same from related states. -/
theorem tracks_reads (query : State → Except Error Value)
    (same : ∀ left right, before left right → query left = query right)
    (onError : ∀ left right, before left right → raised left right)
    (onValue : ∀ left right value, before left right → query left = .ok value →
      returned value left right) :
    Tracks before raised returned (reads query) := by
  intro left right held
  unfold reads
  rw [← same left right held]
  cases answered : query left with
  | error error => exact .raises error left right (onError left right held)
  | ok value => exact .returns value left right (onValue left right value held answered)

theorem tracks_imp {before' : State → State → Prop} {returned' : Value → State → State → Prop}
    (attempt : Attempt State Error Value) (tracks : Tracks before raised returned attempt)
    (stronger : ∀ left right, before' left right → before left right)
    (weaker : ∀ value left right, returned value left right → returned' value left right) :
    Tracks before' raised returned' attempt := by
  intro left right held
  have ends := tracks left right (stronger left right held)
  generalize attempt left = leftEnd at ends ⊢
  generalize attempt right = rightEnd at ends ⊢
  cases ends with
  | hung => exact .hung
  | raises error left right related => exact .raises error left right related
  | returns value left right related =>
      exact .returns value left right (weaker value left right related)

theorem tracks_and {returned' : Value → State → State → Prop}
    (attempt : Attempt State Error Value) (first : Tracks before raised returned attempt)
    (second : Tracks before raised returned' attempt) :
    Tracks before raised (fun value left right => returned value left right ∧
      returned' value left right) attempt := by
  intro left right held
  have ends := first left right held
  have ends' := second left right held
  generalize attempt left = leftEnd at ends ends' ⊢
  generalize attempt right = rightEnd at ends ends' ⊢
  cases ends with
  | hung => exact .hung
  | raises error left right related => exact .raises error left right related
  | returns value left right related =>
      cases ends' with
      | returns _ _ _ related' => exact .returns value left right ⟨related, related'⟩

end Rules

/-! ## Transactions that keep something to themselves -/

/-- The body runs on a state of its own, entered anew and left behind at the
commit; whatever raises before it leaves nothing. -/
def within (enter : State → Inner) (leave : Inner → State) (body : Attempt Inner Error Value) :
    Attempt State Error Value :=
  fun committed =>
    match body (enter committed) with
    | none => none
    | some (.error error, _) => some (.error error, committed)
    | some (.ok value, inner) => some (.ok value, leave inner)

theorem within_returned (enter : State → Inner) (leave : Inner → State)
    (body : Attempt Inner Error Value) (committed : State) (outcome : Except Error Value)
    (after : State) (ran : within enter leave body committed = some (outcome, after)) :
    after = committed ∨
      ∃ value inner, body (enter committed) = some (.ok value, inner) ∧ after = leave inner := by
  unfold within at ran
  split at ran
  · cases ran
  · cases ran
    exact Or.inl rfl
  · rename_i value inner ended
    cases ran
    exact Or.inr ⟨value, inner, ended, rfl⟩

theorem within_ok (enter : State → Inner) (leave : Inner → State)
    (body : Attempt Inner Error Value) (committed after : State) (value : Value)
    (ran : within enter leave body committed = some (.ok value, after)) :
    ∃ inner, body (enter committed) = some (.ok value, inner) ∧ after = leave inner := by
  unfold within at ran
  split at ran
  · cases ran
  · cases ran
  · rename_i value inner ended
    cases ran
    exact ⟨inner, ended, rfl⟩

theorem tracks_within {before : State → State → Prop} {entered raised : Inner → Inner → Prop}
    {returned : Value → Inner → Inner → Prop} {after : Value → State → State → Prop}
    (enter : State → Inner) (leave : Inner → State) (body : Attempt Inner Error Value)
    (enters : ∀ left right, before left right → entered (enter left) (enter right))
    (tracks : Tracks entered raised returned body)
    (leaves : ∀ value left right, returned value left right →
      after value (leave left) (leave right)) :
    Tracks before before after (within enter leave body) := by
  intro left right held
  have ends := tracks _ _ (enters left right held)
  unfold within
  generalize body (enter left) = leftEnd at ends ⊢
  generalize body (enter right) = rightEnd at ends ⊢
  cases ends with
  | hung => exact .hung
  | raises error _ _ related => exact .raises error left right held
  | returns value _ _ related => exact .returns value _ _ (leaves value _ _ related)

end Morai.Foundation.TwoRuns
