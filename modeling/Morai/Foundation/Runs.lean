import Mathlib.Data.List.Basic

/-!
# Runs of a guarded system

A system is a partial step function: an action either is possible in a state
and leads to one next state, or is not possible there. A run takes its
actions one after the other. A condition on the state before each step
singles out runs; an invariant that every step under the condition keeps
holds at the end of each of them.
-/

namespace Morai.Foundation.Runs

set_option autoImplicit false

variable {State Action : Type*} (step : State → Action → Option State)

def runFrom : List Action → State → Option State
  | [], state => some state
  | action :: rest, state => (step state action).bind (runFrom rest)

/-- Every step of the run is taken in a state that meets the condition. -/
def Meets (condition : State → Action → Prop) : List Action → State → Prop
  | [], _ => True
  | action :: rest, state =>
      condition state action ∧ ∀ next, step state action = some next → Meets condition rest next

instance decidableMeets (condition : State → Action → Prop)
    [decide : ∀ state action, Decidable (condition state action)] :
    ∀ actions state, Decidable (Meets step condition actions state)
  | [], _ => isTrue trivial
  | action :: rest, state =>
      match found : step state action with
      | none => decidable_of_iff (condition state action) (by simp [Meets, found])
      | some next =>
          have := decidableMeets condition rest next
          decidable_of_iff (condition state action ∧ Meets step condition rest next)
            (by simp [Meets, found])

theorem run_from_cons (action : Action) (rest : List Action) (state final : State)
    (ran : runFrom step (action :: rest) state = some final) :
    ∃ next, step state action = some next ∧ runFrom step rest next = some final :=
  Option.bind_eq_some_iff.mp ran

theorem run_from_append (left right : List Action) (state : State) :
    runFrom step (left ++ right) state = (runFrom step left state).bind (runFrom step right) := by
  induction left generalizing state with
  | nil => rfl
  | cons action rest ih =>
      rw [List.cons_append, runFrom, runFrom, Option.bind_assoc]
      apply congrArg
      funext next
      apply ih

/-- The last step of a run, with the run up to it. -/
theorem run_from_concat (actions : List Action) (action : Action) (state final : State)
    (ran : runFrom step (actions ++ [action]) state = some final) :
    ∃ middle, runFrom step actions state = some middle ∧ step middle action = some final := by
  rw [run_from_append] at ran
  rcases Option.bind_eq_some_iff.mp ran with ⟨middle, before, last⟩
  rcases run_from_cons step action [] middle final last with ⟨next, stepped, done⟩
  cases done
  exact ⟨middle, before, stepped⟩

theorem meets_concat (condition : State → Action → Prop) (actions : List Action)
    (action : Action) (state middle : State) (meets : Meets step condition (actions ++ [action]) state)
    (ran : runFrom step actions state = some middle) :
    Meets step condition actions state ∧ condition middle action := by
  induction actions generalizing state with
  | nil =>
      cases ran
      exact ⟨trivial, meets.1⟩
  | cons first rest ih =>
      rcases run_from_cons step first rest state middle ran with ⟨next, stepped, later⟩
      have inner := ih next (meets.2 next stepped) later
      refine ⟨⟨meets.1, ?_⟩, inner.2⟩
      intro other otherStep
      rw [stepped] at otherStep
      cases otherStep
      exact inner.1

theorem meets_trivial (actions : List Action) (state : State) :
    Meets step (fun _ _ => True) actions state := by
  induction actions generalizing state with
  | nil => trivial
  | cons action rest ih => exact ⟨trivial, fun next _ => ih next⟩

/-- A condition on the steps of a run may be weakened by what its actions have
in common. -/
theorem meets_mono (condition conclusion : State → Action → Prop) (actions : List Action)
    (state : State)
    (implies : ∀ state, ∀ action ∈ actions, condition state action → conclusion state action)
    (meets : Meets step condition actions state) : Meets step conclusion actions state := by
  induction actions generalizing state with
  | nil => trivial
  | cons action rest ih =>
      refine ⟨implies state action List.mem_cons_self meets.1, fun next stepped => ?_⟩
      exact ih next (fun state later member => implies state later (List.mem_cons_of_mem _ member))
        (meets.2 next stepped)

/-- A step invariant is a run invariant. -/
theorem run_keeps (condition : State → Action → Prop) (invariant : State → Prop)
    (keeps : ∀ state action next, invariant state → condition state action →
      step state action = some next → invariant next)
    (actions : List Action) (state final : State) (initial : invariant state)
    (meets : Meets step condition actions state)
    (ran : runFrom step actions state = some final) : invariant final := by
  induction actions generalizing state with
  | nil =>
      cases ran
      exact initial
  | cons action rest ih =>
      rcases run_from_cons step action rest state final ran with ⟨next, stepped, later⟩
      exact ih next (keeps state action next initial meets.1 stepped) (meets.2 next stepped) later

/-- What each step adds to a property is what the whole run adds. -/
theorem run_iff (background condition : State → Action → Prop) (invariant property : State → Prop)
    (keeps : ∀ state action next, invariant state → background state action →
      step state action = some next → invariant next)
    (adds : ∀ state action next, invariant state → background state action →
      step state action = some next → (property next ↔ property state ∧ condition state action))
    (actions : List Action) (state final : State) (initial : invariant state)
    (meets : Meets step background actions state)
    (ran : runFrom step actions state = some final) :
    property final ↔ property state ∧ Meets step condition actions state := by
  induction actions generalizing state with
  | nil =>
      cases ran
      exact ⟨fun held => ⟨held, trivial⟩, fun held => held.1⟩
  | cons action rest ih =>
      obtain ⟨next, stepped, later⟩ := run_from_cons step action rest state final ran
      have inner := ih next (keeps state action next initial meets.1 stepped)
        (meets.2 next stepped) later
      have first := adds state action next initial meets.1 stepped
      rw [inner, first, Meets, and_assoc]
      constructor
      · rintro ⟨held, meetsFirst, meetsRest⟩
        refine ⟨held, meetsFirst, fun other otherStep => ?_⟩
        rw [stepped] at otherStep
        cases otherStep
        exact meetsRest
      · rintro ⟨held, meetsFirst, meetsRest⟩
        exact ⟨held, meetsFirst, meetsRest next stepped⟩

/-- A condition whose first breach cannot be made good: a run either meets it
throughout and stays good, or breaks it somewhere and ends bad. -/
theorem run_splits (condition : State → Action → Prop) (good bad : State → Prop)
    (keeps : ∀ state action next, good state → condition state action →
      step state action = some next → good next)
    (breaks : ∀ state action next, good state → ¬condition state action →
      step state action = some next → bad next)
    (stays : ∀ state action next, bad state → step state action = some next → bad next)
    (actions : List Action) (state final : State) (initial : good state)
    (ran : runFrom step actions state = some final) :
    (Meets step condition actions state ∧ good final) ∨
      (¬Meets step condition actions state ∧ bad final) := by
  induction actions generalizing state with
  | nil =>
      cases ran
      exact Or.inl ⟨trivial, initial⟩
  | cons action rest ih =>
      rcases run_from_cons step action rest state final ran with ⟨next, stepped, later⟩
      by_cases meets : condition state action
      · cases ih next (keeps state action next initial meets stepped) later with
        | inl fine =>
            refine Or.inl ⟨⟨meets, ?_⟩, fine.2⟩
            intro other otherStep
            rw [stepped] at otherStep
            cases otherStep
            exact fine.1
        | inr broken => exact Or.inr ⟨fun all => broken.1 (all.2 next stepped), broken.2⟩
      · refine Or.inr ⟨fun all => meets all.1, ?_⟩
        exact run_keeps step (fun _ _ => True) bad (fun _ _ _ held _ => stays _ _ _ held)
          rest next final (breaks state action next initial meets stepped)
          (meets_trivial step rest next) later

end Morai.Foundation.Runs
