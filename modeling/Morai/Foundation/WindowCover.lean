import Mathlib.Order.MinMax

/-!
# Windows and the mark they reach

Closed windows on a linear order. A list of windows is consecutive when each
starts where the one before it ends. A collector keeps a mark and appends
windows that start at or before it; everything from its anchor up to the mark
then stays covered, whichever way the mark moves.
-/

namespace Morai.Foundation.WindowCover

set_option autoImplicit false

variable {Time : Type*} [LinearOrder Time]

abbrev Window (Time : Type*) := Time × Time

def Consecutive : Time → List (Window Time) → Time → Prop
  | start, [], stop => start = stop
  | start, window :: rest, stop =>
      window.1 = start ∧ window.1 < window.2 ∧ Consecutive window.2 rest stop

def Covers (windows : List (Window Time)) (moment : Time) : Prop :=
  ∃ window ∈ windows, window.1 ≤ moment ∧ moment ≤ window.2

instance decidableConsecutive : ∀ (start : Time) (windows : List (Window Time)) (stop : Time),
    Decidable (Consecutive start windows stop)
  | start, [], stop => inferInstanceAs (Decidable (start = stop))
  | _, window :: rest, stop =>
      have := decidableConsecutive window.2 rest stop
      inferInstanceAs (Decidable (_ ∧ _ ∧ _))

instance (windows : List (Window Time)) (moment : Time) : Decidable (Covers windows moment) :=
  inferInstanceAs (Decidable (∃ window ∈ windows, _))

/-- No gap inside a consecutive list. -/
theorem consecutive_covers (windows : List (Window Time)) (start stop : Time)
    (chain : Consecutive start windows stop) (some : windows ≠ []) (moment : Time)
    (after : start ≤ moment) (before : moment ≤ stop) : Covers windows moment := by
  induction windows generalizing start with
  | nil => exact absurd rfl some
  | cons window rest ih =>
      obtain ⟨opens, wide, later⟩ := chain
      by_cases inside : moment ≤ window.2
      · exact ⟨window, List.mem_cons_self, opens ▸ after, inside⟩
      · have nonempty : rest ≠ [] := by
          intro empty
          subst empty
          exact inside (before.trans (le_of_eq later.symm))
        obtain ⟨other, member, reaches⟩ :=
          ih window.2 later nonempty (le_of_lt (not_le.mp inside))
        exact ⟨other, List.mem_cons_of_mem _ member, reaches⟩

theorem covers_append (left right : List (Window Time)) (moment : Time) :
    Covers (left ++ right) moment ↔ Covers left moment ∨ Covers right moment := by
  simp only [Covers, List.mem_append, or_and_right, exists_or]

/-- The windows from `start` up to `stop`, none when there is nothing
between. -/
structure Spans (start stop : Time) (windows : List (Window Time)) : Prop where
  chain : start < stop → Consecutive start windows stop
  idle : stop ≤ start → windows = []

theorem spans_covers (start stop : Time) (windows : List (Window Time))
    (spans : Spans start stop windows) (moment : Time) (busy : start < stop)
    (after : start ≤ moment) (before : moment ≤ stop) : Covers windows moment := by
  apply consecutive_covers windows start stop (spans.chain busy) _ moment after before
  intro empty
  have chain := spans.chain busy
  rw [empty] at chain
  exact absurd chain (ne_of_lt busy)

/-- Everything from the anchor to the mark is covered; the mark itself only
when `endpoint` holds. -/
def CoveredUpTo (windows : List (Window Time)) (anchor mark : Time) (endpoint : Prop) : Prop :=
  ∀ moment, anchor ≤ moment → moment ≤ mark → moment < mark ∨ endpoint → Covers windows moment

theorem covered_up_to_more (earlier windows : List (Window Time)) (anchor mark : Time)
    (endpoint : Prop) (covered : CoveredUpTo windows anchor mark endpoint) :
    CoveredUpTo (earlier ++ windows) anchor mark endpoint := by
  intro moment after before kept
  rw [covers_append]
  exact Or.inr (covered moment after before kept)

/-- The first windows anchor the cover at their start. -/
theorem covered_up_to_first (windows : List (Window Time)) (start mark : Time) (endpoint : Prop)
    (spans : Spans start mark windows) (apart : endpoint → start ≠ mark) :
    CoveredUpTo windows start mark endpoint := by
  intro moment after before kept
  have busy : start < mark := by
    cases kept with
    | inl inside => exact lt_of_le_of_lt after inside
    | inr reached => exact lt_of_le_of_ne (after.trans before) (apart reached)
  exact spans_covers start mark windows spans moment busy after before

/-- Windows that start at or before the old mark keep the cover whole up to
the new one, also when the new mark lies before the old. -/
theorem covered_up_to_extend (windows later : List (Window Time))
    (anchor mark start next : Time) (endpoint : Prop)
    (covered : CoveredUpTo windows anchor mark endpoint) (overlaps : start ≤ mark)
    (spans : Spans start next later) : CoveredUpTo (windows ++ later) anchor next endpoint := by
  intro moment after before kept
  rw [covers_append]
  by_cases busy : start < next
  · by_cases reached : start ≤ moment
    · exact Or.inr (spans_covers start next later spans moment busy reached before)
    · have inside : moment < mark := lt_of_lt_of_le (not_le.mp reached) overlaps
      exact Or.inl (covered moment after (le_of_lt inside) (Or.inl inside))
  · have behind : next ≤ mark := (not_lt.mp busy).trans overlaps
    apply Or.inl
    apply covered moment after (before.trans behind)
    exact kept.imp_left fun inside => lt_of_lt_of_le inside behind

end Morai.Foundation.WindowCover
