import Morai.Ingest.SyncWindows

/-!
# Whether the loop of `sync_windows` ends

No setting is validated between the environment and the loop. A positive range
moves the cursor to `now`, a negative one out of the years a datetime has, and
a range of zero leaves it where it is.
-/

namespace Morai.Ingest.WindowsEnd

open Morai.Db Morai.Python Morai.Foundation.WindowCover Morai.Ingest.SyncWindows

set_option autoImplicit false

/-- `sync_windows` ends with `outcome`, after whatever number of passes. -/
def EndsWith (lastSyncedAt : Option Instant) (now : Instant) (settings : Settings)
    (outcome : Except Raised (List SyncWindow)) : Prop :=
  match syncStart lastSyncedAt now settings with
  | .error raised => outcome = .error raised
  | .ok start =>
      match timedeltaDays settings.schwabTxMaxRangeDays with
      | none => outcome = .error .overflowError
      | some maxRange => ∃ fuel, windowsFrom maxRange now fuel start = some outcome

/-! ## Passes of the loop -/

section Passes

variable (maxRange : Int) (now : Instant)

/-- A loop that has ended does not go on. -/
theorem windows_from_settled (fuel : Nat) (cursor : Instant)
    (outcome : Except Raised (List SyncWindow))
    (made : windowsFrom maxRange now fuel cursor = some outcome) (more : Nat) :
    windowsFrom maxRange now (fuel + more) cursor = some outcome := by
  induction fuel generalizing cursor outcome with
  | zero => cases made
  | succ fuel ih =>
      have count : fuel + 1 + more = (fuel + more) + 1 := by omega
      rw [count]
      unfold windowsFrom at made ⊢
      split_ifs at made ⊢ with busy
      · cases shifted : shiftInstant cursor maxRange with
        | none =>
            simp only [shifted] at made
            exact made
        | some ahead =>
            simp only [shifted] at made ⊢
            rw [Option.map_eq_some_iff] at made ⊢
            obtain ⟨later, ran, mapped⟩ := made
            exact ⟨later, ih (min ahead now) later ran, mapped⟩
      · exact made

theorem windows_from_unique (left right : Nat) (cursor : Instant)
    (first second : Except Raised (List SyncWindow))
    (firstMade : windowsFrom maxRange now left cursor = some first)
    (secondMade : windowsFrom maxRange now right cursor = some second) : first = second := by
  have firstAll := windows_from_settled maxRange now left cursor first firstMade right
  have secondAll := windows_from_settled maxRange now right cursor second secondMade left
  rw [Nat.add_comm, firstAll, Option.some.injEq] at secondAll
  exact secondAll

/-- A negative range walks back until there is no datetime left. -/
theorem windows_from_retreats (negative : maxRange < 0) (fuel : Nat) (cursor : Instant)
    (busy : cursor < now) (enough : cursor - minInstant < -maxRange * (fuel + 1)) :
    windowsFrom maxRange now (fuel + 1) cursor = some (.error .overflowError) := by
  induction fuel generalizing cursor with
  | zero =>
      have gone : shiftInstant cursor maxRange = none := by
        unfold shiftInstant
        apply if_neg
        intro bounded
        rw [Nat.cast_zero, zero_add, mul_one] at enough
        linarith [bounded.1]
      simp [windowsFrom, busy, gone]
  | succ fuel ih =>
      unfold windowsFrom
      rw [if_pos busy]
      cases shifted : shiftInstant cursor maxRange with
      | none => rfl
      | some ahead =>
          have reach := shift_instant_eq cursor ahead maxRange shifted
          have behind : ahead < now := by linarith
          have closer : ahead - minInstant < -maxRange * (fuel + 1) := by
            push_cast at enough
            linarith
          simp only [min_eq_left (le_of_lt behind), ih ahead behind closer]
          rfl

/-- With a range of zero the cursor stays where it is. -/
theorem windows_from_stuck (cursor : Instant) (busy : cursor < now)
    (dated : shiftInstant cursor 0 = some cursor) (fuel : Nat) :
    windowsFrom 0 now fuel cursor = none := by
  induction fuel with
  | zero => rfl
  | succ fuel ih =>
      unfold windowsFrom
      simp only [busy, if_true, dated, min_eq_left (le_of_lt busy), ih, Option.map_none]

theorem windows_from_idle_start (cursor : Instant) (idle : now ≤ cursor) (fuel : Nat) :
    windowsFrom maxRange now (fuel + 1) cursor = some (.ok []) := by
  unfold windowsFrom
  rw [if_neg (not_lt.mpr idle)]

/-- `windowFuel` passes are enough, whatever the range. -/
theorem window_fuel_enough (start : Instant) (moves : maxRange ≠ 0 ∨ now ≤ start) :
    windowsFrom maxRange now (windowFuel maxRange start now) start ≠ none := by
  by_cases busy : start < now
  · have moving := moves.resolve_right (not_le.mpr busy)
    cases lt_or_gt_of_ne moving with
    | inl negative =>
        have quotient := Int.lt_mul_ediv_self_add (x := start - minInstant)
          (k := -maxRange) (by linarith)
        have rounded := Int.self_le_toNat ((start - minInstant) / -maxRange)
        have scaled := mul_le_mul_of_nonneg_left rounded (by linarith : 0 ≤ -maxRange)
        have others : 0 ≤ -maxRange * (((now - start) / maxRange).toNat : Int) :=
          mul_nonneg (by linarith) (Int.natCast_nonneg _)
        have ended := windows_from_retreats maxRange now negative
          (((now - start) / maxRange).toNat + ((start - minInstant) / -maxRange).toNat + 1)
          start busy (by push_cast; linarith)
        unfold windowFuel
        rw [ended]
        simp
    | inr positive =>
        have quotient := Int.lt_mul_ediv_self_add (x := now - start) positive
        have rounded := Int.self_le_toNat ((now - start) / maxRange)
        have scaled := mul_le_mul_of_nonneg_left rounded (le_of_lt positive)
        have others : 0 ≤ maxRange * (((start - minInstant) / -maxRange).toNat : Int) :=
          mul_nonneg (le_of_lt positive) (Int.natCast_nonneg _)
        apply windows_from_returns maxRange now positive
        push_cast
        linarith
  · have ended := windows_from_idle_start maxRange now start (not_lt.mp busy)
      (((now - start) / maxRange).toNat + ((start - minInstant) / -maxRange).toNat + 1)
    unfold windowFuel
    rw [ended]
    simp

end Passes

/-! ## From the settings -/

section Runs

variable (lastSyncedAt : Option Instant) (now : Instant) (settings : Settings)

theorem timedelta_days_zero (days delta : Int) (made : timedeltaDays days = some delta) :
    delta = 0 ↔ days = 0 := by
  rw [timedelta_days_eq days delta made]
  unfold dayMicros
  omega

theorem days_before_dated (instant start : Instant) (days : Int)
    (made : daysBefore instant days = .ok start) : shiftInstant start 0 = some start := by
  unfold daysBefore at made
  cases far : timedeltaDays days with
  | none => simp [far] at made
  | some delta =>
      simp only [far] at made
      cases moved : shiftInstant instant (-delta) with
      | none => simp [moved] at made
      | some there =>
          simp only [moved, Except.ok.injEq] at made
          have shape := shift_instant_eq instant there (-delta) moved
          unfold shiftInstant at moved ⊢
          rw [← shape, made] at moved
          rw [add_zero]
          exact moved

/-- A start is a datetime. -/
theorem sync_start_dated (start : Instant)
    (begins : syncStart lastSyncedAt now settings = .ok start) :
    shiftInstant start 0 = some start := by
  cases lastSyncedAt with
  | none => exact days_before_dated now start _ begins
  | some last => exact days_before_dated last start _ begins

/-- The range moves the cursor, or there is nothing before `now`. -/
def RangeMoves : Prop :=
  settings.schwabTxMaxRangeDays ≠ 0 ∨
    ∀ start, syncStart lastSyncedAt now settings = .ok start → now ≤ start

theorem ends_with_of_sync_windows (outcome : Except Raised (List SyncWindow))
    (made : syncWindows lastSyncedAt now settings = some outcome) :
    EndsWith lastSyncedAt now settings outcome := by
  unfold syncWindows at made
  unfold EndsWith
  cases begins : syncStart lastSyncedAt now settings with
  | error raised =>
      simp only [begins, Option.some.injEq] at made
      exact made.symm
  | ok start =>
      simp only [begins] at made
      cases range : timedeltaDays settings.schwabTxMaxRangeDays with
      | none =>
          simp only [range, Option.some.injEq] at made
          exact made.symm
      | some maxRange =>
          simp only [range] at made
          exact ⟨_, made⟩

/-- A range of zero is the one that keeps a loop from ending. -/
theorem ends_with_iff (outcome : Except Raised (List SyncWindow)) :
    EndsWith lastSyncedAt now settings outcome ↔
      RangeMoves lastSyncedAt now settings ∧
        syncWindows lastSyncedAt now settings = some outcome := by
  constructor
  · intro ends
    unfold EndsWith at ends
    unfold RangeMoves syncWindows
    cases begins : syncStart lastSyncedAt now settings with
    | error raised =>
        simp only [begins] at ends
        exact ⟨Or.inr fun start other => (by cases other), by rw [ends]⟩
    | ok start =>
        simp only [begins, Except.ok.injEq, forall_eq'] at ends ⊢
        cases range : timedeltaDays settings.schwabTxMaxRangeDays with
        | none =>
            simp only [range] at ends
            refine ⟨Or.inl ?_, by rw [ends]⟩
            intro zero
            rw [zero] at range
            revert range
            decide
        | some maxRange =>
            simp only [range] at ends
            obtain ⟨fuel, made⟩ := ends
            have moves : maxRange ≠ 0 ∨ now ≤ start := by
              by_contra stuck
              rw [not_or, not_not, not_le] at stuck
              rw [stuck.1, windows_from_stuck now start stuck.2
                (sync_start_dated lastSyncedAt now settings start begins) fuel] at made
              cases made
            obtain ⟨other, ended⟩ := Option.ne_none_iff_exists'.mp
              (window_fuel_enough maxRange now start moves)
            have same := windows_from_unique maxRange now _ _ start outcome other made ended
            exact ⟨moves.imp_left (mt (timedelta_days_zero _ _ range).mpr), same ▸ ended⟩
  · intro ends
    exact ends_with_of_sync_windows lastSyncedAt now settings outcome ends.2

theorem sync_windows_some (moves : RangeMoves lastSyncedAt now settings) :
    syncWindows lastSyncedAt now settings ≠ none := by
  unfold RangeMoves at moves
  unfold syncWindows
  cases begins : syncStart lastSyncedAt now settings with
  | error raised => simp
  | ok start =>
      simp only [begins, Except.ok.injEq, forall_eq'] at moves
      cases range : timedeltaDays settings.schwabTxMaxRangeDays with
      | none => simp
      | some maxRange =>
          exact window_fuel_enough maxRange now start
            (moves.imp_left (mt (timedelta_days_zero _ _ range).mp))

/-- An end with windows that lead from the start to `now`, or with an error. -/
def SyncEnds : Prop :=
  ∃ outcome, EndsWith lastSyncedAt now settings outcome ∧ ∀ windows, outcome = .ok windows →
    ∃ start, syncStart lastSyncedAt now settings = .ok start ∧ Spans start now windows

/-- **`sync_windows` ends exactly where its range moves the cursor or nothing
lies before `now`.** -/
theorem sync_windows_ends_iff :
    SyncEnds lastSyncedAt now settings ↔
      settings.schwabTxMaxRangeDays ≠ 0 ∨
        ∀ start, syncStart lastSyncedAt now settings = .ok start → now ≤ start := by
  constructor
  · intro ends
    obtain ⟨outcome, ended, _⟩ := ends
    exact ((ends_with_iff lastSyncedAt now settings outcome).mp ended).1
  · intro moves
    obtain ⟨outcome, ended⟩ := Option.ne_none_iff_exists'.mp
      (sync_windows_some lastSyncedAt now settings moves)
    refine ⟨outcome, ends_with_of_sync_windows lastSyncedAt now settings outcome ended, ?_⟩
    intro windows returned
    rw [returned] at ended
    obtain ⟨start, begins, spans, _⟩ := sync_windows_ok lastSyncedAt now settings windows ended
    exact ⟨start, begins, spans⟩

end Runs

theorem zero_range_never_ends : ¬SyncEnds none 0 { schwabTxMaxRangeDays := 0 } := by
  intro ends
  obtain ⟨outcome, ended, _⟩ := ends
  have begins : syncStart none 0 { schwabTxMaxRangeDays := 0 } = .ok (-365 * dayMicros) := by decide
  have range : timedeltaDays 0 = some 0 := by decide
  unfold EndsWith at ended
  simp only [begins, range] at ended
  obtain ⟨fuel, made⟩ := ended
  rw [windows_from_stuck 0 (-365 * dayMicros) (by decide) (by decide) fuel] at made
  cases made

end Morai.Ingest.WindowsEnd
