import Mathlib.Tactic.Linarith
import Mathlib.Tactic.Positivity
import Morai.Db.Models
import Morai.Foundation.WindowCover

/-!
# The windows of one sync

`sync_windows` starts at the stored sync time less the overlap, or on first
connect at `now` less the lookback, and cuts what lies before `now` into
windows. `none` is a loop that never ends.
-/

namespace Morai.Ingest.SyncWindows

open Morai.Db Morai.Python Morai.Foundation.WindowCover

set_option autoImplicit false

/-- The three settings `sync_windows` reads, with their defaults. -/
structure Settings where
  schwabTxLookbackMaxDays : Int := 365
  schwabTxMaxRangeDays : Int := 60
  schwabTxSyncOverlapDays : Int := 1
  deriving DecidableEq, Repr

abbrev SyncWindow := Window Instant

/-- `instant - timedelta(days=days)`. -/
def daysBefore (instant : Instant) (days : Int) : Except Raised Instant :=
  match timedeltaDays days with
  | none => .error .overflowError
  | some delta =>
      match shiftInstant instant (-delta) with
      | none => .error .overflowError
      | some start => .ok start

/-- The `while` loop from a cursor. -/
def windowsFrom (maxRange : Int) (now : Instant) :
    Nat → Instant → Option (Except Raised (List SyncWindow))
  | 0, _ => none
  | fuel + 1, cursor =>
      if cursor < now then
        match shiftInstant cursor maxRange with
        | none => some (.error .overflowError)
        | some ahead =>
            let windowEnd := min ahead now
            (windowsFrom maxRange now fuel windowEnd).map fun later =>
              later.map ((cursor, windowEnd) :: ·)
      else some (.ok [])

/-- Steps after which the loop has ended if it ever does: it has passed `now`,
or, with a negative range, the year 1. -/
def windowFuel (maxRange : Int) (start now : Instant) : Nat :=
  ((now - start) / maxRange).toNat + ((start - minInstant) / -maxRange).toNat + 2

def syncStart (lastSyncedAt : Option Instant) (now : Instant) (settings : Settings) :
    Except Raised Instant :=
  match lastSyncedAt with
  | some lastSyncedAt => daysBefore lastSyncedAt settings.schwabTxSyncOverlapDays
  | none => daysBefore now settings.schwabTxLookbackMaxDays

def syncWindows (lastSyncedAt : Option Instant) (now : Instant) (settings : Settings) :
    Option (Except Raised (List SyncWindow)) :=
  match syncStart lastSyncedAt now settings with
  | .error raised => some (.error raised)
  | .ok start =>
      match timedeltaDays settings.schwabTxMaxRangeDays with
      | none => some (.error .overflowError)
      | some maxRange => windowsFrom maxRange now (windowFuel maxRange start now) start

/-! ## What the loop returns -/

theorem days_before_eq (instant start : Instant) (days : Int)
    (made : daysBefore instant days = .ok start) : start = instant - days * dayMicros := by
  unfold daysBefore at made
  cases delta : timedeltaDays days with
  | none => simp [delta] at made
  | some delta' =>
      simp only [delta] at made
      cases shifted : shiftInstant instant (-delta') with
      | none => simp [shifted] at made
      | some start' =>
          simp only [shifted, Except.ok.injEq] at made
          have far := timedelta_days_eq days delta' delta
          have there := shift_instant_eq instant start' (-delta') shifted
          linarith

/-- An incremental start does not lie after the stored sync time. -/
theorem sync_start_overlaps (settings : Settings) (last now start : Instant)
    (overlap : 0 ≤ settings.schwabTxSyncOverlapDays)
    (begins : syncStart (some last) now settings = .ok start) : start ≤ last := by
  have shape := days_before_eq last start _ begins
  have back : 0 ≤ settings.schwabTxSyncOverlapDays * dayMicros := by
    unfold dayMicros
    linarith
  rw [shape]
  exact Int.sub_le_self last back

/-- A pass of a loop that returned: there was nothing to do, or it made one
window and went on from its end. -/
theorem windows_from_ok (maxRange : Int) (now : Instant) (fuel : Nat) (cursor : Instant)
    (windows : List SyncWindow)
    (made : windowsFrom maxRange now (fuel + 1) cursor = some (.ok windows)) :
    (now ≤ cursor ∧ windows = []) ∨
      (cursor < now ∧ ∃ later, windows = (cursor, min (cursor + maxRange) now) :: later ∧
        windowsFrom maxRange now fuel (min (cursor + maxRange) now) = some (.ok later)) := by
  unfold windowsFrom at made
  split_ifs at made with busy
  · right
    cases shifted : shiftInstant cursor maxRange with
    | none => simp [shifted] at made
    | some ahead =>
        have reach := shift_instant_eq cursor ahead maxRange shifted
        simp only [shifted, Option.map_eq_some_iff] at made
        obtain ⟨outcome, ran, mapped⟩ := made
        cases outcome with
        | error raised => simp [Except.map] at mapped
        | ok later =>
            simp only [Except.map, Except.ok.injEq] at mapped
            rw [← reach]
            exact ⟨busy, later, mapped.symm, ran⟩
  · left
    cases made
    exact ⟨not_lt.mp busy, rfl⟩

/-- With no positive range a loop that returned had nothing to do. -/
theorem windows_from_idle (maxRange : Int) (now : Instant) (stuck : maxRange ≤ 0) (fuel : Nat)
    (cursor : Instant) (windows : List SyncWindow)
    (made : windowsFrom maxRange now fuel cursor = some (.ok windows)) : now ≤ cursor := by
  induction fuel generalizing cursor windows with
  | zero => simp [windowsFrom] at made
  | succ fuel ih =>
      cases windows_from_ok maxRange now fuel cursor windows made with
      | inl idle => exact idle.1
      | inr pass =>
          obtain ⟨_, later, _, ran⟩ := pass
          have inner := ih _ later ran
          have capped : min (cursor + maxRange) now ≤ cursor + maxRange := min_le_left _ _
          linarith

theorem windows_from_spans (maxRange : Int) (now : Instant) (fuel : Nat) (cursor : Instant)
    (windows : List SyncWindow)
    (made : windowsFrom maxRange now fuel cursor = some (.ok windows)) :
    Spans cursor now windows ∧ ∀ window ∈ windows, window.2 - window.1 ≤ maxRange := by
  induction fuel generalizing cursor windows with
  | zero => simp [windowsFrom] at made
  | succ fuel ih =>
      have positive : cursor < now → 0 < maxRange := by
        intro busy
        by_contra stuck
        have idle := windows_from_idle maxRange now (not_lt.mp stuck) _ cursor windows made
        exact absurd busy (not_lt.mpr idle)
      cases windows_from_ok maxRange now fuel cursor windows made with
      | inl idle =>
          obtain ⟨late, none⟩ := idle
          rw [none]
          exact ⟨⟨fun early => absurd early (not_lt.mpr late), fun _ => rfl⟩, by simp⟩
      | inr pass =>
          obtain ⟨busy, later, shape, ran⟩ := pass
          have forward := positive busy
          have inner := ih _ later ran
          have opens : cursor < min (cursor + maxRange) now := lt_min (by linarith) busy
          rw [shape]
          constructor
          · constructor
            · intro _
              refine ⟨rfl, opens, ?_⟩
              by_cases more : min (cursor + maxRange) now < now
              · exact inner.1.chain more
              · have ended : min (cursor + maxRange) now = now :=
                  le_antisymm (min_le_right _ _) (not_lt.mp more)
                rw [inner.1.idle (not_lt.mp more)]
                exact ended
            · intro late
              exact absurd busy (not_lt.mpr late)
          · intro window member
            cases List.mem_cons.mp member with
            | inl first =>
                rw [first]
                have capped : min (cursor + maxRange) now ≤ cursor + maxRange := min_le_left _ _
                show min (cursor + maxRange) now - cursor ≤ maxRange
                linarith
            | inr others => exact inner.2 window others

/-- With a positive range the loop ends: each window uses up `maxRange` of
what is left. -/
theorem windows_from_returns (maxRange : Int) (now : Instant) (positive : 0 < maxRange)
    (fuel : Nat) (cursor : Instant) (enough : now - cursor ≤ maxRange * fuel) :
    windowsFrom maxRange now (fuel + 1) cursor ≠ none := by
  induction fuel generalizing cursor with
  | zero =>
      rw [Nat.cast_zero, mul_zero] at enough
      have done : ¬cursor < now := by linarith
      simp [windowsFrom, done]
  | succ fuel ih =>
      unfold windowsFrom
      split_ifs with busy
      · cases shifted : shiftInstant cursor maxRange with
        | none => simp
        | some ahead =>
            have reach := shift_instant_eq cursor ahead maxRange shifted
            have step : maxRange * ((fuel + 1 : Nat) : Int) = maxRange * fuel + maxRange := by
              rw [Nat.cast_succ, mul_add, mul_one]
            have remaining : now - min ahead now ≤ maxRange * fuel := by
              have some : 0 ≤ maxRange * (fuel : Int) := by positivity
              cases min_choice ahead now with
              | inl stops => linarith
              | inr stops => linarith
            have inner := ih (min ahead now) remaining
            simpa using inner
      · simp

/-- Consecutive windows of at most the configured width, from the start to
exactly `now`. -/
theorem sync_windows_ok (lastSyncedAt : Option Instant) (now : Instant) (settings : Settings)
    (windows : List SyncWindow)
    (made : syncWindows lastSyncedAt now settings = some (.ok windows)) :
    ∃ start, syncStart lastSyncedAt now settings = .ok start ∧ Spans start now windows ∧
      ∀ window ∈ windows,
        window.2 - window.1 ≤ settings.schwabTxMaxRangeDays * dayMicros := by
  unfold syncWindows at made
  cases begins : syncStart lastSyncedAt now settings with
  | error raised => simp [begins] at made
  | ok start =>
      simp only [begins] at made
      cases range : timedeltaDays settings.schwabTxMaxRangeDays with
      | none => simp [range] at made
      | some maxRange =>
          simp only [range] at made
          have size := timedelta_days_eq _ _ range
          have spec := windows_from_spans maxRange now _ start windows made
          exact ⟨start, rfl, spec.1, size ▸ spec.2⟩

example : syncWindows (some 0) (3 * dayMicros) { schwabTxMaxRangeDays := 2 } =
    some (.ok [(-dayMicros, dayMicros), (dayMicros, 3 * dayMicros)]) := by
  decide +kernel

end Morai.Ingest.SyncWindows
