import Morai.Ledger.Pairing

/-!
# Cash conservation

What the derived events report, summed per position or over all of them, is
the cash the resolved and classified fills moved; a gap blanks the one event
whose group holds it and no other.
-/

namespace Morai.Ledger.CashConservation

open Morai.Db Morai.Python Morai.Foundation.OrderedGroups
open Morai.Ledger.Fills Morai.Ledger.Pairing

set_option autoImplicit false

/-- The fills that reach a group of a wanted position and event type. -/
def countedFor (wanted : Uuid → EventType → Bool) (resolutions : Resolutions)
    (fill : FillRecord) : Bool :=
  (groupKeyOf resolutions fill).any fun key => wanted key.positionId (eventTypeOf key.role)

def cashOf (events : List DerivedEvent) : ℚ := (events.map DerivedEvent.cash).sum

theorem cash_of_perm (left right : List DerivedEvent) (perm : left.Perm right) :
    cashOf left = cashOf right :=
  (perm.map _).sum_eq

theorem sum_filter (Item : Type) (keep : Item → Bool) (amount : Item → ℚ) (items : List Item) :
    ((items.filter keep).map amount).sum =
      (items.map fun item => if keep item then amount item else 0).sum := by
  induction items with
  | nil => rfl
  | cons item rest ih =>
      cases kept : keep item with
      | true => simp [kept, ih]
      | false => simp [kept, ih]

/-- Filing keeps the counted fills' cash, whatever group each goes to. -/
theorem sum_filed_pairs (wanted : Uuid → EventType → Bool) (resolutions : Resolutions)
    (fills : List FillRecord) :
    ((filedPairs resolutions fills).map fun pair =>
        if wanted pair.1.positionId (eventTypeOf pair.1.role) then cashFlow pair.2 else 0).sum =
      ((fills.filter (countedFor wanted resolutions)).map cashFlow).sum := by
  induction fills with
  | nil => rfl
  | cons fill rest ih =>
      simp only [filedPairs] at ih ⊢
      cases filed : groupKeyOf resolutions fill with
      | none => simp [filed, countedFor, ih]
      | some key =>
          cases kept : wanted key.positionId (eventTypeOf key.role) with
          | true => simp [filed, countedFor, kept, ih]
          | false => simp [filed, countedFor, kept, ih]

/-- The law for any selection of positions and types that holds no gap. -/
theorem cash_of_selected (sha256 : String → String) (wanted : Uuid → EventType → Bool)
    (resolutions : Resolutions) (fills : List FillRecord)
    (sound : ∀ fill ∈ fills, countedFor wanted resolutions fill = true → ¬IsGap fill) :
    cashOf ((deriveEvents sha256 fills resolutions).events.filter
        fun event => wanted event.positionId event.eventType) =
      ((fills.filter (countedFor wanted resolutions)).map cashFlow).sum := by
  have grouped := derive_events_perm sha256 fills resolutions
  have perGroup : ∀ key ∈ groupKeys resolutions fills,
      (if wanted key.positionId (eventTypeOf key.role) then
        (eventOfGroup sha256 (key, groupMembers resolutions fills key)).cash else 0) =
      ((groupMembers resolutions fills key).map fun fill =>
        if wanted key.positionId (eventTypeOf key.role) then cashFlow fill else 0).sum := by
    intro key _
    cases kept : wanted key.positionId (eventTypeOf key.role) with
    | false => simp
    | true =>
        have groupSound : ∀ fill ∈ groupMembers resolutions fills key, ¬IsGap fill := by
          intro fill member
          rcases List.mem_filter.mp member with ⟨listed, filed⟩
          apply sound fill listed
          simp only [decide_eq_true_eq] at filed
          simp [countedFor, filed, kept]
        simpa using event_of_group_cash sha256 (key, groupMembers resolutions fills key) groupSound
  calc cashOf ((deriveEvents sha256 fills resolutions).events.filter
          fun event => wanted event.positionId event.eventType)
      = cashOf (((groupKeys resolutions fills).map fun key =>
          eventOfGroup sha256 (key, groupMembers resolutions fills key)).filter
            fun event => wanted event.positionId event.eventType) :=
        cash_of_perm _ _ (grouped.filter _)
    _ = ((groupKeys resolutions fills).map fun key =>
          if wanted key.positionId (eventTypeOf key.role) then
            (eventOfGroup sha256 (key, groupMembers resolutions fills key)).cash else 0).sum := by
        rw [cashOf, sum_filter, List.map_map]
        rfl
    _ = ((groupKeys resolutions fills).map fun key =>
          ((groupMembers resolutions fills key).map fun fill =>
            if wanted key.positionId (eventTypeOf key.role) then cashFlow fill else 0).sum).sum := by
        rw [List.map_congr_left perGroup]
    _ = ((groupPairs (filedPairs resolutions fills)).map fun group =>
          (group.2.map fun fill =>
            if wanted group.1.positionId (eventTypeOf group.1.role) then cashFlow fill else 0).sum).sum := by
        rw [groups_eq_members, List.map_map]
        rfl
    _ = ((filedPairs resolutions fills).map fun pair =>
          if wanted pair.1.positionId (eventTypeOf pair.1.role) then cashFlow pair.2 else 0).sum :=
        sum_group_pairs (filedPairs resolutions fills) fun key fill =>
          if wanted key.positionId (eventTypeOf key.role) then cashFlow fill else 0
    _ = ((fills.filter (countedFor wanted resolutions)).map cashFlow).sum :=
        sum_filed_pairs wanted resolutions fills

/-- Resolved to the position, and classified. -/
def CountsTowards (resolutions : Resolutions) (position : Uuid) (fill : FillRecord) : Prop :=
  resolutions.get fill.key = some position ∧ classifyFill fill.positionEffect ≠ .unknown

instance (resolutions : Resolutions) (position : Uuid) (fill : FillRecord) :
    Decidable (CountsTowards resolutions position fill) :=
  inferInstanceAs (Decidable (_ ∧ _))

/-- Resolved to some position, and classified. -/
def Counts (resolutions : Resolutions) (fill : FillRecord) : Prop :=
  resolutions.get fill.key ≠ none ∧ classifyFill fill.positionEffect ≠ .unknown

instance (resolutions : Resolutions) (fill : FillRecord) :
    Decidable (Counts resolutions fill) :=
  inferInstanceAs (Decidable (_ ∧ _))

theorem counted_for_position (resolutions : Resolutions) (position : Uuid) (fill : FillRecord) :
    countedFor (fun found _ => found = position) resolutions fill = true ↔
      CountsTowards resolutions position fill := by
  unfold countedFor CountsTowards groupKeyOf
  cases resolved : resolutions.get fill.key with
  | none => simp
  | some found =>
      by_cases unknown : classifyFill fill.positionEffect = .unknown
      · simp [unknown]
      · simp [unknown]

theorem counted_for_all (resolutions : Resolutions) (fill : FillRecord) :
    countedFor (fun _ _ => true) resolutions fill = true ↔ Counts resolutions fill := by
  unfold countedFor Counts groupKeyOf
  cases resolved : resolutions.get fill.key with
  | none => simp
  | some found =>
      by_cases unknown : classifyFill fill.positionEffect = .unknown
      · simp [unknown]
      · simp [unknown]

theorem position_cash (sha256 : String → String) (resolutions : Resolutions)
    (fills : List FillRecord) (position : Uuid)
    (sound : ∀ fill ∈ fills, CountsTowards resolutions position fill → ¬IsGap fill) :
    cashOf ((deriveEvents sha256 fills resolutions).events.filter
        fun event => event.positionId = position) =
      ((fills.filter fun fill => CountsTowards resolutions position fill).map cashFlow).sum := by
  have same : countedFor (fun found _ => found = position) resolutions =
      fun fill => decide (CountsTowards resolutions position fill) := by
    funext fill
    rw [Bool.eq_iff_iff, decide_eq_true_eq]
    exact counted_for_position resolutions position fill
  have law := cash_of_selected sha256 (fun found _ => found = position) resolutions fills
    fun fill member counted => sound fill member ((counted_for_position _ _ _).mp counted)
  rw [same] at law
  exact law

theorem total_cash (sha256 : String → String) (resolutions : Resolutions)
    (fills : List FillRecord)
    (sound : ∀ fill ∈ fills, Counts resolutions fill → ¬IsGap fill) :
    cashOf (deriveEvents sha256 fills resolutions).events =
      ((fills.filter fun fill => Counts resolutions fill).map cashFlow).sum := by
  have same : countedFor (fun _ _ => true) resolutions =
      fun fill => decide (Counts resolutions fill) := by
    funext fill
    rw [Bool.eq_iff_iff, decide_eq_true_eq]
    exact counted_for_all resolutions fill
  have law := cash_of_selected sha256 (fun _ _ => true) resolutions fills
    fun fill member counted => sound fill member ((counted_for_all _ _).mp counted)
  rw [same, List.filter_eq_self.mpr fun _ _ => rfl] at law
  exact law

/-- What an event of a group reports, in terms of that group alone. -/
structure ReportsGroup (resolutions : Resolutions) (fills : List FillRecord) (key : GroupKey)
    (event : DerivedEvent) : Prop where
  position : event.positionId = key.positionId
  type : event.eventType = eventTypeOf key.role
  gap : event.amount = none ↔
    ∃ fill ∈ fills, groupKeyOf resolutions fill = some key ∧ IsGap fill
  value : ∀ amount, event.amount = some amount →
    amount.toRat = (eventTypeOf key.role).sign *
      ((groupMembers resolutions fills key).map cashFlow).sum

theorem event_reports_group (sha256 : String → String) (resolutions : Resolutions)
    (fills : List FillRecord) (key : GroupKey) :
    ReportsGroup resolutions fills key
      (eventOfGroup sha256 (key, groupMembers resolutions fills key)) where
  position := rfl
  type := rfl
  gap := by
    rw [event_of_group_amount, net_amount_none]
    constructor
    · intro found
      rcases found with ⟨fill, member, gap⟩
      rcases List.mem_filter.mp member with ⟨listed, filed⟩
      exact ⟨fill, listed, by simpa using filed, gap⟩
    · intro found
      rcases found with ⟨fill, listed, filed, gap⟩
      exact ⟨fill, List.mem_filter.mpr ⟨listed, by simpa using filed⟩, gap⟩
  value := by
    intro amount reported
    rw [event_of_group_amount] at reported
    exact net_amount_value _ _ amount reported

/-- Cash conservation of `derive_events`: per position and in total when the
fills counted there hold no gap; and, gaps or not, one event per group, blank
exactly when its own group holds a gap. -/
theorem derive_events_conserves_cash (sha256 : String → String) (resolutions : Resolutions)
    (fills : List FillRecord) :
    (∀ position, (∀ fill ∈ fills, CountsTowards resolutions position fill → ¬IsGap fill) →
      cashOf ((deriveEvents sha256 fills resolutions).events.filter
          fun event => event.positionId = position) =
        ((fills.filter fun fill => CountsTowards resolutions position fill).map
          cashFlow).sum) ∧
      ((∀ fill ∈ fills, Counts resolutions fill → ¬IsGap fill) →
        cashOf (deriveEvents sha256 fills resolutions).events =
          ((fills.filter fun fill => Counts resolutions fill).map cashFlow).sum) ∧
      ∃ (keys : List GroupKey) (events : List DerivedEvent), keys.Nodup ∧
        (∀ key, key ∈ keys ↔ ∃ fill ∈ fills, groupKeyOf resolutions fill = some key) ∧
        (deriveEvents sha256 fills resolutions).events.Perm events ∧
        List.Forall₂ (ReportsGroup resolutions fills) keys events := by
  refine ⟨position_cash sha256 resolutions fills, total_cash sha256 resolutions fills,
    groupKeys resolutions fills, _, group_keys_nodup resolutions fills,
    mem_group_keys resolutions fills, derive_events_perm sha256 fills resolutions, ?_⟩
  rw [List.forall₂_map_right_iff, List.forall₂_same]
  intro key _
  exact event_reports_group sha256 resolutions fills key

end Morai.Ledger.CashConservation
