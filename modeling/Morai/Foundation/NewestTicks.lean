import Mathlib.Order.Lattice

/-!
# Ticks known by the newest

A register of ticks takes a tick it does not hold and drops the older ones
then. It forgets: a tick may be taken again once a newer one has been. Ticks
that are offered in order are taken once each.
-/

namespace Morai.Foundation.NewestTicks

set_option autoImplicit false

variable {Time : Type*} [LinearOrder Time]

/-- What the register holds once the tick is taken, or nothing where it is
known. -/
def offer (known : List Time) (tick : Time) : Option (List Time) :=
  if tick ∈ known then none else some ((known.filter fun other => tick ≤ other) ++ [tick])

/-- The ticks taken of those offered, in order. -/
def taken : List Time → List Time → List Time
  | [], _ => []
  | tick :: rest, known =>
      match offer known tick with
      | none => taken rest known
      | some next => tick :: taken rest next

/-- What the register holds in the end. -/
def held : List Time → List Time → List Time
  | [], known => known
  | tick :: rest, known => held rest ((offer known tick).getD known)

theorem offer_eq_none_iff (known : List Time) (tick : Time) :
    offer known tick = none ↔ tick ∈ known := by
  unfold offer
  split_ifs with old <;> simp [old]

theorem offer_some (known next : List Time) (tick : Time) (took : offer known tick = some next) :
    tick ∉ known ∧ next = (known.filter fun other => tick ≤ other) ++ [tick] := by
  unfold offer at took
  split_ifs at took with old
  exact ⟨old, (Option.some.inj took).symm⟩

theorem mem_offer (known next : List Time) (tick other : Time) (took : offer known tick = some next) :
    other ∈ next ↔ other ∈ known ∧ tick ≤ other ∨ other = tick := by
  rw [(offer_some known next tick took).2]
  simp

/-- Ticks offered in order leave the last one only. -/
theorem held_ordered (ticks known : List Time) (ordered : ticks.Pairwise (· ≤ ·))
    (recent : ∀ old ∈ known, ∀ tick ∈ ticks, old ≤ tick) (few : known.length ≤ 1) :
    (held ticks known).length ≤ 1 := by
  induction ticks generalizing known with
  | nil => exact few
  | cons tick rest ih =>
      obtain ⟨least, restOrdered⟩ := List.pairwise_cons.mp ordered
      rw [held]
      cases took : offer known tick with
      | none =>
          exact ih known restOrdered
            (fun old member later there => recent old member later (List.mem_cons_of_mem _ there)) few
      | some next =>
          obtain ⟨new, same⟩ := offer_some known next tick took
          have older : (known.filter fun other => tick ≤ other) = [] := by
            rw [List.filter_eq_nil_iff]
            intro old member notOlder
            have equal := le_antisymm (recent old member tick List.mem_cons_self)
              (of_decide_eq_true notOlder)
            exact new (equal ▸ member)
          rw [older, List.nil_append] at same
          subst same
          refine ih [tick] restOrdered ?_ (Nat.le_refl 1)
          intro old member later there
          rw [List.mem_singleton.mp member]
          exact least later there

/-- A known tick is taken again only after a newer one. -/
theorem known_taken_after_newer (ticks known before after : List Time) (tick : Time)
    (old : tick ∈ known) (split : taken ticks known = before ++ tick :: after) :
    ∃ newer ∈ before, tick < newer := by
  induction ticks generalizing known before with
  | nil => simp [taken] at split
  | cons first rest ih =>
      rw [taken] at split
      cases took : offer known first with
      | none =>
          rw [took] at split
          exact ih known before old split
      | some next =>
          rw [took] at split
          cases before with
          | nil =>
              have same := (List.cons.inj split).1
              exact absurd (same ▸ old) (offer_some known next first took).1
          | cons other between =>
              obtain ⟨same, later⟩ := List.cons.inj split
              cases lt_or_ge tick first with
              | inl newer => exact ⟨other, List.mem_cons_self, same ▸ newer⟩
              | inr notNewer =>
                  have still : tick ∈ next := (mem_offer known next first tick took).mpr
                    (Or.inl ⟨old, notNewer⟩)
                  obtain ⟨newer, member, beyond⟩ := ih next between still later
                  exact ⟨newer, List.mem_cons_of_mem _ member, beyond⟩

/-- A tick is taken twice only with a newer one in between. -/
theorem taken_again_after_newer (ticks known before between after : List Time) (tick : Time)
    (split : taken ticks known = before ++ tick :: (between ++ tick :: after)) :
    ∃ newer ∈ between, tick < newer := by
  induction ticks generalizing known before with
  | nil => simp [taken] at split
  | cons first rest ih =>
      rw [taken] at split
      cases took : offer known first with
      | none =>
          rw [took] at split
          exact ih known before split
      | some next =>
          rw [took] at split
          cases before with
          | nil =>
              obtain ⟨same, later⟩ := List.cons.inj split
              have holds : tick ∈ next :=
                (mem_offer known next first tick took).mpr (Or.inr same.symm)
              exact known_taken_after_newer rest next between after tick holds later
          | cons other more => exact ih next more (List.cons.inj split).2

/-- Ticks offered in order, none older than what is known, are taken once
each. -/
theorem taken_ascending (ticks known : List Time) (ordered : ticks.Pairwise (· ≤ ·))
    (recent : ∀ old ∈ known, ∀ tick ∈ ticks, old ≤ tick) :
    (taken ticks known).Pairwise (· < ·) ∧
      ∀ tick, tick ∈ taken ticks known ↔ tick ∈ ticks ∧ tick ∉ known := by
  induction ticks generalizing known with
  | nil => simp [taken]
  | cons first rest ih =>
      obtain ⟨least, restOrdered⟩ := List.pairwise_cons.mp ordered
      have restRecent : ∀ old ∈ known, ∀ tick ∈ rest, old ≤ tick := fun old member tick later =>
        recent old member tick (List.mem_cons_of_mem _ later)
      rw [taken]
      cases took : offer known first with
      | none =>
          have old := (offer_eq_none_iff known first).mp took
          obtain ⟨ascends, exactly⟩ := ih known restOrdered restRecent
          refine ⟨ascends, fun tick => ?_⟩
          rw [exactly, List.mem_cons]
          constructor
          · rintro ⟨later, new⟩
            exact ⟨Or.inr later, new⟩
          · rintro ⟨same | later, new⟩
            · exact absurd (same ▸ old) new
            · exact ⟨later, new⟩
      | some next =>
          have new := (offer_some known next first took).1
          have recentNext : ∀ old ∈ next, ∀ tick ∈ rest, old ≤ tick := by
            intro old member tick later
            rcases (mem_offer known next first old took).mp member with ⟨kept, _⟩ | same
            · exact restRecent old kept tick later
            · exact same ▸ least tick later
          obtain ⟨ascends, exactly⟩ := ih next restOrdered recentNext
          refine ⟨List.pairwise_cons.mpr ⟨?_, ascends⟩, fun tick => ?_⟩
          · intro tick member
            obtain ⟨later, unknown⟩ := (exactly tick).mp member
            refine lt_of_le_of_ne (least tick later) ?_
            intro same
            exact unknown ((mem_offer known next first tick took).mpr (Or.inr same.symm))
          · rw [List.mem_cons, exactly, List.mem_cons, mem_offer known next first tick took]
            constructor
            · rintro (same | ⟨later, unknown⟩)
              · exact ⟨Or.inl same, same ▸ new⟩
              · refine ⟨Or.inr later, fun old => unknown (Or.inl ⟨old, least tick later⟩)⟩
            · rintro ⟨same | later, unknown⟩
              · exact Or.inl same
              · by_cases same : tick = first
                · exact Or.inl same
                · refine Or.inr ⟨later, ?_⟩
                  rintro (⟨old, _⟩ | is)
                  · exact unknown old
                  · exact same is

end Morai.Foundation.NewestTicks
