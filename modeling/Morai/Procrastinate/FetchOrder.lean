import Morai.Procrastinate.Effects

/-!
# Which job a fetch takes

A fetch that nothing overlaps takes the first of the jobs that are due and not
blocked, the unique index on locks never stops it, and it comes back without
a job only where every due job waits for a running job, or for one that is not
due itself, with its lock.
-/

namespace Morai.Procrastinate.FetchOrder

open Morai.Db Morai.Foundation.Runs Morai.Foundation.Serial Morai.Procrastinate.Schema
open Morai.Procrastinate.Functions Morai.Procrastinate.JobViews Morai.Procrastinate.Steps
open Morai.Procrastinate.Effects Morai.Python

set_option autoImplicit false

/-! ## The order -/

theorem ahead_total (left right : Job) : Ahead left right ∨ Ahead right left := by
  unfold Ahead
  omega

theorem ahead_trans (left middle right : Job) (first : Ahead left middle)
    (second : Ahead middle right) : Ahead left right := by
  unfold Ahead at *
  omega

instance : Std.Total Ahead := ⟨ahead_total⟩

instance : IsTrans Job Ahead := ⟨fun left middle right => ahead_trans left middle right⟩

/-- Comes before another job, and is not the same. -/
def Before (left right : Job) : Prop :=
  right.priority < left.priority ∨ left.priority = right.priority ∧ left.id < right.id

theorem before_not_ahead (left right : Job) (before : Before left right) : ¬Ahead right left := by
  unfold Before at before
  unfold Ahead
  omega

theorem blocked_iff (jobs : List Job) (job : Job) :
    blocked jobs job = true ↔ ∃ lock, job.lock = some lock ∧ ∃ other ∈ jobs, other.lock = some lock ∧
      (other.status = .doing ∨ other.status = .todo ∧ Before other job) := by
  simp only [blocked, List.any_eq_true, Bool.and_eq_true, Bool.or_eq_true, decide_eq_true_eq, Before]
  constructor
  · rintro ⟨other, member, ⟨locked, same⟩, holds⟩
    obtain ⟨lock, found⟩ := Option.isSome_iff_exists.mp locked
    refine ⟨lock, found, other, member, same.trans found, ?_⟩
    rcases holds with runs | ⟨waits, higher | ⟨equal, earlier⟩⟩
    · exact Or.inl runs
    · exact Or.inr ⟨waits, Or.inl higher⟩
    · exact Or.inr ⟨waits, Or.inr ⟨equal, earlier⟩⟩
  · rintro ⟨lock, found, other, member, same, holds⟩
    refine ⟨other, member, ⟨by rw [found]; rfl, same.trans found.symm⟩, ?_⟩
    rcases holds with runs | ⟨waits, higher | ⟨equal, earlier⟩⟩
    · exact Or.inl runs
    · exact Or.inr ⟨waits, Or.inl higher⟩
    · exact Or.inr ⟨waits, Or.inr ⟨equal, earlier⟩⟩

theorem due_todo (targetQueueNames : Option (List String)) (now : Instant) (job : Job)
    (isDue : due targetQueueNames now job = true) : job.status = .todo := by
  simp only [due, Bool.and_eq_true, decide_eq_true_eq] at isDue
  exact isDue.1.1

theorem mem_candidates (jobs : List Job) (targetQueueNames : Option (List String)) (now : Instant)
    (job : Job) :
    job ∈ candidates jobs targetQueueNames now ↔
      job ∈ jobs ∧ blocked jobs job = false ∧ due targetQueueNames now job = true := by
  simp [candidates, List.mem_insertionSort]

/-- Of some jobs one comes first. -/
theorem exists_first (jobs : List Job) (some_ : jobs ≠ []) :
    ∃ first ∈ jobs, ∀ other ∈ jobs, Ahead first other := by
  cases sorted : jobs.insertionSort Ahead with
  | nil =>
      have empty := (List.perm_insertionSort Ahead jobs).symm
      rw [sorted] at empty
      exact absurd empty.eq_nil some_
  | cons first rest =>
      have member : first ∈ jobs := by
        rw [← List.mem_insertionSort Ahead, sorted]
        exact List.mem_cons_self
      refine ⟨first, member, fun other otherMember => ?_⟩
      have order := List.pairwise_insertionSort Ahead jobs
      rw [sorted] at order
      rw [← List.mem_insertionSort Ahead, sorted] at otherMember
      cases List.mem_cons.mp otherMember with
      | inl same =>
          rw [same]
          exact Or.inr ⟨rfl, Nat.le_refl _⟩
      | inr later => exact (List.pairwise_cons.mp order).1 other later

/-! ## The fetched job -/

/-- Nothing overlaps: every candidate of the snapshot is as it was. -/
theorem lock_candidate_alone (targetQueueNames : Option (List String)) (now : Instant)
    (store : JobStore) :
    lockCandidate store.jobs.rows [] targetQueueNames now store =
      (candidates store.jobs.rows targetQueueNames now).head? := by
  unfold lockCandidate
  cases listed : candidates store.jobs.rows targetQueueNames now with
  | nil => rfl
  | cons first rest =>
      have member : first ∈ candidates store.jobs.rows targetQueueNames now := by
        rw [listed]
        exact List.mem_cons_self
      obtain ⟨row, _, isDue⟩ := (mem_candidates _ _ _ _).mp member
      simp [store.jobs.get_of_mem first row, Option.filter, isDue]

/-- What a fetch takes is due, is not blocked, and comes before every other
such job. -/
theorem candidate_first (targetQueueNames : Option (List String)) (now : Instant) (store : JobStore)
    (candidate : Job)
    (picked : lockCandidate store.jobs.rows [] targetQueueNames now store = some candidate) :
    candidate ∈ store.jobs.rows ∧ blocked store.jobs.rows candidate = false ∧
      due targetQueueNames now candidate = true ∧
      ∀ other ∈ store.jobs.rows, blocked store.jobs.rows other = false →
        due targetQueueNames now other = true → Ahead candidate other := by
  rw [lock_candidate_alone] at picked
  obtain ⟨rest, listed⟩ := List.head?_eq_some_iff.mp picked
  have member : candidate ∈ candidates store.jobs.rows targetQueueNames now := by
    rw [listed]
    exact List.mem_cons_self
  obtain ⟨row, free, isDue⟩ := (mem_candidates _ _ _ _).mp member
  refine ⟨row, free, isDue, fun other otherRow otherFree otherDue => ?_⟩
  have otherMember := (mem_candidates _ targetQueueNames now other).mpr ⟨otherRow, otherFree, otherDue⟩
  have order := List.pairwise_insertionSort Ahead
    (store.jobs.rows.filter fun job => !blocked store.jobs.rows job && due targetQueueNames now job)
  change (candidates store.jobs.rows targetQueueNames now).Pairwise Ahead at order
  rw [listed] at order otherMember
  cases List.mem_cons.mp otherMember with
  | inl same =>
      rw [same]
      exact Or.inr ⟨rfl, Nat.le_refl _⟩
  | inr later => exact (List.pairwise_cons.mp order).1 other later

/-- A due job with nothing in its way is reason enough to fetch one. -/
theorem candidate_exists (targetQueueNames : Option (List String)) (now : Instant) (store : JobStore)
    (job : Job) (row : job ∈ store.jobs.rows) (free : blocked store.jobs.rows job = false)
    (isDue : due targetQueueNames now job = true) :
    ∃ candidate, lockCandidate store.jobs.rows [] targetQueueNames now store = some candidate := by
  rw [lock_candidate_alone]
  have member := (mem_candidates _ targetQueueNames now job).mpr ⟨row, free, isDue⟩
  cases listed : candidates store.jobs.rows targetQueueNames now with
  | nil =>
      rw [listed] at member
      cases member
  | cons first rest => exact ⟨first, rfl⟩

/-- A fetch comes back without a job only where every due job waits for a job
with its lock that runs, or that comes before it and is not due. So where all
waiting jobs are due, waiting jobs alone never hold each other up. -/
theorem fetch_none_waits (targetQueueNames : Option (List String)) (workerId : Option Nat)
    (now : Instant) (store after : JobStore)
    (fetched : fetchJobV2 targetQueueNames workerId now store = .ok (none, after)) (job : Job)
    (row : job ∈ store.jobs.rows) (isDue : due targetQueueNames now job = true) :
    ∃ lock, job.lock = some lock ∧ ∃ other ∈ store.jobs.rows, other.lock = some lock ∧
      (other.status = .doing ∨
        other.status = .todo ∧ due targetQueueNames now other = false ∧ Ahead other job) := by
  have nothing : ∀ other ∈ store.jobs.rows, due targetQueueNames now other = true →
      blocked store.jobs.rows other = true := by
    intro other otherRow otherDue
    by_contra free
    obtain ⟨candidate, picked⟩ := candidate_exists targetQueueNames now store other otherRow
      (by simpa using free) otherDue
    rcases fetch_job_spec _ _ _ _ _ _ _ _ fetched with ⟨none, _⟩ | ⟨_, _, found, _⟩
    · rw [picked] at none
      cases none
    · cases found
  obtain ⟨lock, locked, _⟩ := (blocked_iff _ _).mp (nothing job row isDue)
  refine ⟨lock, locked, ?_⟩
  -- The first of the waiting jobs with the lock cannot wait for another of them.
  have waiting : job ∈ store.jobs.rows.filter fun other =>
      decide (other.lock = some lock ∧ other.status = .todo) := by
    simp [row, locked, due_todo _ _ _ isDue]
  obtain ⟨first, firstMember, isFirst⟩ := exists_first _ (List.ne_nil_of_mem waiting)
  obtain ⟨firstRow, firstShape⟩ := List.mem_filter.mp firstMember
  obtain ⟨firstLock, firstWaits⟩ := of_decide_eq_true firstShape
  cases firstDue : due targetQueueNames now first with
  | false => exact ⟨first, firstRow, firstLock, Or.inr ⟨firstWaits, firstDue, isFirst job waiting⟩⟩
  | true =>
      obtain ⟨held, heldIs, other, otherRow, otherLock, blocks⟩ :=
        (blocked_iff _ _).mp (nothing first firstRow firstDue)
      rw [firstLock] at heldIs
      cases heldIs
      cases blocks with
      | inl runs => exact ⟨other, otherRow, otherLock, Or.inl runs⟩
      | inr ahead =>
          have otherMember : other ∈ store.jobs.rows.filter fun other =>
              decide (other.lock = some lock ∧ other.status = .todo) := by
            simp [otherRow, otherLock, ahead.1]
          exact absurd (isFirst other otherMember) (before_not_ahead other first ahead.2)

theorem fetch_none_waits_locked :
    ∃ (store after : JobStore) (job : Job), runFrom step firstFetched .empty = some store ∧
      fetchJobV2 none (some 1) 9 store = .ok (none, after) ∧ job.id = 2 ∧
      ∃ lock, job.lock = some lock ∧ ∃ other ∈ store.jobs.rows, other.lock = some lock ∧
        (other.status = .doing ∨
          other.status = .todo ∧ due none 9 other = false ∧ Ahead other job) := by
  have reads : ((runFrom step firstFetched .empty).any fun store =>
      ((fetchJobV2 none (some 1) 9 store).toOption.any fun fetched => fetched.1.isNone) &&
        store.jobs.rows.any fun job => decide (job.id = 2) && due none 9 job) = true := by
    decide +kernel
  obtain ⟨present, waits⟩ := (Option.any_eq_true_iff_get _ _).mp reads
  obtain ⟨answers, found⟩ := Bool.and_eq_true_iff.mp waits
  obtain ⟨answered, nothing⟩ := (Option.any_eq_true_iff_get _ _).mp answers
  obtain ⟨job, member, shape⟩ := List.any_eq_true.mp found
  obtain ⟨second, isDue⟩ := Bool.and_eq_true_iff.mp shape
  have fetched := ok_of_to_option _ _ (Option.some_get answered).symm
  rw [← Prod.mk.eta (p := Option.get _ answered), Option.isNone_iff_eq_none.mp nothing] at fetched
  exact ⟨_, _, job, (Option.some_get present).symm, fetched, of_decide_eq_true second,
    fetch_none_waits none (some 1) 9 _ _ fetched job member isDue⟩

end Morai.Procrastinate.FetchOrder
