import Morai.Procrastinate.Admitted

/-!
# One worker, one job at a time

The worker process runs jobs serially: it fetches a job, runs it, ends it and
fetches again. Where nothing else fetches and every waiting job is due, locks
and all, it takes each of them once, by priority and then in the order they
were deferred.
-/

namespace Morai.Procrastinate.LoneWorker

open Morai.Foundation.Runs Morai.Foundation.Serial Morai.Procrastinate.Schema
open Morai.Procrastinate.Functions Morai.Procrastinate.Steps Morai.Procrastinate.Effects
open Morai.Procrastinate.FetchOrder Morai.Procrastinate.Admitted Morai.Python

set_option autoImplicit false

/-- One turn of the worker: when it fetches, and how the job it gets ends. -/
structure Turn where
  fetchedAt : Instant
  endStatus : JobStatus
  deleteJob : Bool
  finishedAt : Instant

/-- The jobs a worker without `queues` takes, in the order it takes them. -/
def serve (workerId : Nat) : List Turn → JobStore → Except SqlError (List Job × JobStore)
  | [], store => .ok ([], store)
  | turn :: rest, store => do
      let fetched ← fetchJobV2 none (some workerId) turn.fetchedAt store
      match fetched.1 with
      | none => serve workerId rest fetched.2
      | some job =>
          let finished ← finishJobV1 job.id turn.endStatus turn.deleteJob turn.finishedAt fetched.2
          let later ← serve workerId rest finished
          return (job :: later.1, later.2)

def waiting (store : JobStore) : List Job :=
  store.jobs.rows.filter fun job => job.status = .todo

/-- Only rows that already counted count after a change, and those are as they
were. -/
theorem filter_map_kept (rows : List Job) (change : Job → Job) (before after : Job → Bool)
    (agree : ∀ row ∈ rows, after (change row) = before row)
    (same : ∀ row ∈ rows, before row = true → change row = row) :
    (rows.map change).filter after = rows.filter before := by
  induction rows with
  | nil => rfl
  | cons row rest ih =>
      have restKept := ih (fun other member => agree other (List.mem_cons_of_mem _ member))
        (fun other member => same other (List.mem_cons_of_mem _ member))
      rw [List.map_cons]
      cases counts : before row with
      | true =>
          rw [List.filter_cons_of_pos ((agree row List.mem_cons_self).trans counts),
            List.filter_cons_of_pos counts, restKept, same row List.mem_cons_self counts]
      | false =>
          rw [List.filter_cons_of_neg (by simp [agree row List.mem_cons_self, counts]),
            List.filter_cons_of_neg (by simp [counts]), restKept]

def Idle (store : JobStore) : Prop := ∀ job ∈ store.jobs.rows, job.status ≠ .doing

/-- One job runs, and no other. -/
structure Busy (store : JobStore) (job : Job) : Prop where
  row : store.jobs.get? job.id = some job
  runs : job.status = .doing
  only : ∀ other ∈ store.jobs.rows, other.status = .doing → other.id = job.id

theorem fetched_busy (workerId : Option Nat) (now : Instant) (store fetched : JobStore) (job : Job)
    (row : store.jobs.get? job.id = some job) (idle : Idle store)
    (started : fetched.toJobTables = updateJobs ⟨true, false⟩ now (fun other => other.id = job.id)
      (startedBy workerId) (fun _ => rfl) store.toJobTables) :
    Busy fetched (startedBy workerId job) ∧
      waiting fetched = (waiting store).filter (fun other => decide (other.id ≠ job.id)) ∧
      fetched.workers = store.workers := by
  have rows : fetched.jobs.rows = store.jobs.rows.map fun other =>
      if decide (other.id = job.id) = true then startedBy workerId other else other := by
    rw [started]
    rfl
  refine ⟨⟨?_, rfl, ?_⟩, ?_, ?_⟩
  · have found := store.jobs.update_get (fun other => decide (other.id = job.id))
      (startedBy workerId) (fun _ => rfl) job.id
    rw [row, Option.map_some, if_pos (decide_eq_true rfl)] at found
    rw [started]
    exact found
  · intro other member runs
    rw [rows] at member
    obtain ⟨old, oldMember, made⟩ := List.mem_map.mp member
    rw [← made] at runs ⊢
    split_ifs at runs ⊢ with same
    · exact of_decide_eq_true same
    · exact absurd runs (idle old oldMember)
  · rw [waiting, rows, waiting, List.filter_filter]
    apply filter_map_kept
    · intro other _
      by_cases same : other.id = job.id
      · simp [same, startedBy]
      · simp [same]
    · intro other _ kept
      rw [if_neg]
      intro same
      simp [of_decide_eq_true same] at kept
  · rw [started]
    rfl

theorem finished_idle (store after : JobStore) (job : Job) (endStatus : JobStatus) (deleteJob : Bool)
    (now : Instant) (busy : Busy store job)
    (ended : finishJobV1 job.id endStatus deleteJob now store = .ok after) :
    Idle after ∧ waiting after = waiting store ∧ after.workers = store.workers ∧
      (deleteJob = false → after.jobs.rows = store.jobs.rows.map fun other =>
        if other.id = job.id then finishedAs endStatus other else other) := by
  obtain ⟨ends, _, tables⟩ := finish_job_spec _ _ _ _ _ _ ended
  have past : endStatus ≠ .todo ∧ endStatus ≠ .doing := by
    constructor <;> intro same <;> rw [same] at ends <;> simp at ends
  obtain ⟨jobMember, _⟩ := (store.jobs.get_eq_some_iff _ _).mp busy.row
  -- The statement chooses the running job's row.
  have chosen : ∀ other ∈ store.jobs.rows,
      jobIn job.id [.todo, .doing] other = decide (other.id = job.id) := by
    intro other member
    by_cases same : other.id = job.id
    · have is := store.jobs.eq_of_id other job member jobMember same
      simp [jobIn, is, busy.runs]
    · simp [jobIn, same]
  have notWaiting : ∀ other ∈ store.jobs.rows, other.id = job.id → other.status = .doing := by
    intro other member same
    rw [store.jobs.eq_of_id other job member jobMember same]
    exact busy.runs
  cases deleteJob with
  | true =>
      rw [if_pos rfl] at tables
      have rows : after.jobs.rows = store.jobs.rows.filter fun other =>
          decide (other.id ≠ job.id) := by
        rw [tables]
        apply List.filter_congr
        intro other member
        rw [chosen other member]
        simp
      refine ⟨?_, ?_, by rw [tables]; rfl, by simp⟩
      · intro other member runs
        rw [rows] at member
        obtain ⟨old, apart⟩ := List.mem_filter.mp member
        exact of_decide_eq_true apart (busy.only other old runs)
      · rw [waiting, rows, waiting, List.filter_filter]
        apply List.filter_congr
        intro other member
        by_cases same : other.id = job.id
        · simp [same, notWaiting other member same]
        · simp [same]
  | false =>
      rw [if_neg (by simp)] at tables
      have rows : after.jobs.rows = store.jobs.rows.map fun other =>
          if other.id = job.id then finishedAs endStatus other else other := by
        rw [tables]
        apply List.map_congr_left
        intro other member
        rw [chosen other member]
        simp
      refine ⟨?_, ?_, by rw [tables]; rfl, fun _ => rows⟩
      · intro other member
        rw [rows] at member
        obtain ⟨old, oldMember, made⟩ := List.mem_map.mp member
        rw [← made]
        split_ifs with same
        · exact past.2
        · exact fun runs => same (busy.only old oldMember runs)
      · rw [waiting, rows, waiting]
        apply filter_map_kept
        · intro other member
          by_cases same : other.id = job.id
          · simp [same, finishedAs, past.1, notWaiting other member same]
          · simp [same]
        · intro other member waits
          rw [if_neg]
          intro same
          simp [notWaiting other member same] at waits

/-- Where all that waits is due and nothing runs, the first waiting job is the
one that is fetched. -/
theorem first_fetched (store : JobStore) (now : Instant)
    (idle : Idle store)
    (ready : ∀ job ∈ waiting store, due none now job = true) (some_ : waiting store ≠ []) :
    ∃ first, lockCandidate store.jobs.rows [] none now store = some first ∧
      first ∈ waiting store ∧ ∀ other ∈ waiting store, Ahead first other := by
  obtain ⟨first, firstMember, isFirst⟩ := exists_first (waiting store) some_
  obtain ⟨firstRow, _⟩ := List.mem_filter.mp firstMember
  have free : blocked store.jobs.rows first = false := by
    cases isBlocked : blocked store.jobs.rows first with
    | false => rfl
    | true =>
        obtain ⟨_, _, other, otherRow, _, holds⟩ := (blocked_iff _ _).mp isBlocked
        cases holds with
        | inl runs => exact absurd runs (idle other otherRow)
        | inr ahead =>
            have otherMember : other ∈ waiting store :=
              List.mem_filter.mpr ⟨otherRow, decide_eq_true ahead.1⟩
            exact absurd (isFirst other otherMember) (before_not_ahead other first ahead.2)
  obtain ⟨candidate, picked⟩ := candidate_exists none now store first firstRow free
    (ready first firstMember)
  obtain ⟨row, _, isDue, ahead⟩ := candidate_first _ _ _ _ picked
  refine ⟨candidate, picked, List.mem_filter.mpr ⟨row, decide_eq_true (due_todo _ _ _ isDue)⟩, ?_⟩
  intro other otherMember
  exact ahead_trans candidate first other (ahead first firstRow free (ready first firstMember))
    (isFirst other otherMember)

theorem nothing_fetched (store : JobStore) (workerId : Nat) (now : Instant)
    (empty : waiting store = []) :
    fetchJobV2 none (some workerId) now store = .ok (none, store) := by
  have none_ : lockCandidate store.jobs.rows [] none now store = none := by
    cases picked : lockCandidate store.jobs.rows [] none now store with
    | none => rfl
    | some candidate =>
        obtain ⟨row, _, isDue, _⟩ := candidate_first _ _ _ _ picked
        have member : candidate ∈ waiting store :=
          List.mem_filter.mpr ⟨row, decide_eq_true (due_todo _ _ _ isDue)⟩
        rw [empty] at member
        cases member
  unfold fetchJobV2 fetchJobV2Among
  rw [none_]

/-- The waiting jobs are the one that was served and the others. -/
theorem waiting_perm (store : JobStore) (job : Job) (member : job ∈ waiting store) :
    (waiting store).Perm
      (job :: (waiting store).filter fun other => decide (other.id ≠ job.id)) := by
  have ordered : (waiting store).Pairwise fun earlier later => earlier.id < later.id :=
    store.jobs.ordered.sublist List.filter_sublist
  have one : ((waiting store).filter fun other => decide (other.id = job.id)) = [job] := by
    have picked := @SerialTable.filter_eq_find Job Job.id (waiting store) job.id ordered
    rw [picked]
    cases found : (waiting store).find? fun other => decide (other.id = job.id) with
    | none =>
        have absent := List.find?_eq_none.mp found job member
        simp at absent
    | some other =>
        have otherRow := List.mem_of_mem_filter (List.mem_of_find?_eq_some found)
        have sameId : other.id = job.id := by simpa using List.find?_some found
        rw [store.jobs.eq_of_id other job otherRow (List.mem_of_mem_filter member) sameId]
        rfl
  have split := List.filter_append_perm (fun other => decide (other.id = job.id)) (waiting store)
  rw [one, List.singleton_append] at split
  have others : ((waiting store).filter fun other => !decide (other.id = job.id)) =
      (waiting store).filter fun other => decide (other.id ≠ job.id) :=
    List.filter_congr fun other _ => (decide_not).symm
  rw [others] at split
  exact split.symm

/-- A turn of the worker where something waits: it gets the first of the waiting
jobs, and nothing keeps it from ending it. -/
theorem turn_fetches (workerId : Nat) (now : Instant) (store : JobStore)
    (registered : (store.workers.get? workerId).isSome) (idle : Idle store)
    (ready : ∀ job ∈ waiting store, due none now job = true) (some_ : waiting store ≠ []) :
    ∃ first fetched, first ∈ waiting store ∧ (∀ other ∈ waiting store, Ahead first other) ∧
      fetchJobV2 none (some workerId) now store =
        .ok (some (startedBy (some workerId) first), fetched) ∧
      fetched.toJobTables = updateJobs ⟨true, false⟩ now (fun other => other.id = first.id)
        (startedBy (some workerId)) (fun _ => rfl) store.toJobTables ∧
      Busy fetched (startedBy (some workerId) first) ∧
      waiting fetched = (waiting store).filter (fun other => decide (other.id ≠ first.id)) ∧
      fetched.workers = store.workers := by
  obtain ⟨first, picked, member, isFirst⟩ := first_fetched store now idle ready some_
  obtain ⟨row, _⟩ := List.mem_filter.mp member
  have isRegistered : ∀ wanted ∈ some workerId, (store.workers.get? wanted).isSome := by
    intro wanted same
    cases same
    exact registered
  obtain ⟨fetched, fetchedOk⟩ := fetch_admitted none (some workerId) now store first picked
    isRegistered
  rcases fetch_job_spec _ _ _ _ _ _ _ _ fetchedOk with ⟨none_, _⟩ | ⟨other, otherPicked, _, started⟩
  · rw [picked] at none_
    cases none_
  rw [picked] at otherPicked
  cases otherPicked
  exact ⟨first, fetched, member, isFirst, fetchedOk, started,
    fetched_busy _ now store fetched first (store.jobs.get_of_mem first row) idle started⟩

/-- With a turn for each of them the worker takes all waiting jobs, each once,
the higher priority first and within a priority the one deferred earlier. -/
theorem lone_worker_serves_in_order (workerId : Nat) (turns : List Turn) (store : JobStore)
    (registered : (store.workers.get? workerId).isSome) (idle : Idle store)
    (ends : ∀ turn ∈ turns, turn.endStatus ∈ [JobStatus.succeeded, .failed, .aborted])
    (ready : ∀ job ∈ waiting store, ∀ turn ∈ turns, due none turn.fetchedAt job = true)
    (enough : (waiting store).length ≤ turns.length) :
    ∃ (jobs : List Job) (final : JobStore),
      serve workerId turns store = .ok (jobs.map (startedBy (some workerId)), final) ∧
        jobs.Pairwise Ahead ∧ jobs.Perm (waiting store) ∧ waiting final = [] := by
  induction turns generalizing store with
  | nil =>
      have empty : waiting store = [] := List.eq_nil_of_length_eq_zero (Nat.le_zero.mp enough)
      exact ⟨[], store, rfl, List.Pairwise.nil, by rw [empty], empty⟩
  | cons turn rest ih =>
      have restEnds := fun other member => ends other (List.mem_cons_of_mem turn member)
      by_cases empty : waiting store = []
      · obtain ⟨jobs, final, ran, order, perm, done⟩ := ih store registered idle restEnds
          (fun job member other otherMember =>
            ready job member other (List.mem_cons_of_mem turn otherMember))
          (by simp [empty])
        refine ⟨jobs, final, ?_, order, perm, done⟩
        have nothing := nothing_fetched store workerId turn.fetchedAt empty
        simp only [serve, nothing, bind, Except.bind]
        exact ran
      · obtain ⟨first, fetched, member, isFirst, fetchedOk, _, busy, fewer, workers⟩ :=
          turn_fetches workerId turn.fetchedAt store registered idle
            (fun job jobMember => ready job jobMember turn List.mem_cons_self) empty
        have sameId : (startedBy (some workerId) first).id = first.id := rfl
        obtain ⟨finished, finishedOk⟩ := finish_admitted fetched _ _ busy.row busy.runs turn.endStatus
          (ends turn List.mem_cons_self) turn.deleteJob turn.finishedAt
        obtain ⟨stillIdle, stillWaiting, finishedWorkers, _⟩ := finished_idle fetched finished _ _ _ _
          busy finishedOk
        rw [fewer] at stillWaiting
        have split := waiting_perm store first member
        rw [← stillWaiting] at split
        have shorter := split.length_eq
        simp only [List.length_cons] at shorter enough
        have kept : ∀ job ∈ waiting finished, job ∈ waiting store := by
          intro job jobMember
          rw [stillWaiting] at jobMember
          exact List.mem_of_mem_filter jobMember
        obtain ⟨jobs, final, ran, order, perm, done⟩ := ih finished
          (by rw [finishedWorkers, workers]; exact registered) stillIdle restEnds
          (fun job jobMember later laterMember =>
            ready job (kept job jobMember) later (List.mem_cons_of_mem turn laterMember))
          (by omega)
        refine ⟨first :: jobs, final, ?_, ?_, ?_, done⟩
        · simp only [serve, fetchedOk, bind, Except.bind, finishedOk, ran]
          rfl
        · refine List.pairwise_cons.mpr ⟨fun job jobMember => ?_, order⟩
          exact isFirst job (kept job (perm.mem_iff.mp jobMember))
        · exact (List.Perm.cons first perm).trans split.symm

/-- Three waiting jobs, two of them with one lock. -/
def threeWaiting : List Action :=
  [.registerWorker 0, .deferJobs [lockedJob 0, { lockedJob 0 with lock := none }, lockedJob 3] 0]

def threeTurns : List Turn :=
  [⟨1, .succeeded, false, 2⟩, ⟨3, .failed, false, 4⟩, ⟨5, .succeeded, true, 6⟩]

theorem lone_worker_serves_three :
    ∃ (store : JobStore) (jobs : List Job) (final : JobStore),
      runFrom step threeWaiting .empty = some store ∧
        serve 1 threeTurns store = .ok (jobs.map (startedBy (some 1)), final) ∧
        jobs.Pairwise Ahead ∧ jobs.Perm (waiting store) ∧ waiting final = [] := by
  have reads : ((runFrom step threeWaiting .empty).any fun store =>
      (store.workers.get? 1).isSome &&
        (decide (∀ job ∈ store.jobs.rows, job.status ≠ .doing) &&
          decide ((∀ job ∈ waiting store, ∀ turn ∈ threeTurns, due none turn.fetchedAt job = true) ∧
            (waiting store).length ≤ threeTurns.length))) = true := by
    decide +kernel
  obtain ⟨present, holds⟩ := (Option.any_eq_true_iff_get _ _).mp reads
  obtain ⟨registered, rest⟩ := Bool.and_eq_true_iff.mp holds
  obtain ⟨idle, waits⟩ := Bool.and_eq_true_iff.mp rest
  have unstarted : Idle _ := fun job member => of_decide_eq_true idle job member
  obtain ⟨ready, enough⟩ := of_decide_eq_true waits
  obtain ⟨jobs, final, served⟩ := lone_worker_serves_in_order 1 threeTurns _ registered unstarted
    (by decide) ready enough
  exact ⟨_, jobs, final, (Option.some_get present).symm, served⟩

end Morai.Procrastinate.LoneWorker
