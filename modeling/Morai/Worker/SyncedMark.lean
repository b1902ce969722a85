import Morai.Worker.NoHole

/-!
# The order of the sync times

A job takes its `started_at` before it waits for the user's lock and writes it
as `last_synced_at` when it ends, without a look at what is stored. The lock
puts the jobs in an order; nothing makes it the order of their clocks.
-/

namespace Morai.Worker.SyncedMark

open Morai.Crypto Morai.Db Morai.Python Morai.Foundation.Runs Morai.Foundation.HeldLocks
open Morai.Vendor.Connections Morai.Worker.ConnectionTransactions Morai.Worker.NoHole
open Morai.Ingest.ExtractFills Morai.Ingest.SyncWindows

set_option autoImplicit false

variable (keys : KeyService) (pydantic : Pydantic) (settings : Settings)
  (grantOf : JsonValue → Instant) (userId : Uuid)

/-- The values `last_synced_at` has had, the first one before the run. -/
def marks (before : Option Instant) (state : System) : List Instant :=
  before.toList ++ state.synced.map SyncedRun.startedAt

def NonDecreasing (values : List Instant) : Prop := values.Pairwise (· ≤ ·)

instance decidableNonDecreasing (values : List Instant) : Decidable (NonDecreasing values) :=
  inferInstanceAs (Decidable (values.Pairwise _))

/-- A job about to commit started no earlier than the sync time it read once it
held the lock. -/
def startedInOrder : Option Txn → Bool
  | some (.stamped startedAt plan _ _ _) => plan.lastSyncedAt.all (· ≤ startedAt)
  | _ => true

/-- Only jobs that started in order commit. -/
def CommitsInOrder (state : System) : Action pydantic → Prop
  | .commit id => startedInOrder (state.locking.txns id) = true
  | _ => True

instance decidableCommitsInOrder (state : System) :
    ∀ action : Action pydantic, Decidable (CommitsInOrder pydantic state action)
  | .commit id => inferInstanceAs (Decidable (startedInOrder (state.locking.txns id) = true))
  | .execute _ _ | .rollback _ => isTrue trivial

/-- When a job started, of a job that holds the lock. -/
def lockedSince : Txn → Option Instant
  | .locked startedAt | .planned startedAt _ | .fetching startedAt _ _ _ _ _
  | .persisted startedAt _ _ _ _ | .stamped startedAt _ _ _ _ => some startedAt
  | .waiting _ | .callback _ => none

/-- A job that is granted the lock started no earlier than the sync time
stored then. -/
def GrantedInOrder (state : System) : Action pydantic → Prop
  | .execute id .lock => ∀ startedAt, state.locking.txns id = some (.waiting startedAt) →
      (storedLastSyncedAt userId state.db).all (· ≤ startedAt) = true
  | _ => True

/-! ## What a step does to the stored sync time -/

/-- A commit of a job puts its `started_at` where the value it read stood;
every other step leaves the stored value. -/
inductive MarkMove (state next : System) : Action pydantic → Prop
  | synced (id : Nat) (startedAt : Instant) (plan : Plan) (requested : List SyncWindow)
      (stale : Bool) (pending : SchwabConnection)
      (own : state.locking.txns id = some (.stamped startedAt plan requested stale pending))
      (read : plan.lastSyncedAt = storedLastSyncedAt userId state.db)
      (written : storedLastSyncedAt userId next.db = some startedAt)
      (history : next.synced = state.synced ++ [⟨startedAt, plan.lastSyncedAt, requested⟩]) :
      MarkMove state next (.commit id)
  | kept (action : Action pydantic) (orderly : CommitsInOrder pydantic state action)
      (stored : storedLastSyncedAt userId next.db = storedLastSyncedAt userId state.db)
      (history : next.synced = state.synced) : MarkMove state next action

theorem mark_move (state next : System) (action : Action pydantic)
    (current : ∀ id txn, state.locking.txns id = some txn → TxnCurrent settings userId state.db txn)
    (stepped : step keys pydantic settings grantOf userId state action = some next) :
    MarkMove pydantic userId state next action := by
  cases action with
  | execute id statement =>
      obtain ⟨_, _, _, sameDb, sameSynced⟩ :=
        execute_step keys pydantic settings grantOf userId state next id statement stepped
      exact MarkMove.kept _ trivial (by rw [sameDb]) sameSynced
  | rollback id =>
      rw [rollback_step keys pydantic settings grantOf userId state next id stepped]
      exact MarkMove.kept _ trivial rfl rfl
  | commit id =>
      cases commit_step keys pydantic settings grantOf userId state next id stepped with
      | inl job =>
          obtain ⟨startedAt, plan, requested, stale, pending, own, shape⟩ := job
          obtain ⟨planCurrent, _, owner, stamped⟩ := current id _ own
          rw [shape]
          refine MarkMove.synced id startedAt plan requested stale pending own planCurrent.1 ?_ rfl
          rw [stored_last_synced_at_store state.db pending userId owner, stamped]
      | inr callback =>
          obtain ⟨pending, own, shape⟩ := callback
          obtain ⟨owner, synced⟩ := current id _ own
          rw [shape]
          refine MarkMove.kept _ ?_ ?_ rfl
          · simp only [CommitsInOrder, own, startedInOrder]
          · rw [stored_last_synced_at_store state.db pending userId owner, synced]

/-! ## Runs -/

structure MarkInvariant (before : Option Instant) (state : System) : Prop where
  granted : Granted Txn.holds state.locking
  current : ∀ id txn, state.locking.txns id = some txn → TxnCurrent settings userId state.db txn
  last : storedLastSyncedAt userId state.db = (marks before state).getLast?

theorem marks_concat (before : Option Instant) (state next : System) (run : SyncedRun)
    (history : next.synced = state.synced ++ [run]) :
    marks before next = marks before state ++ [run.startedAt] := by
  simp only [marks, history, List.map_append, List.map_cons, List.map_nil, List.append_assoc]

theorem marks_same (before : Option Instant) (state next : System)
    (history : next.synced = state.synced) : marks before next = marks before state := by
  rw [marks, marks, history]

theorem mark_invariant_step (before : Option Instant) (state next : System)
    (action : Action pydantic) (invariant : MarkInvariant settings userId before state)
    (stepped : step keys pydantic settings grantOf userId state action = some next) :
    MarkInvariant settings userId before next := by
  have granted := step_granted keys pydantic settings grantOf userId state action next
    invariant.granted stepped
  have current := current_step keys pydantic settings grantOf userId state action next
    invariant.granted invariant.current stepped
  refine ⟨granted, current, ?_⟩
  cases mark_move keys pydantic settings grantOf userId state next action invariant.current
      stepped with
  | synced id startedAt plan requested stale pending own read written history =>
      rw [written, marks_concat before state next _ history, List.getLast?_concat]
  | kept _ _ stored history =>
      rw [stored, marks_same before state next history]
      exact invariant.last

/-- One more value at the end keeps the order exactly when it is not below the
last one. -/
theorem non_decreasing_concat (values : List Instant) (value : Instant)
    (ordered : NonDecreasing values) :
    NonDecreasing (values ++ [value]) ↔ values.getLast?.all (· ≤ value) = true := by
  unfold NonDecreasing at ordered ⊢
  rw [List.pairwise_append]
  cases List.eq_nil_or_concat values with
  | inl empty => simp [empty]
  | inr some =>
      obtain ⟨front, last, shape⟩ := some
      rw [List.concat_eq_append] at shape
      subst shape
      have below := (List.pairwise_append.mp ordered).2.2
      rw [List.getLast?_concat]
      simp only [Option.all_some, decide_eq_true_eq, List.mem_singleton, forall_eq,
        List.pairwise_singleton, true_and, ordered]
      constructor
      · intro all
        exact all last (List.mem_append_right _ (List.mem_singleton_self last))
      · intro least other member
        cases List.mem_append.mp member with
        | inl early => exact le_trans (below other early last (List.mem_singleton_self last)) least
        | inr own => rw [List.mem_singleton.mp own]; exact least

theorem mark_invariant_start (initial : System) (quiet : Quiet initial) :
    MarkInvariant settings userId (storedLastSyncedAt userId initial.db) initial := by
  refine ⟨?_, ?_, ?_⟩
  · rw [quiet.1]
    apply granted_idle
  · intro id txn present
    rw [quiet.1] at present
    cases present
  · rw [marks, quiet.2]
    cases storedLastSyncedAt userId initial.db <;> rfl

/-- A step keeps the marks in order exactly when it commits in order. -/
theorem ordered_step (before : Option Instant) (state next : System) (action : Action pydantic)
    (invariant : MarkInvariant settings userId before state)
    (ordered : NonDecreasing (marks before state))
    (stepped : step keys pydantic settings grantOf userId state action = some next) :
    NonDecreasing (marks before next) ↔ CommitsInOrder pydantic state action := by
  cases mark_move keys pydantic settings grantOf userId state next action invariant.current
      stepped with
  | synced id startedAt plan requested stale pending own read written history =>
      rw [marks_concat before state next _ history, non_decreasing_concat _ _ ordered,
        ← invariant.last, ← read]
      simp only [CommitsInOrder, own, startedInOrder]
  | kept _ orderly stored history =>
      rw [marks_same before state next history]
      exact iff_of_true ordered orderly

/-- What is out of order stays so. -/
theorem disordered_step (before : Option Instant) (state next : System) (action : Action pydantic)
    (invariant : MarkInvariant settings userId before state)
    (disordered : ¬NonDecreasing (marks before state))
    (stepped : step keys pydantic settings grantOf userId state action = some next) :
    ¬NonDecreasing (marks before next) := by
  cases mark_move keys pydantic settings grantOf userId state next action invariant.current
      stepped with
  | synced id startedAt plan requested stale pending own read written history =>
      rw [marks_concat before state next _ history]
      intro ordered
      exact disordered (ordered.sublist (List.sublist_append_left _ _))
  | kept _ _ stored history =>
      rw [marks_same before state next history]
      exact disordered

theorem ordered_start (initial : System) (quiet : Quiet initial) (before : Option Instant) :
    NonDecreasing (marks before initial) := by
  rw [marks, quiet.2, List.map_nil, List.append_nil]
  cases before with
  | none => exact List.Pairwise.nil
  | some value => exact List.pairwise_singleton _ value

/-- In any interleaving of the jobs and callbacks of one user the committed
values of `last_synced_at` never go backwards exactly when every job that
commits started no earlier than the value it read once it held the lock. -/
theorem marks_non_decreasing_iff (actions : List (Action pydantic)) (initial final : System)
    (quiet : Quiet initial)
    (ran : runFrom (step keys pydantic settings grantOf userId) actions initial = some final) :
    NonDecreasing (marks (storedLastSyncedAt userId initial.db) final) ↔
      Meets (step keys pydantic settings grantOf userId) (CommitsInOrder pydantic) actions
        initial := by
  let before := storedLastSyncedAt userId initial.db
  have keeps := fun state action next (invariant : MarkInvariant settings userId before state)
      stepped => mark_invariant_step keys pydantic settings grantOf userId before state next action
        invariant stepped
  have split := run_splits (step keys pydantic settings grantOf userId) (CommitsInOrder pydantic)
    (fun state => MarkInvariant settings userId before state ∧ NonDecreasing (marks before state))
    (fun state => MarkInvariant settings userId before state ∧ ¬NonDecreasing (marks before state))
    (fun state action next holds orderly stepped => ⟨keeps state action next holds.1 stepped,
      (ordered_step keys pydantic settings grantOf userId before state next action holds.1 holds.2
        stepped).mpr orderly⟩)
    (fun state action next holds disorderly stepped => ⟨keeps state action next holds.1 stepped,
      (ordered_step keys pydantic settings grantOf userId before state next action holds.1 holds.2
        stepped).not.mpr disorderly⟩)
    (fun state action next holds stepped => ⟨keeps state action next holds.1 stepped,
      disordered_step keys pydantic settings grantOf userId before state next action holds.1 holds.2
        stepped⟩)
    actions initial final
    ⟨mark_invariant_start settings userId initial quiet, ordered_start initial quiet before⟩ ran
  cases split with
  | inl orderly => exact iff_of_true orderly.2.2 orderly.1
  | inr disorderly => exact iff_of_false disorderly.2.2 disorderly.1

/-- A statement makes a job hold the lock that did not only as `lock`. -/
theorem execute_locked_since (db : Database) (before : Option Txn)
    (statement : Statement pydantic) (txn : Txn) (startedAt : Instant)
    (executed : execute keys pydantic settings grantOf userId db before statement = some txn)
    (locked : lockedSince txn = some startedAt) :
    (∃ old, before = some old ∧ lockedSince old = some startedAt) ∨
      (before = some (.waiting startedAt) ∧ statement = .lock) := by
  unfold execute at executed
  split at executed
  · cases executed
    cases locked
  · split_ifs at executed
    split at executed
    · obtain ⟨row, _, shape⟩ := Option.map_eq_some_iff.mp executed
      rw [← shape] at locked
      cases locked
    · cases executed
  · cases executed
    cases locked
    exact Or.inr ⟨rfl, rfl⟩
  · obtain ⟨plan, _, shape⟩ := Option.map_eq_some_iff.mp executed
    rw [← shape] at locked
    exact Or.inl ⟨_, rfl, locked⟩
  · split at executed
    · cases executed
      exact Or.inl ⟨_, rfl, locked⟩
    · cases executed
  · split_ifs at executed
    cases executed
    exact Or.inl ⟨_, rfl, locked⟩
  · cases executed
    exact Or.inl ⟨_, rfl, locked⟩
  · split at executed
    · cases executed
      exact Or.inl ⟨_, rfl, locked⟩
    · cases executed
  · obtain ⟨row, _, shape⟩ := Option.map_eq_some_iff.mp executed
    rw [← shape] at locked
    exact Or.inl ⟨_, rfl, locked⟩
  · cases executed

theorem overtake_locked_since (txn : Txn) : lockedSince txn.overtake = lockedSince txn := by
  cases txn <;> rfl

/-- Every job that holds the lock started no earlier than the stored sync
time. -/
def HoldersInOrder (state : System) : Prop :=
  ∀ id txn startedAt, state.locking.txns id = some txn → lockedSince txn = some startedAt →
    (storedLastSyncedAt userId state.db).all (· ≤ startedAt) = true

theorem holders_in_order_step (state next : System) (action : Action pydantic)
    (granted : Granted Txn.holds state.locking)
    (current : ∀ id txn, state.locking.txns id = some txn → TxnCurrent settings userId state.db txn)
    (ordered : HoldersInOrder userId state) (inOrder : GrantedInOrder pydantic userId state action)
    (stepped : step keys pydantic settings grantOf userId state action = some next) :
    HoldersInOrder userId next := by
  intro other found startedAt present locked
  cases action with
  | execute id statement =>
      obtain ⟨sameDb, moves⟩ := execute_txns keys pydantic settings grantOf userId state next id
        statement stepped other found present
      rw [sameDb]
      cases moves with
      | inl moved =>
          cases execute_locked_since keys pydantic settings grantOf userId state.db _ statement found
              startedAt moved.2 locked with
          | inl held =>
              obtain ⟨old, oldFound, since⟩ := held
              exact ordered id old startedAt oldFound since
          | inr now =>
              rw [now.2] at inOrder
              exact inOrder startedAt now.1
      | inr unmoved => exact ordered other found startedAt unmoved.2 locked
  | rollback id =>
      rw [rollback_step keys pydantic settings grantOf userId state next id stepped] at present ⊢
      exact ordered other found startedAt (finish_txns state.locking id other found present).2 locked
  | commit id =>
      cases commit_step keys pydantic settings grantOf userId state next id stepped with
      | inl job =>
          obtain ⟨_, plan, requested, stale, pending, own, shape⟩ := job
          rw [shape] at present
          have open' := finish_txns state.locking id other found present
          obtain ⟨begun, waiting⟩ := stamped_alone state granted id other _ plan requested stale
            pending found own open'.2 open'.1
          rw [waiting] at locked
          cases locked
      | inr callback =>
          obtain ⟨pending, own, shape⟩ := callback
          obtain ⟨owner, synced⟩ := current id _ own
          rw [shape] at present ⊢
          obtain ⟨old, oldFound, overtaken⟩ := Option.map_eq_some_iff.mp present
          rw [← overtaken, overtake_locked_since] at locked
          rw [stored_last_synced_at_store state.db pending userId owner, synced]
          exact ordered other old startedAt (finish_txns state.locking id other old oldFound).2
            locked

/-- It is enough that the lock is granted in the order of the clocks. -/
theorem granted_in_order_commits (actions : List (Action pydantic)) (initial final : System)
    (quiet : Quiet initial)
    (ran : runFrom (step keys pydantic settings grantOf userId) actions initial = some final)
    (granted : Meets (step keys pydantic settings grantOf userId) (GrantedInOrder pydantic userId)
      actions initial) :
    NonDecreasing (marks (storedLastSyncedAt userId initial.db) final) := by
  let before := storedLastSyncedAt userId initial.db
  have held := run_keeps (step keys pydantic settings grantOf userId)
    (GrantedInOrder pydantic userId)
    (fun state => (MarkInvariant settings userId before state ∧ HoldersInOrder userId state) ∧
      NonDecreasing (marks before state))
    ?_ actions initial final ?_ granted ran
  · exact held.2
  · intro state action next holds inOrder stepped
    obtain ⟨⟨invariant, holders⟩, ordered⟩ := holds
    refine ⟨⟨mark_invariant_step keys pydantic settings grantOf userId before state next action
        invariant stepped,
      holders_in_order_step keys pydantic settings grantOf userId state next action
        invariant.granted invariant.current holders inOrder stepped⟩, ?_⟩
    apply (ordered_step keys pydantic settings grantOf userId before state next action invariant
      ordered stepped).mpr
    cases mark_move keys pydantic settings grantOf userId state next action invariant.current
        stepped with
    | synced id startedAt plan requested stale pending own read _ _ =>
        simp only [CommitsInOrder, own, startedInOrder, read]
        exact holders id _ startedAt own rfl
    | kept _ orderly _ _ => exact orderly
  · refine ⟨⟨mark_invariant_start settings userId initial quiet, ?_⟩,
      ordered_start initial quiet before⟩
    intro id txn startedAt present
    rw [quiet.1] at present
    cases present

/-! ## Two jobs -/

/-- The second job from its start to its commit, and the first one from its
wait for the lock to its commit. -/
def runBeside (day requests : Nat) : List (Action plainPydantic) :=
  openJob 2 day ++ List.replicate requests (.execute 2 .request) ++ closeJob 2

def runAfterWait (requests : Nat) : List (Action plainPydantic) :=
  [.execute 1 .lock, .execute 1 .plan, .execute 1 .openClient] ++
    List.replicate requests (.execute 1 .request) ++ closeJob 1

theorem marks_non_decreasing_iff_in_order :
    ∃ final, runFrom (step plainKeys plainPydantic {} plainGrant ⟨1⟩)
        (callbackOf 0 firstToken ++ runBeside 20000 7 ++ [.execute 1 (.begin (20001 * dayMicros))] ++
          runAfterWait 1) (quietSystem provisionedUser) = some final ∧
      final.synced.map SyncedRun.startedAt = [20000 * dayMicros, 20001 * dayMicros] ∧
      NonDecreasing (marks none final) := by
  have computed : (runFrom (step plainKeys plainPydantic {} plainGrant ⟨1⟩)
      (callbackOf 0 firstToken ++ runBeside 20000 7 ++ [.execute 1 (.begin (20001 * dayMicros))] ++
        runAfterWait 1) (quietSystem provisionedUser)).any (fun final => decide (
          final.synced.map SyncedRun.startedAt = [20000 * dayMicros, 20001 * dayMicros])) = true := by
    decide +kernel
  obtain ⟨present, holds⟩ := (Option.any_eq_true_iff_get _ _).mp computed
  have ran := (Option.some_get present).symm
  refine ⟨_, ran, of_decide_eq_true holds, ?_⟩
  exact (marks_non_decreasing_iff plainKeys plainPydantic {} plainGrant ⟨1⟩ _
    (quietSystem provisionedUser) _ ⟨rfl, rfl⟩ ran).mpr (by decide +kernel)

/-- The first job begins, the second begins a day later and is granted the
lock first: the stored sync time goes back by a day. -/
theorem overtaken_start_written_back :
    (runFrom (step plainKeys plainPydantic {} plainGrant ⟨1⟩)
      (callbackOf 0 firstToken ++ [.execute 1 (.begin (20001 * dayMicros))] ++ runBeside 20002 7 ++
        runAfterWait 0) (quietSystem provisionedUser)).any (fun final => decide (
          final.synced.map SyncedRun.startedAt = [20002 * dayMicros, 20001 * dayMicros] ∧
          storedLastSyncedAt ⟨1⟩ final.db = some (20001 * dayMicros) ∧
          ¬NonDecreasing (marks none final))) = true := by
  decide +kernel

end Morai.Worker.SyncedMark
