import Mathlib.Logic.Relation
import Morai.Procrastinate.Functions

/-!
# One job and its events

A job is seen together with the types of the events logged for it. Each
statement on the queue's tables moves every job, with its log, in one of a few
ways, whatever else it does.
-/

namespace Morai.Procrastinate.JobViews

open Morai.Foundation.Serial Morai.Procrastinate.Schema Morai.Procrastinate.Functions Morai.Python

set_option autoImplicit false

def logOf (events : List Event) (jobId : Nat) : List JobEventType :=
  (events.filter fun event => event.jobId = jobId).map Event.type

structure View where
  job : Job
  log : List JobEventType
  deriving DecidableEq

def view (tables : JobTables) (jobId : Nat) : Option View :=
  (tables.jobs.get? jobId).map fun job => ⟨job, logOf tables.events.rows jobId⟩

theorem view_eq_some_iff (tables : JobTables) (jobId : Nat) (seen : View) :
    view tables jobId = some seen ↔
      tables.jobs.get? jobId = some seen.job ∧ seen.log = logOf tables.events.rows jobId := by
  obtain ⟨job, log⟩ := seen
  simp only [view, Option.map_eq_some_iff, View.mk.injEq]
  constructor
  · rintro ⟨old, found, same, logged⟩
    exact ⟨same ▸ found, logged.symm⟩
  · rintro ⟨found, logged⟩
    exact ⟨job, found, rfl, logged.symm⟩

theorem view_eq_none_iff (tables : JobTables) (jobId : Nat) :
    view tables jobId = none ↔ tables.jobs.get? jobId = none := by
  simp [view]

/-! ## What the triggers log -/

theorem log_of_append (left right : List Event) (jobId : Nat) :
    logOf (left ++ right) jobId = logOf left jobId ++ logOf right jobId := by
  simp [logOf]

theorem log_events_log (jobId wanted : Nat) (entries : List (JobEventType × Instant))
    (events : SerialTable Event.id) :
    logOf (logEvents jobId entries events).rows wanted =
      logOf events.rows wanted ++ if jobId = wanted then entries.map Prod.fst else [] := by
  induction entries generalizing events with
  | nil => simp [logEvents]
  | cons entry rest ih =>
      have unfolded : logEvents jobId (entry :: rest) events = logEvents jobId rest
          (events.insert (fun id => ⟨id, jobId, entry.1, entry.2⟩) fun _ => rfl) := rfl
      rw [unfolded, ih, SerialTable.insert_rows, log_of_append, List.append_assoc]
      by_cases same : jobId = wanted
      · simp [logOf, same]
      · simp [logOf, same]

/-- The triggers of a whole statement, fired row by row. -/
theorem log_fold (entries : Job → List (JobEventType × Instant)) (rows : List Job)
    (events : SerialTable Event.id) (wanted : Nat) :
    logOf (rows.foldl (fun table row => logEvents row.id (entries row) table) events).rows wanted =
      logOf events.rows wanted ++
        (rows.filter fun row => row.id = wanted).flatMap fun row => (entries row).map Prod.fst := by
  induction rows generalizing events with
  | nil => simp
  | cons row rest ih =>
      rw [List.foldl_cons, ih, log_events_log, List.append_assoc]
      by_cases same : row.id = wanted
      · simp [same]
      · simp [same]

/-! ## What a statement does to a job -/

theorem update_jobs_view (columns : SetColumns) (now : Instant) (chosen : Job → Bool)
    (set : Job → Job) (keeps : ∀ job, (set job).id = job.id) (tables : JobTables) (jobId : Nat) :
    view (updateJobs columns now chosen set keeps tables) jobId =
      (view tables jobId).map fun seen =>
        if chosen seen.job then
          ⟨set seen.job, seen.log ++ (updateEvents columns now seen.job (set seen.job)).map Prod.fst⟩
        else seen := by
  have one := tables.jobs.filter_eq_get jobId
  have logged := log_fold (fun old => updateEvents columns now old (set old))
    (tables.jobs.rows.filter chosen) tables.events jobId
  rw [List.filter_filter] at logged
  simp only [view, updateJobs, SerialTable.update_get, Option.map_map]
  cases found : tables.jobs.get? jobId with
  | none => rfl
  | some job =>
      rw [found, Option.toList_some] at one
      have both : (tables.jobs.rows.filter fun row => decide (row.id = jobId) && chosen row) =
          if chosen job then [job] else [] := by
        have swapped := List.filter_filter (p := chosen) (q := fun row => decide (row.id = jobId))
          (l := tables.jobs.rows)
        rw [one] at swapped
        simp only [Bool.and_comm]
        rw [← swapped]
        simp [List.filter_cons]
      rw [both] at logged
      simp only [Option.map_some, Function.comp_apply, logged]
      split_ifs with picked
      · simp
      · simp

theorem delete_jobs_view (gone : Job → Bool) (tables : JobTables) (jobId : Nat) :
    view (deleteJobs gone tables) jobId = (view tables jobId).filter fun seen => !gone seen.job := by
  simp only [view, deleteJobs, SerialTable.delete_get, SerialTable.delete_rows]
  cases found : tables.jobs.get? jobId with
  | none => rfl
  | some job =>
      obtain ⟨member, sameId⟩ := (tables.jobs.get_eq_some_iff jobId job).mp found
      by_cases picked : gone job = true
      · simp [Option.filter, picked]
      · have kept : ∀ event : Event, event.jobId = jobId →
            event.jobId ∉ (tables.jobs.rows.filter gone).map Job.id := by
          intro event about listed
          obtain ⟨other, otherMember, otherId⟩ := List.mem_map.mp listed
          obtain ⟨otherRow, otherGone⟩ := List.mem_filter.mp otherMember
          have same := tables.jobs.eq_of_id other job otherRow member
            (otherId.trans (about.trans sameId.symm))
          exact picked (same ▸ otherGone)
        have logSame : logOf (tables.events.rows.filter fun event =>
            !decide (event.jobId ∈ (tables.jobs.rows.filter gone).map Job.id)) jobId =
            logOf tables.events.rows jobId := by
          unfold logOf
          rw [List.filter_filter]
          congr 1
          apply List.filter_congr
          intro event _
          by_cases about : event.jobId = jobId
          · have absent := kept event about
            simp only [about] at absent ⊢
            simp only [absent, decide_true, decide_false, Bool.not_false, Bool.and_self]
          · simp [about]
        simp only [Option.filter, picked, Bool.not_false, Option.map_some, logSame, if_true]

end Morai.Procrastinate.JobViews
