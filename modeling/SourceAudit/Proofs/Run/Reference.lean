import Mathlib.Data.List.Basic
import SourceAudit.Proofs.Run.Crew

/-!
# The reference of a run

What a job reports when nothing cuts it short: its warnings, then one finding for every task, or
the one finding that stands for a job without tasks. A run in which no check takes its thread with
it, and which no failure stops, comes to the references of its jobs one after the other, whether
its tasks run in turn or on workers, and whatever turns the workers take.

    Runs options jobs log ↔ log = fullLog jobs                              (runs_iff_eq_fullLog)
    runKinds options jobs kinds = fullLog (the jobs of these kinds)       (runKinds_eq_reference)
-/

namespace SourceAudit

/-- What is found of a task in a thread that outlives it. A thread that does not outlive it leaves
the finding of a lost worker. -/
def Job.findingOf (job : Job) (task : Task) : Finding :=
  (job.finding? task).getD (job.lostFinding task)

def Job.reference (job : Job) : List Finding :=
  job.warningFindings ++
    if job.tasks.isEmpty then [job.emptyFinding] else job.tasks.map job.findingOf

/-- The log of a run that nothing cuts short. -/
def fullLog (jobs : List Job) : RunLog where
  findings := jobs.flatMap Job.reference
  called := jobs.flatMap Job.tasks
  stopped := false
  died := false

/-- No check of the job takes its thread with it. -/
def Job.Outlived (job : Job) : Prop := ∀ task ∈ job.tasks, task.attempt ≠ .died

/-- No task of the job stops a run. -/
def Job.Unstopped (job : Job) (failFast : Bool) : Prop :=
  failFast = false ∨ ∀ task ∈ job.tasks, job.fails task = false

instance (job : Job) : Decidable job.Outlived :=
  inferInstanceAs (Decidable (∀ task ∈ job.tasks, task.attempt ≠ .died))

instance (job : Job) (failFast : Bool) : Decidable (job.Unstopped failFast) :=
  inferInstanceAs (Decidable (failFast = false ∨ ∀ task ∈ job.tasks, job.fails task = false))

/-! ## Lemmas -/

variable {job : Job} {options : RunOptions}

theorem Task.dies_eq_false {task : Task} (h : task.attempt ≠ .died) : task.dies = false := by
  simpa [Task.dies] using h

theorem Job.Outlived.dies {tasks : List Task} (h : job.Outlived) (hsub : tasks ⊆ job.tasks) :
    tasks.any Task.dies = false := by
  rw [List.any_eq_false]
  intro task ht
  simpa using Task.dies_eq_false (h task (hsub ht))

theorem Job.Outlived.takeThrough_dies {tasks : List Task} (h : job.Outlived)
    (hsub : tasks ⊆ job.tasks) : takeThrough Task.dies tasks = tasks :=
  takeThrough_eq_self fun task ht => Task.dies_eq_false (h task (hsub ht))

theorem Job.Outlived.filterMap_finding? {tasks : List Task} (h : job.Outlived)
    (hsub : tasks ⊆ job.tasks) : tasks.filterMap job.finding? = tasks.map job.findingOf := by
  rw [← List.filterMap_eq_map]
  apply List.filterMap_congr
  intro task ht
  have hd := Task.dies_eq_false (h task (hsub ht))
  cases hf : job.finding? task with
  | none =>
    rw [Job.finding?_eq_none_iff.1 hf] at hd
    cases hd
  | some finding => simp [Job.findingOf, hf]

theorem Job.Unstopped.and_fails {failFast : Bool} (h : job.Unstopped failFast) {task : Task}
    (ht : task ∈ job.tasks) : (failFast && job.fails task) = false := by
  rcases h with h | h
  · rw [h, Bool.false_and]
  · rw [h task ht, Bool.and_false]

theorem Job.Unstopped.and_any_fails {failFast : Bool} (h : job.Unstopped failFast) :
    (failFast && job.tasks.any job.fails) = false := by
  rcases h with h | h
  · rw [h, Bool.false_and]
  · rw [List.any_eq_false.2 fun task ht => by simp [h task ht], Bool.and_false]

theorem Job.runTasks_eq_of_unstopped {failFast : Bool} (ha : job.Outlived)
    (hu : job.Unstopped failFast) :
    job.runTasks failFast false job.tasks =
      ⟨job.tasks.map job.findingOf, job.tasks, false, false⟩ := by
  have hends : ∀ task ∈ job.tasks, job.ends failFast task = false := by
    intro task ht
    rw [Job.ends, Task.dies_eq_false (ha task ht), hu.and_fails ht]
    rfl
  rw [Job.runTasks_eq, takeThrough_eq_self hends, Job.threadLog,
    ha.filterMap_finding? (List.Subset.refl _), hu.and_any_fails, ha.dies (List.Subset.refl _)]

/-- Workers that nothing stops find together what one thread finds. -/
theorem Job.crewLog_eq_of_unstopped {failFast : Bool} {pieces : List (List Task)}
    (hp : pieces.flatten = job.tasks) (ha : job.Outlived) (hu : job.Unstopped failFast) :
    crewLog job failFast (pieces.map Worker.ended) =
      ⟨job.tasks.map job.findingOf, job.tasks, false, false⟩ := by
  have hsub : ∀ chunk ∈ pieces, chunk ⊆ job.tasks := by
    intro chunk hc task ht
    rw [← hp]
    exact List.mem_flatten.2 ⟨chunk, hc, ht⟩
  have hended : pieces.map Worker.ended = pieces.map fun chunk => ⟨chunk, chunk, []⟩ := by
    apply List.map_congr_left
    intro chunk hc
    rw [Worker.ended, ha.takeThrough_dies (hsub chunk hc)]
  have hfindings : ∀ chunk ∈ pieces,
      Worker.findings job ⟨chunk, chunk, []⟩ = chunk.map job.findingOf := by
    intro chunk hc
    rw [Worker.findings, ha.dies (hsub chunk hc), ha.filterMap_finding? (hsub chunk hc)]
    rfl
  have hraised : ∀ chunk ∈ pieces, Worker.raised job failFast ⟨chunk, chunk, []⟩ = false := by
    intro chunk hc
    rcases hu with hu | hu
    · rw [Worker.raised, hu, Bool.false_and]
    · rw [Worker.raised, List.any_eq_false.2 fun task ht => by simp [hu task (hsub chunk hc ht)],
        Bool.and_false]
  have hflat : (pieces.map fun chunk => (⟨chunk, chunk, []⟩ : Worker)).flatMap
      (Worker.findings job) = job.tasks.map job.findingOf := by
    rw [List.flatMap_map, List.flatMap_congr hfindings, ← List.map_flatMap, ← hp,
      List.flatten_eq_flatMap]
    rfl
  have hcalled : (pieces.map fun chunk => (⟨chunk, chunk, []⟩ : Worker)).flatMap
      Worker.called = job.tasks := by
    rw [List.flatMap_map, ← hp, List.flatten_eq_flatMap]
    rfl
  have hstopped : (pieces.map fun chunk => (⟨chunk, chunk, []⟩ : Worker)).any
      (Worker.raised job failFast) = false := by
    rw [List.any_map, List.any_eq_false]
    intro chunk hc
    simpa using hraised chunk hc
  rw [hended, crewLog, hflat, hcalled, hstopped]

theorem Job.Runs.eq_full {log : RunLog} (h : job.Runs options log) (ha : job.Outlived)
    (hu : job.Unstopped options.failFast) : log = ⟨job.reference, job.tasks, false, false⟩ := by
  cases h with
  | alone h =>
    cases htasks : job.tasks.isEmpty with
    | true => simp [Job.run, Job.reference, List.isEmpty_iff.1 htasks]
    | false =>
      have hone : options.usesWorkers = false := by
        rcases h with h | h
        · simp [h] at htasks
        · exact h
      rw [Job.run, htasks, hone, Job.runTasks_eq_of_unstopped ha hu, Job.reference, htasks]
      rfl
  | @workers crew hne many turns done =>
    have hp := flatten_chunks (chunkSize job.tasks.length options.workers) job.tasks
    have hq : ∀ chunk ∈ chunks (chunkSize job.tasks.length options.workers) job.tasks,
        ∀ task ∈ chunk, (options.failFast && job.fails task) = false := by
      intro chunk hc task ht
      apply hu.and_fails
      rw [← hp]
      exact List.mem_flatten.2 ⟨chunk, hc, ht⟩
    have hcrew := eq_map_ended_of_turns hq turns done
    have hlog := Job.crewLog_eq_of_unstopped hp ha hu
    rw [← hcrew] at hlog
    have hfindings := congrArg RunLog.findings hlog
    have htasks : job.tasks.isEmpty = false := by simpa using hne
    simp only [crewLog] at hfindings
    rw [hlog, hfindings, Job.reference, htasks]
    rfl

theorem Runs.eq_fullLog {jobs : List Job} {log : RunLog} (h : Runs options jobs log)
    (ha : ∀ job ∈ jobs, job.Outlived) (hu : ∀ job ∈ jobs, job.Unstopped options.failFast) :
    log = fullLog jobs := by
  induction h with
  | nil => rfl
  | @last job rest log run ended =>
    rw [run.eq_full (ha job List.mem_cons_self) (hu job List.mem_cons_self)] at ended
    cases ended
  | @cons job rest log more run on runs ih =>
    rw [run.eq_full (ha job List.mem_cons_self) (hu job List.mem_cons_self),
      ih (fun j hj => ha j (List.mem_cons_of_mem job hj))
        (fun j hj => hu j (List.mem_cons_of_mem job hj))]
    simp [fullLog]

theorem runs_iff_eq_fullLog {jobs : List Job} {log : RunLog} (ha : ∀ job ∈ jobs, job.Outlived)
    (hu : ∀ job ∈ jobs, job.Unstopped options.failFast) :
    Runs options jobs log ↔ log = fullLog jobs := by
  have hrun := (runs_runJobs options jobs).eq_fullLog ha hu
  constructor
  · intro h
    exact h.eq_fullLog ha hu
  · rintro rfl
    rw [← hrun]
    exact runs_runJobs options jobs

theorem mem_selected {jobs : List Job} {kinds : List CheckKind} {job : Job} :
    job ∈ jobs.filter (fun job => kinds.contains job.kind) ↔ job ∈ jobs ∧ job.kind ∈ kinds := by
  rw [List.mem_filter, List.contains_iff_mem]

/-! ## Top theorems -/

/-- In turn or on workers, and in any order of the workers' turns, a run that nothing cuts short
comes to one log: the references of the selected jobs, with every task called once. -/
theorem runKinds_eq_reference (options : RunOptions) (jobs : List Job) (kinds : List CheckKind)
    (ha : ∀ job ∈ jobs, job.kind ∈ kinds → job.Outlived)
    (hu : ∀ job ∈ jobs, job.kind ∈ kinds → job.Unstopped options.failFast) :
    let selected := jobs.filter fun job => kinds.contains job.kind
    runKinds options jobs kinds =
        ⟨selected.flatMap Job.reference, selected.flatMap Job.tasks, false, false⟩ ∧
      (∀ log, Runs options selected log ↔ log = runKinds options jobs kinds) ∧
      (∀ other : RunOptions, (other.failFast = true → options.failFast = true) →
        runKinds other jobs kinds = runKinds options jobs kinds) ∧
      ((∀ job ∈ jobs, job.kind ∈ kinds) → runJobs options jobs = runKinds options jobs kinds) := by
  intro selected
  have hsa : ∀ job ∈ selected, job.Outlived := by
    intro job hj
    exact ha job (mem_selected.1 hj).1 (mem_selected.1 hj).2
  have hsu : ∀ job ∈ selected, job.Unstopped options.failFast := by
    intro job hj
    exact hu job (mem_selected.1 hj).1 (mem_selected.1 hj).2
  have hfull : runKinds options jobs kinds = fullLog selected :=
    (runs_runJobs options selected).eq_fullLog hsa hsu
  refine ⟨hfull, ?_, ?_, ?_⟩
  · intro log
    rw [hfull]
    exact runs_iff_eq_fullLog hsa hsu
  · intro other hother
    rw [hfull]
    refine (runs_runJobs other selected).eq_fullLog hsa fun job hj => ?_
    -- a run that may not go on after a failure meets none
    rcases hsu job hj with hoff | hnone
    · left
      rw [← Bool.not_eq_true]
      intro hon
      rw [hother hon] at hoff
      cases hoff
    · exact Or.inr hnone
  · intro hall
    have hself : selected = jobs := by
      apply List.filter_eq_self.2
      intro job hj
      simpa using hall job hj
    show runJobs options jobs = runJobs options selected
    rw [hself]

/-- A job with a root that is missing, a crash and a failure. -/
def mixedJob : Job where
  kind := .copyright
  title := "Copyright Header"
  tasks := [⟨"a.h", .finished (.pass "ok" 0)⟩, ⟨"b.h", .crashed⟩,
    ⟨"c.h", .finished (.fail "bad" "line 3" 0)⟩]
  warnings := [("src", "missing")]
  scope := "include"

def emptyJob : Job where
  kind := .guards
  title := "Header Guard"
  tasks := []
  warnings := []
  scope := "include"

/-- Two workers, for three tasks one of which crashes. -/
theorem runKinds_eq_reference_on_workers :
    (∀ job ∈ [mixedJob, emptyJob], job.kind ∈ [CheckKind.guards, .copyright] → job.Outlived) ∧
      (∀ job ∈ [mixedJob, emptyJob], job.kind ∈ [CheckKind.guards, .copyright] →
        job.Unstopped false) ∧
      (runKinds ⟨true, false, 2⟩ [mixedJob, emptyJob] [.guards, .copyright]).findings =
        [⟨.copyright, "src", .warn "missing" "Copyright Header found nothing to check here"⟩,
          ⟨.copyright, "a.h", .pass "ok" 0⟩,
          ⟨.copyright, "b.h", .fail "Copyright Header check panicked on b.h"
            "An unexpected error occurred" 0⟩,
          ⟨.copyright, "c.h", .fail "bad" "line 3" 0⟩,
          ⟨.guards, "include", .skip "no matching files"⟩] := by
  refine ⟨by decide, by decide, ?_⟩
  rw [(runKinds_eq_reference ⟨true, false, 2⟩ [mixedJob, emptyJob] [.guards, .copyright]
    (by decide) (by decide)).1]
  decide

end SourceAudit
