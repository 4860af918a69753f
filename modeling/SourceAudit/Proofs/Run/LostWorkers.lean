import SourceAudit.Proofs.Run.Chunks
import SourceAudit.Proofs.Run.Reference

/-!
# What a lost worker takes with it

A check that takes its worker with it costs the findings of the worker's chunk, those of tasks that
had been checked before included, and the calls of the tasks behind it in the chunk. Nothing else
changes: every task has its one finding in its place, and a chunk whose worker lives has the
findings of its own tasks. A crash that the worker outlives costs the finding of its own task alone.

    Runs options jobs log ↔ log = lossyLog options jobs              (runs_workers_iff_eq_lossyLog)
    in it, task `i` of a job has the finding of a lost worker if some task of its chunk dies, and
      its own finding otherwise                                          (getElem?_sharedFindings)
-/

namespace SourceAudit

open Relation

/-! ## The rule -/

/-- How many tasks of a job a worker gets; the last may get less. -/
def Job.share (job : Job) (options : RunOptions) : Nat :=
  chunkSize job.tasks.length options.workers

/-- What is found of a task on the worker of a chunk. -/
def Job.findingIn (job : Job) (chunk : List Task) (task : Task) : Finding :=
  if chunk.any Task.dies then job.lostFinding task else job.findingOf task

/-- One finding for every task, when the tasks are cut into chunks of `size`. -/
def Job.sharedFindings (job : Job) (size : Nat) : List Finding :=
  job.tasks.mapIdx fun i task => job.findingIn (chunkAt size i job.tasks) task

/-- What a job reports on workers that no failure stops. -/
def Job.sharedReference (job : Job) (options : RunOptions) : List Finding :=
  job.warningFindings ++
    if job.tasks.isEmpty then [job.emptyFinding] else job.sharedFindings (job.share options)

/-- What a job calls on workers that no failure stops: each chunk up to the first task that dies. -/
def Job.sharedCalls (job : Job) (options : RunOptions) : List Task :=
  (chunks (job.share options) job.tasks).flatMap (takeThrough Task.dies)

/-- The log of a run on workers that no failure stops. -/
def lossyLog (options : RunOptions) (jobs : List Job) : RunLog where
  findings := jobs.flatMap (·.sharedReference options)
  called := jobs.flatMap (·.sharedCalls options)
  stopped := false
  died := false

/-- The job with a crash in place of what came of task `i`. -/
def Job.crashingAt (job : Job) (i : Nat) : Job :=
  { job with tasks := job.tasks.modify i fun task => { task with attempt := .crashed } }

/-! ## One worker -/

variable {job : Job} {options : RunOptions}

/-- A worker finds together what the rule says of the tasks of its chunk. -/
theorem Worker.findings_ended (job : Job) (chunk : List Task) :
    (Worker.ended chunk).findings job = chunk.map (job.findingIn chunk) := by
  unfold Worker.findings Worker.ended
  simp only [any_takeThrough]
  cases hd : chunk.any Task.dies with
  | true =>
    rw [if_pos rfl]
    apply List.map_congr_left
    intro task _
    rw [Job.findingIn, hd, if_pos rfl]
  | false =>
    have ha : Job.Outlived { job with tasks := chunk } := by
      intro task ht hdied
      have hdies : task.dies = true := by simp [Task.dies, hdied]
      exact List.any_eq_false.1 hd task ht hdies
    have hall : takeThrough Task.dies chunk = chunk := ha.takeThrough_dies (List.Subset.refl _)
    have hown : chunk.filterMap job.finding? = chunk.map job.findingOf :=
      ha.filterMap_finding? (List.Subset.refl _)
    rw [if_neg Bool.false_ne_true, hall, hown]
    apply List.map_congr_left
    intro task _
    rw [Job.findingIn, hd, if_neg Bool.false_ne_true]

/-! ## One job -/

theorem Job.share_pos (job : Job) (options : RunOptions) : 0 < job.share options := by
  unfold Job.share chunkSize
  omega

theorem Job.crewLog_ended (hff : options.failFast = false) :
    crewLog job options.failFast ((chunks (job.share options) job.tasks).map Worker.ended) =
      ⟨job.sharedFindings (job.share options), job.sharedCalls options, false, false⟩ := by
  have hfindings : ((chunks (job.share options) job.tasks).map Worker.ended).flatMap
      (Worker.findings job) = job.sharedFindings (job.share options) := by
    rw [List.flatMap_map, funext (Worker.findings_ended job)]
    exact flatMap_chunks_map (job.share_pos options) job.findingIn job.tasks
  have hcalled : ((chunks (job.share options) job.tasks).map Worker.ended).flatMap Worker.called =
      job.sharedCalls options := by
    rw [List.flatMap_map]
    rfl
  have hstopped : ((chunks (job.share options) job.tasks).map Worker.ended).any
      (Worker.raised job false) = false := by
    rw [List.any_eq_false]
    intro w _
    exact Bool.false_ne_true
  rw [crewLog, hfindings, hcalled, hff, hstopped]

/-- Workers that no failure stops come to the one log, whatever turns they take. -/
theorem Job.Runs.eq_shared {log : RunLog} (h : job.Runs options log)
    (many : options.usesWorkers = true) (hff : options.failFast = false) :
    log = ⟨job.sharedReference options, job.sharedCalls options, false, false⟩ := by
  cases h with
  | alone h =>
    have htasks : job.tasks = [] := by
      rcases h with h | h
      · exact h
      · rw [many] at h
        cases h
    simp [Job.run, Job.sharedReference, Job.sharedCalls, htasks, chunks]
  | @workers crew hne _ turns done =>
    have hq : ∀ chunk ∈ chunks (job.share options) job.tasks,
        ∀ task ∈ chunk, (options.failFast && job.fails task) = false := by
      intro chunk _ task _
      rw [hff, Bool.false_and]
    have hcrew := eq_map_ended_of_turns hq turns done
    have hlog : crewLog job options.failFast crew =
        ⟨job.sharedFindings (job.share options), job.sharedCalls options, false, false⟩ := by
      rw [hcrew, Job.crewLog_ended hff]
    have hfindings := congrArg RunLog.findings hlog
    have htasks : job.tasks.isEmpty = false := by simpa using hne
    simp only [crewLog] at hfindings
    rw [hlog, hfindings, Job.sharedReference, htasks]
    rfl

theorem Job.getElem?_sharedFindings (job : Job) (size i : Nat) :
    (job.sharedFindings size)[i]? =
      job.tasks[i]?.map (job.findingIn (chunkAt size i job.tasks)) := by
  rw [Job.sharedFindings, List.getElem?_mapIdx]

theorem Job.target_findingIn (job : Job) (chunk : List Task) (task : Task) :
    (job.findingIn chunk task).target = task.target := by
  unfold Job.findingIn
  split
  · rfl
  · cases h : task.attempt <;> simp [Job.findingOf, Job.finding?, h, Job.lostFinding]

theorem Job.map_target_sharedFindings (job : Job) (size : Nat) :
    (job.sharedFindings size).map (·.target) = job.tasks.map (·.target) := by
  apply List.ext_getElem?
  intro i
  rw [List.getElem?_map, Job.getElem?_sharedFindings, List.getElem?_map, Option.map_map]
  congr 1
  funext task
  exact job.target_findingIn _ task

/-- A task that dies leaves the finding of a lost worker. -/
theorem Job.lostFinding_mem (options : RunOptions) {task : Task} (ht : task ∈ job.tasks)
    (hd : task.attempt = .died) : job.lostFinding task ∈ job.sharedReference options := by
  obtain ⟨i, hi⟩ := List.mem_iff_getElem?.1 ht
  have htasks : job.tasks.isEmpty = false := by
    simpa using List.ne_nil_of_mem ht
  have hany : (chunkAt (job.share options) i job.tasks).any Task.dies = true := by
    refine List.any_eq_true.2 ⟨task, mem_chunkAt (job.share_pos options) hi, ?_⟩
    simp [Task.dies, hd]
  rw [Job.sharedReference, htasks]
  apply List.mem_append_right
  apply List.mem_of_getElem? (i := i)
  rw [if_neg Bool.false_ne_true, Job.getElem?_sharedFindings, hi, Option.map_some, Job.findingIn,
    if_pos hany]

/-! ## A crash that the worker outlives -/

theorem Job.length_crashingAt (job : Job) (i : Nat) :
    (job.crashingAt i).tasks.length = job.tasks.length := by
  simp [Job.crashingAt]

/-- Where no task died before, a crash lets none die. -/
theorem Job.map_dies_crashingAt {i : Nat}
    (hlives : ∀ task, job.tasks[i]? = some task → task.attempt ≠ .died) :
    (job.crashingAt i).tasks.map Task.dies = job.tasks.map Task.dies := by
  apply List.ext_getElem?
  intro k
  rw [List.getElem?_map, List.getElem?_map, Job.crashingAt, List.getElem?_modify]
  by_cases hk : i = k
  · subst hk
    cases htask : job.tasks[i]? with
    | none => rfl
    | some task => simp [Task.dies, hlives task htask]
  · simp [hk]

theorem any_dies_chunkAt (size i : Nat) (tasks : List Task) :
    (chunkAt size i tasks).any Task.dies = (chunkAt size i (tasks.map Task.dies)).any id := by
  rw [chunkAt_map, List.any_map]
  rfl

/-- A crash is seen in the finding of its own task and in no other. -/
theorem Job.getElem?_sharedReference_crashingAt {i k : Nat}
    (hlives : ∀ task, job.tasks[i]? = some task → task.attempt ≠ .died)
    (hk : k ≠ job.warnings.length + i) :
    ((job.crashingAt i).sharedReference options)[k]? = (job.sharedReference options)[k]? := by
  have hlength := job.length_crashingAt i
  have hempty : (job.crashingAt i).tasks.isEmpty = job.tasks.isEmpty := by
    rw [Bool.eq_iff_iff, List.isEmpty_iff_length_eq_zero, List.isEmpty_iff_length_eq_zero, hlength]
  have hshare : (job.crashingAt i).share options = job.share options := by
    rw [Job.share, Job.share, hlength]
  have hwarnings : (job.crashingAt i).warningFindings = job.warningFindings := rfl
  have hfront : job.warningFindings.length = job.warnings.length := by simp [Job.warningFindings]
  rw [Job.sharedReference, Job.sharedReference, hempty, hshare, hwarnings]
  rw [List.getElem?_append, List.getElem?_append, hfront]
  by_cases hkw : k < job.warnings.length
  · rw [if_pos hkw, if_pos hkw]
  · rw [if_neg hkw, if_neg hkw]
    cases job.tasks.isEmpty with
    | true => rfl
    | false =>
      have hne : i ≠ k - job.warnings.length := by omega
      have hchunk : ∀ n, (chunkAt (job.share options) n (job.crashingAt i).tasks).any Task.dies =
          (chunkAt (job.share options) n job.tasks).any Task.dies := by
        intro n
        rw [any_dies_chunkAt, any_dies_chunkAt, Job.map_dies_crashingAt hlives]
      have htask : (job.crashingAt i).tasks[k - job.warnings.length]? =
          job.tasks[k - job.warnings.length]? := by
        rw [Job.crashingAt, List.getElem?_modify]
        simp [hne]
      rw [if_neg Bool.false_ne_true, if_neg Bool.false_ne_true, Job.getElem?_sharedFindings,
        Job.getElem?_sharedFindings, htask]
      congr 1
      funext task
      unfold Job.findingIn
      rw [hchunk]
      rfl

/-! ## All jobs -/

theorem Runs.eq_lossyLog {jobs : List Job} {log : RunLog} (h : Runs options jobs log)
    (many : options.usesWorkers = true) (hff : options.failFast = false) :
    log = lossyLog options jobs := by
  induction h with
  | nil => rfl
  | @last job rest log run ended =>
    rw [run.eq_shared many hff] at ended
    cases ended
  | @cons job rest log more run on runs ih =>
    rw [run.eq_shared many hff, ih]
    simp [lossyLog]

/-- A worker that is lost leaves a failure, and so the run is no pass. -/
theorem passed_lossyLog (options : RunOptions) {jobs : List Job}
    (h : ∃ job ∈ jobs, ∃ task ∈ job.tasks, task.attempt = .died) (base : Path) :
    ((lossyLog options jobs).report base).passed = false := by
  obtain ⟨job, hj, task, ht, hd⟩ := h
  have hmem : job.lostFinding task ∈ (lossyLog options jobs).findings :=
    List.mem_flatMap.2 ⟨job, hj, Job.lostFinding_mem options ht hd⟩
  have hany : (lossyLog options jobs).findings.any (·.outcome.isFailure) = true :=
    List.any_eq_true.2 ⟨_, hmem, rfl⟩
  rw [Report.passed, RunLog.report, hany]
  rfl

/-! ## Top theorem -/

/-- On workers that no failure stops, a run comes to one log, whatever turns the workers take. In it
every task has one finding in its place. The finding is that of a lost worker where some task of its
chunk dies, and the task's own otherwise; a crash changes no other finding; a lost worker is a
failure of the run, and the exit code tells it as long as the failures can be counted. -/
theorem runs_workers_iff_eq_lossyLog (options : RunOptions) (many : options.usesWorkers = true)
    (hff : options.failFast = false) (jobs : List Job) :
    (∀ log, Runs options jobs log ↔ log = lossyLog options jobs) ∧
      (∀ kinds, runKinds options jobs kinds =
        lossyLog options (jobs.filter fun job => kinds.contains job.kind)) ∧
      (∀ job ∈ jobs, job.tasks ≠ [] → ∃ findings,
        job.sharedReference options = job.warningFindings ++ findings ∧
        findings.map (·.target) = job.tasks.map (·.target) ∧
        ∀ i task, job.tasks[i]? = some task → ∃ chunk,
          (chunks (job.share options) job.tasks)[i / job.share options]? = some chunk ∧
          task ∈ chunk ∧ findings[i]? = some
            (if chunk.any Task.dies then job.lostFinding task else job.findingOf task)) ∧
      (∀ job ∈ jobs, job.tasks = [] →
        job.sharedReference options = job.warningFindings ++ [job.emptyFinding]) ∧
      (∀ job ∈ jobs, ∀ i, (∀ task, job.tasks[i]? = some task → task.attempt ≠ .died) →
        ∀ k, k ≠ job.warnings.length + i →
          ((job.crashingAt i).sharedReference options)[k]? = (job.sharedReference options)[k]?) ∧
      ((∃ job ∈ jobs, ∃ task ∈ job.tasks, task.attempt = .died) →
        ∀ base, ((runJobs options jobs).report base).passed = false ∧
          (((runJobs options jobs).report base).failures < UInt32.size →
            ((runJobs options jobs).report base).summary.exitCode = 1)) := by
  have hrun : ∀ jobs, runJobs options jobs = lossyLog options jobs := by
    intro jobs
    exact (runs_runJobs options jobs).eq_lossyLog many hff
  refine ⟨?_, ?_, ?_, ?_, ?_, ?_⟩
  · intro log
    constructor
    · intro h
      exact h.eq_lossyLog many hff
    · rintro rfl
      rw [← hrun]
      exact runs_runJobs options jobs
  · intro kinds
    exact hrun _
  · intro job _ hne
    have htasks : job.tasks.isEmpty = false := by simpa using hne
    refine ⟨job.sharedFindings (job.share options), ?_, job.map_target_sharedFindings _, ?_⟩
    · rw [Job.sharedReference, htasks]
      rfl
    · intro i task htask
      have hi : i < job.tasks.length := (List.getElem?_eq_some_iff.1 htask).1
      refine ⟨chunkAt (job.share options) i job.tasks,
        getElem?_chunks_div (job.share_pos options) hi,
        mem_chunkAt (job.share_pos options) htask, ?_⟩
      rw [Job.getElem?_sharedFindings, htask]
      rfl
  · intro job _ hnil
    rw [Job.sharedReference, hnil]
    rfl
  · intro job _ i hlives k hk
    exact Job.getElem?_sharedReference_crashingAt hlives hk
  · intro hdied base
    have hpassed := passed_lossyLog options hdied base
    rw [hrun]
    refine ⟨hpassed, fun hcounted => ?_⟩
    rw [Report.exitCode_summary hcounted, hpassed]
    rfl

/-- Five tasks in chunks of three: the second takes its worker with it, the fourth crashes. -/
def lossyJob : Job where
  kind := .guards
  title := "Header Guard"
  tasks := [⟨"a.h", .finished (.pass "ok" 0)⟩, ⟨"b.h", .died⟩, ⟨"c.h", .finished (.pass "ok" 0)⟩,
    ⟨"d.h", .crashed⟩, ⟨"e.h", .finished (.pass "ok" 0)⟩]
  warnings := [("src", "missing")]
  scope := "include"

/-- The lost worker costs the first three findings and one call; the crash costs its own finding. -/
theorem runs_workers_iff_eq_lossyLog_two :
    (RunOptions.usesWorkers ⟨true, false, 2⟩ = true ∧ RunOptions.failFast ⟨true, false, 2⟩ = false ∧
      lossyJob.tasks ≠ [] ∧ ∃ task ∈ lossyJob.tasks, task.attempt = .died) ∧
    (runKinds ⟨true, false, 2⟩ [lossyJob, emptyJob] [.guards]).findings =
      [⟨.guards, "src", .warn "missing" "Header Guard found nothing to check here"⟩,
        ⟨.guards, "a.h", .fail "Header Guard worker stopped before checking a.h"
          "worker thread panicked" 0⟩,
        ⟨.guards, "b.h", .fail "Header Guard worker stopped before checking b.h"
          "worker thread panicked" 0⟩,
        ⟨.guards, "c.h", .fail "Header Guard worker stopped before checking c.h"
          "worker thread panicked" 0⟩,
        ⟨.guards, "d.h", .fail "Header Guard check panicked on d.h"
          "An unexpected error occurred" 0⟩,
        ⟨.guards, "e.h", .pass "ok" 0⟩,
        ⟨.guards, "include", .skip "no matching files"⟩] ∧
    (runKinds ⟨true, false, 2⟩ [lossyJob, emptyJob] [.guards]).called.map (·.target) =
      ["a.h".toList, "b.h".toList, "d.h".toList, "e.h".toList] ∧
    ((runJobs ⟨true, false, 2⟩ [lossyJob, emptyJob]).report ".").summary.exitCode = 1 := by
  have hdied : ∃ task ∈ lossyJob.tasks, task.attempt = .died := ⟨⟨"b.h", .died⟩, by decide, rfl⟩
  have h := runs_workers_iff_eq_lossyLog ⟨true, false, 2⟩ rfl rfl [lossyJob, emptyJob]
  obtain ⟨-, hkinds, -, -, -, hexit⟩ := h
  refine ⟨⟨rfl, rfl, by decide, hdied⟩, ?_, ?_, ?_⟩
  · rw [hkinds]
    decide +kernel
  · rw [hkinds]
    decide +kernel
  · exact (hexit ⟨lossyJob, List.mem_cons_self, hdied⟩ ".").2 (by decide +kernel)

end SourceAudit
