import SourceAudit.Proofs.Run.Reference

/-!
# Stopping at the first failure

A run without workers that stops at a failure reports what the same run reports without stopping,
up to and including the first failure. An entry is a finding with the task that was called for it,
so that the calls are cut at the same place as the findings.

    runJobs options jobs = entryLog (takeThrough stops (jobs.flatMap entries))     (runJobs_eq_cut)
-/

namespace SourceAudit

/-- A finding with the task that was called for it. None was called for a warning, or for a job
without tasks. -/
structure Entry where
  finding : Finding
  task : Option Task

def Job.taskEntry (job : Job) (task : Task) : Entry := ⟨job.findingOf task, some task⟩

/-- What a job reports when nothing cuts it short. -/
def Job.entries (job : Job) : List Entry :=
  job.warningFindings.map (⟨·, none⟩) ++
    if job.tasks.isEmpty then [⟨job.emptyFinding, none⟩] else job.tasks.map job.taskEntry

/-- Does a run end with this entry? -/
def Entry.stops (failFast : Bool) (e : Entry) : Bool := failFast && e.finding.outcome.isFailure

/-- The log of a run that comes to these entries. -/
def entryLog (failFast : Bool) (entries : List Entry) : RunLog where
  findings := entries.map (·.finding)
  called := entries.filterMap (·.task)
  stopped := entries.any (·.stops failFast)
  died := false

/-! ## Lemmas -/

variable {job : Job} {options : RunOptions} {failFast : Bool}

theorem Job.Outlived.stops_taskEntry (ha : job.Outlived) {task : Task} (ht : task ∈ job.tasks) :
    (job.taskEntry task).stops failFast = (failFast && job.fails task) := by
  cases hf : job.finding? task with
  | none =>
    have hd := Task.dies_eq_false (ha task ht)
    rw [Job.finding?_eq_none_iff.1 hf] at hd
    cases hd
  | some finding => simp [Entry.stops, Job.taskEntry, Job.findingOf, Job.fails, hf]

theorem Job.Outlived.threadLog_eq (ha : job.Outlived) {tasks : List Task}
    (hsub : tasks ⊆ job.tasks) :
    job.threadLog failFast tasks = entryLog failFast (tasks.map job.taskEntry) := by
  have hcalled : (tasks.map job.taskEntry).filterMap (·.task) = tasks := by
    rw [List.filterMap_map]
    exact List.filterMap_some
  have hstopped : (tasks.map job.taskEntry).any (·.stops failFast) =
      (failFast && tasks.any job.fails) := by
    rw [List.any_map, Bool.eq_iff_iff, List.any_eq_true, Bool.and_eq_true, List.any_eq_true]
    constructor
    · rintro ⟨task, ht, hs⟩
      rw [Function.comp, ha.stops_taskEntry (hsub ht), Bool.and_eq_true] at hs
      exact ⟨hs.1, task, ht, hs.2⟩
    · rintro ⟨hf, task, ht, hs⟩
      refine ⟨task, ht, ?_⟩
      rw [Function.comp, ha.stops_taskEntry (hsub ht), hf, hs]
      rfl
  rw [Job.threadLog, entryLog, hcalled, hstopped, ha.filterMap_finding? hsub, ha.dies hsub,
    List.map_map]
  rfl

theorem Job.Outlived.runTasks_eq_cut (ha : job.Outlived) :
    job.runTasks failFast false job.tasks =
      entryLog failFast (takeThrough (·.stops failFast) (job.tasks.map job.taskEntry)) := by
  have hends : ∀ task ∈ job.tasks,
      job.ends failFast task = (job.taskEntry task).stops failFast := by
    intro task ht
    rw [Job.ends, Task.dies_eq_false (ha task ht), ha.stops_taskEntry ht, Bool.false_or]
  have hsub := (isPrefix_takeThrough (p := job.ends failFast) job.tasks).subset
  rw [Job.runTasks_eq, ha.threadLog_eq hsub, takeThrough_congr hends,
    map_takeThrough (p := (·.stops failFast)) job.taskEntry]

theorem Job.any_stops_warnings (job : Job) (failFast : Bool) :
    (job.warningFindings.map (⟨·, none⟩ : Finding → Entry)).any (·.stops failFast) = false := by
  rw [List.any_eq_false]
  intro e he
  simp only [Job.warningFindings, List.map_map, List.mem_map] at he
  obtain ⟨w, -, rfl⟩ := he
  simp [Entry.stops, Outcome.isFailure]

/-- Entries that no task was called for stand in front. -/
theorem entryLog_warnings (job : Job) (entries : List Entry) :
    entryLog failFast (job.warningFindings.map (⟨·, none⟩) ++ entries) =
      { entryLog failFast entries with
        findings := job.warningFindings ++ entries.map (·.finding) } := by
  have hnone : (job.warningFindings.map (⟨·, none⟩ : Finding → Entry)).filterMap (·.task) = [] := by
    rw [List.filterMap_map]
    exact List.filterMap_eq_nil_iff.2 fun _ _ => rfl
  have hmap : (job.warningFindings.map (⟨·, none⟩ : Finding → Entry)).map (·.finding) =
      job.warningFindings := by
    rw [List.map_map]
    exact List.map_id _
  rw [entryLog, entryLog, List.map_append, List.filterMap_append, List.any_append, hmap, hnone,
    job.any_stops_warnings, List.nil_append, Bool.false_or]

/-- A job that runs alone comes to its entries up to the one that stops it. -/
theorem Job.run_eq_cut (hone : options.usesWorkers = false) (ha : job.Outlived) :
    job.run options =
      entryLog options.failFast (takeThrough (·.stops options.failFast) job.entries) := by
  rw [Job.entries, takeThrough_append, job.any_stops_warnings, if_neg Bool.false_ne_true,
    entryLog_warnings, Job.run]
  cases htasks : job.tasks.isEmpty with
  | true => simp [takeThrough, entryLog, Entry.stops, Outcome.isFailure, Job.emptyFinding]
  | false =>
    simp only [Bool.false_eq_true, if_false, hone, ha.runTasks_eq_cut]
    rfl

theorem takeThrough_entries_eq_self {entries : List Entry}
    (h : entries.any (·.stops failFast) = false) :
    takeThrough (·.stops failFast) entries = entries := by
  apply takeThrough_eq_self
  intro e he
  simpa using List.any_eq_false.1 h e he

theorem runJobs_eq_cut (hone : options.usesWorkers = false) {jobs : List Job}
    (ha : ∀ job ∈ jobs, job.Outlived) :
    runJobs options jobs = entryLog options.failFast
      (takeThrough (·.stops options.failFast) (jobs.flatMap Job.entries)) := by
  induction jobs with
  | nil => rfl
  | cons job rest ih =>
    have hrest := ih fun j hj => ha j (List.mem_cons_of_mem job hj)
    rw [runJobs, Job.run_eq_cut hone (ha job List.mem_cons_self), List.flatMap_cons,
      takeThrough_append, hrest]
    have hstop := any_takeThrough (p := (·.stops options.failFast)) job.entries
    cases hs : job.entries.any (·.stops options.failFast) with
    | true => simp [entryLog, hstop, hs]
    | false =>
      rw [takeThrough_entries_eq_self hs]
      simp [entryLog, hs]

theorem passed_entryLog (entries : List Entry) (base : Path) :
    ((entryLog failFast entries).report base).passed = !entries.any (·.stops true) := by
  rw [Report.passed, RunLog.report, entryLog, List.any_map]
  rfl

/-! ## Top theorems -/

/-- A run in turn that stops at a failure is the run that does not, cut behind its first failure:
in its findings, in its calls, and so with the same verdict. The exit code tells the verdict as long
as the failures can be counted. -/
theorem runKinds_failFast_eq_takeThrough (options : RunOptions) (hone : options.usesWorkers = false)
    (jobs : List Job) (kinds : List CheckKind)
    (ha : ∀ job ∈ jobs, job.kind ∈ kinds → job.Outlived) :
    let entries := (jobs.filter fun job => kinds.contains job.kind).flatMap Job.entries
    let whole := runKinds { options with failFast := false } jobs kinds
    let cut := runKinds { options with failFast := true } jobs kinds
    (whole.died = false ∧ cut.died = false) ∧
      whole.findings = entries.map (·.finding) ∧
      whole.called = entries.filterMap (·.task) ∧
      cut.findings = takeThrough (·.outcome.isFailure) whole.findings ∧
      cut.called = (entries.take cut.findings.length).filterMap (·.task) ∧
      ∀ base, (cut.report base).passed = (whole.report base).passed ∧
        ((whole.report base).failures < UInt32.size →
          (cut.report base).summary.exitCode = (whole.report base).summary.exitCode) := by
  intro entries whole cut
  have hsel : ∀ job ∈ jobs.filter (fun job => kinds.contains job.kind), job.Outlived := by
    intro job hj
    exact ha job (mem_selected.1 hj).1 (mem_selected.1 hj).2
  have hwhole : whole = entryLog false entries := by
    have hself : takeThrough (·.stops false) entries = entries :=
      takeThrough_eq_self fun _ _ => rfl
    have hrun : whole = entryLog false (takeThrough (·.stops false) entries) :=
      @runJobs_eq_cut { options with failFast := false } hone _ hsel
    rw [hrun, hself]
  have hcut : cut = entryLog true (takeThrough (·.stops true) entries) :=
    @runJobs_eq_cut { options with failFast := true } hone _ hsel
  have hfindings : whole.findings = entries.map (·.finding) := by rw [hwhole, entryLog]
  have hlength : cut.findings.length = (takeThrough (·.stops true) entries).length := by
    rw [hcut, entryLog, List.length_map]
  have hpassed : ∀ base, (cut.report base).passed = (whole.report base).passed := by
    intro base
    rw [hcut, hwhole, passed_entryLog, passed_entryLog, any_takeThrough]
  have htaken : cut.findings = takeThrough (·.outcome.isFailure) whole.findings := by
    rw [hfindings, ← map_takeThrough, hcut]
    rfl
  refine ⟨⟨by rw [hwhole, entryLog], by rw [hcut, entryLog]⟩, hfindings, by rw [hwhole, entryLog],
    htaken, ?_, fun base => ⟨hpassed base, fun hcounted => ?_⟩⟩
  · rw [hlength, ← List.prefix_iff_eq_take.1 (isPrefix_takeThrough entries), hcut, entryLog]
  · have hfewer : (cut.report base).failures ≤ (whole.report base).failures := by
      have hsublist : cut.findings.Sublist whole.findings :=
        htaken ▸ (isPrefix_takeThrough whole.findings).sublist
      exact hsublist.countP_le
    rw [Report.exitCode_summary hcounted,
      Report.exitCode_summary (Nat.lt_of_le_of_lt hfewer hcounted),
      hpassed]

/-- The crash of the second task keeps the third from being called. -/
theorem runKinds_failFast_eq_takeThrough_crash :
    (RunOptions.usesWorkers ⟨false, false, 4⟩ = false ∧
      ∀ job ∈ [mixedJob, emptyJob], job.kind ∈ CheckKind.all → job.Outlived) ∧
      (runKinds ⟨false, true, 4⟩ [mixedJob, emptyJob] CheckKind.all).findings =
        takeThrough (·.outcome.isFailure)
          (runKinds ⟨false, false, 4⟩ [mixedJob, emptyJob] CheckKind.all).findings ∧
      (runKinds ⟨false, true, 4⟩ [mixedJob, emptyJob] CheckKind.all).findings.length = 3 := by
  have h := runKinds_failFast_eq_takeThrough ⟨false, false, 4⟩ rfl [mixedJob, emptyJob]
    CheckKind.all (by decide)
  exact ⟨⟨rfl, by decide⟩, h.2.2.2.1, by decide⟩

end SourceAudit
