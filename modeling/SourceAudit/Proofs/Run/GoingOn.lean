import SourceAudit.Proofs.Run.Reference

/-!
# When a run goes on

A run has a part for each job that it came to, and it goes on from each part but the last. Under
fail-fast it ends with the part in which a check failed or crashed. A worker that died leaves
failures of its own, for every task of its chunk, and those do not end the run.

    Runs options jobs log ↔ ∃ parts, Parts options jobs parts ∧ joined parts = log
                                                                       (runs_iff_exists_parts)
    log.stopped = (failFast && some task that was called fails)                    (stopped_eq)
    unless a part but the last lost a worker, no failure stands before the last part
                                                                   (failFast_run_ends_iff)
-/

namespace SourceAudit

open Relation

/-- A job of a run and what it came to. -/
structure RunPart where
  job : Job
  log : RunLog

/-- The parts of a run of some jobs, the way `Runs` puts them together. -/
inductive Parts (options : RunOptions) : List Job → List RunPart → Prop
  | nil : Parts options [] []
  | last {job : Job} {rest : List Job} {log : RunLog} (run : job.Runs options log)
      (ended : (log.died || log.stopped) = true) : Parts options (job :: rest) [⟨job, log⟩]
  | cons {job : Job} {rest : List Job} {log : RunLog} {more : List RunPart}
      (run : job.Runs options log) (on : (log.died || log.stopped) = false)
      (parts : Parts options rest more) : Parts options (job :: rest) (⟨job, log⟩ :: more)

/-- The parts of a run as one log. -/
def joined (parts : List RunPart) : RunLog where
  findings := parts.flatMap (·.log.findings)
  called := parts.flatMap (·.log.called)
  stopped := parts.any (·.log.stopped)
  died := parts.any (·.log.died)

/-- No failure is reported before the last part. -/
def PassesBeforeLast (parts : List RunPart) : Prop :=
  ∀ part ∈ parts.dropLast, ∀ finding ∈ part.log.findings, finding.outcome.isFailure = false

/-! ## Parts -/

variable {options : RunOptions} {jobs : List Job} {job : Job} {log : RunLog}

theorem joined_cons {part : RunPart} {more : List RunPart}
    (on : (part.log.died || part.log.stopped) = false) :
    joined (part :: more) =
      { joined more with
        findings := part.log.findings ++ (joined more).findings
        called := part.log.called ++ (joined more).called } := by
  obtain ⟨hdied, hstopped⟩ := Bool.or_eq_false_iff.1 on
  simp [joined, hdied, hstopped]

theorem joined_singleton (part : RunPart) : joined [part] = part.log := by
  simp [joined]

theorem runs_iff_exists_parts :
    Runs options jobs log ↔ ∃ parts, Parts options jobs parts ∧ joined parts = log := by
  constructor
  · intro h
    induction h with
    | nil => exact ⟨[], Parts.nil, rfl⟩
    | last run ended => exact ⟨_, Parts.last run ended, joined_singleton _⟩
    | @cons job rest log more run on runs ih =>
      obtain ⟨parts, hparts, rfl⟩ := ih
      exact ⟨⟨job, log⟩ :: parts, Parts.cons run on hparts, joined_cons on⟩
  · rintro ⟨parts, hparts, rfl⟩
    induction hparts with
    | nil => exact Runs.nil
    | last run ended =>
      rw [joined_singleton]
      exact Runs.last run ended
    | cons run on _ ih =>
      rw [joined_cons on]
      exact Runs.cons run on ih

theorem Parts.isPrefix {parts : List RunPart} (h : Parts options jobs parts) :
    parts.map (·.job) <+: jobs := by
  induction h with
  | nil => exact List.prefix_rfl
  | @last job rest log run ended => exact ⟨rest, rfl⟩
  | @cons job rest log more run on parts ih => exact (List.prefix_cons_inj job).2 ih

/-- A run goes on only from a part that neither a failure stopped nor a thread was lost in. -/
theorem Parts.of_mem_dropLast {parts : List RunPart} (h : Parts options jobs parts)
    {part : RunPart} (hp : part ∈ parts.dropLast) :
    part.job ∈ jobs ∧ part.job.Runs options part.log ∧
      part.log.died = false ∧ part.log.stopped = false := by
  induction h with
  | nil => cases hp
  | last run ended => cases hp
  | @cons job rest log more run on parts ih =>
    cases more with
    | nil => cases hp
    | cons next more =>
      rw [List.dropLast_cons_cons] at hp
      rcases List.mem_cons.1 hp with rfl | hp
      · exact ⟨List.mem_cons_self, run, Bool.or_eq_false_iff.1 on⟩
      · exact ⟨List.mem_cons_of_mem job (ih hp).1, (ih hp).2⟩

/-! ## What the workers of a crew call -/

/-- What a worker has called and what it may still call is of its chunk. -/
def Worker.Within (w : Worker) : Prop := w.called ⊆ w.chunk ∧ w.todo ⊆ w.chunk

theorem Worker.Within.call {w : Worker} {task : Task} {rest : List Task} (h : w.Within)
    (next : w.todo = task :: rest) : (w.call task rest).Within := by
  have htodo : task :: rest ⊆ w.chunk := next ▸ h.2
  refine ⟨List.append_subset.2 ⟨h.1, ?_⟩, ?_⟩
  · exact List.cons_subset.2 ⟨htodo List.mem_cons_self, List.nil_subset _⟩
  · show (if task.dies then [] else rest) ⊆ w.chunk
    split
    · exact List.nil_subset _
    · exact fun t ht => htodo (List.mem_cons_of_mem task ht)

variable {failFast : Bool} {crew crew' : List Worker}

theorem within_of_crewStep (hw : ∀ w ∈ crew, w.Within) (h : CrewStep job failFast crew crew') :
    ∀ w ∈ crew', w.Within := by
  -- every worker but the one whose turn it was is as before
  have hstep : ∀ {before after : List Worker} {w v : Worker}, v.Within →
      (∀ u ∈ before ++ w :: after, u.Within) → ∀ u ∈ before ++ v :: after, u.Within := by
    intro before after w v hv hall u hu
    simp only [List.mem_append, List.mem_cons] at hu hall
    rcases hu with hu | rfl | hu
    · exact hall u (Or.inl hu)
    · exact hv
    · exact hall u (Or.inr (Or.inr hu))
  cases h with
  | @call before after w task rest next lowered =>
    exact hstep ((hw w (by simp)).call next) hw
  | @halt before after w more up =>
    exact hstep ⟨(hw w (by simp)).1, List.nil_subset _⟩ hw

theorem within_of_turns (hw : ∀ w ∈ crew, w.Within)
    (h : ReflTransGen (CrewStep job failFast) crew crew') :
    crew'.map Worker.chunk = crew.map Worker.chunk ∧ ∀ w ∈ crew', w.Within := by
  induction h with
  | refl => exact ⟨rfl, hw⟩
  | tail _ step ih =>
    exact ⟨(map_chunk_of_crewStep step).trans ih.1, within_of_crewStep ih.2 step⟩

theorem within_crew (tasks : List Task) : ∀ w ∈ options.crew tasks, w.Within := by
  intro w hw
  obtain ⟨chunk, -, rfl⟩ := List.mem_map.1 hw
  exact ⟨List.nil_subset _, List.Subset.refl _⟩

theorem chunk_subset_of_turns {tasks : List Task}
    (h : ReflTransGen (CrewStep job failFast) (options.crew tasks) crew) {w : Worker}
    (hw : w ∈ crew) : w.chunk ⊆ tasks := by
  have hchunks := (within_of_turns (within_crew tasks) h).1
  have hmem : w.chunk ∈ (options.crew tasks).map Worker.chunk := by
    rw [← hchunks]
    exact List.mem_map_of_mem hw
  obtain ⟨v, hv, hc⟩ := List.mem_map.1 hmem
  obtain ⟨chunk, hchunk, rfl⟩ := List.mem_map.1 hv
  intro task ht
  rw [← flatten_chunks (chunkSize tasks.length options.workers) tasks]
  exact List.mem_flatten.2 ⟨chunk, hchunk, by rwa [← hc] at ht⟩

/-! ## What a job comes to -/

theorem any_isFailure_filterMap (called : List Task) :
    (called.filterMap job.finding?).any (·.outcome.isFailure) = called.any job.fails := by
  rw [List.any_filterMap]
  refine List.any_congr rfl fun task => ?_
  rw [Job.fails]
  cases job.finding? task <;> rfl

theorem any_fails_or_dies {called : List Task} (hd : called.any Task.dies = false) :
    (called.any fun task => job.fails task || task.dies) = called.any job.fails := by
  rw [Bool.eq_iff_iff, List.any_eq_true, List.any_eq_true]
  refine exists_congr fun task => and_congr_right fun ht => ?_
  rw [Bool.eq_false_iff.2 (List.any_eq_false.1 hd task ht), Bool.or_false]

/-- A worker leaves a failure when one of its calls failed, and when it died. -/
theorem Worker.Within.any_isFailure {w : Worker} (h : w.Within) :
    (w.findings job).any (·.outcome.isFailure) =
      w.called.any fun task => job.fails task || task.dies := by
  rw [Worker.findings]
  cases hd : w.called.any Task.dies with
  | true =>
    obtain ⟨task, ht, hdies⟩ := List.any_eq_true.1 hd
    have hlost : (w.chunk.map job.lostFinding).any (·.outcome.isFailure) = true :=
      List.any_eq_true.2 ⟨_, List.mem_map_of_mem (h.1 ht), rfl⟩
    rw [if_pos rfl, hlost, eq_comm, List.any_eq_true]
    exact ⟨task, ht, by rw [hdies, Bool.or_true]⟩
  | false => rw [if_neg Bool.false_ne_true, any_isFailure_filterMap, any_fails_or_dies hd]

theorem any_isFailure_warningFindings (job : Job) :
    job.warningFindings.any (·.outcome.isFailure) = false := by
  rw [List.any_eq_false]
  intro finding hf
  obtain ⟨warning, -, rfl⟩ := List.mem_map.1 hf
  exact Bool.false_ne_true

/-- Of a job that runs alone: either it has no tasks, or one thread calls them. -/
theorem Job.run_alone (h : job.tasks = [] ∨ options.usesWorkers = false) :
    job.run options = ⟨job.warningFindings ++ [job.emptyFinding], [], false, false⟩ ∨
      ∃ called, called ⊆ job.tasks ∧ job.run options =
        { job.threadLog options.failFast called with
          findings := job.warningFindings ++ called.filterMap job.finding? } := by
  cases htasks : job.tasks.isEmpty with
  | true => exact Or.inl (by rw [Job.run, htasks, if_pos rfl])
  | false =>
    have hone : options.usesWorkers = false := by
      rcases h with h | h
      · rw [h] at htasks
        cases htasks
      · exact h
    refine Or.inr ⟨_, (isPrefix_takeThrough (p := job.ends options.failFast) job.tasks).subset, ?_⟩
    rw [Job.run, htasks, hone, Job.runTasks_eq]
    rfl

theorem Job.Runs.called_subset (h : job.Runs options log) : log.called ⊆ job.tasks := by
  cases h with
  | alone h =>
    rcases Job.run_alone h with hrun | ⟨called, hsub, hrun⟩
    · rw [hrun]
      exact List.nil_subset _
    · rw [hrun]
      exact hsub
  | @workers crew hne many turns done =>
    intro task ht
    obtain ⟨w, hw, ht⟩ := List.mem_flatMap.1 ht
    exact chunk_subset_of_turns turns hw (((within_of_turns (within_crew _) turns).2 w hw).1 ht)

/-- What stops a run is a call that failed, and nothing else does. -/
theorem Job.Runs.stopped_eq (h : job.Runs options log) :
    log.stopped = (options.failFast && log.called.any job.fails) := by
  cases h with
  | alone h =>
    rcases Job.run_alone h with hrun | ⟨called, -, hrun⟩
    · rw [hrun, List.any_nil, Bool.and_false]
    · rw [hrun]
      rfl
  | @workers crew hne many turns done =>
    show crew.any (·.raised job options.failFast) = _
    simp only [crewLog, List.any_flatMap]
    cases options.failFast with
    | true => rfl
    | false => exact List.any_eq_false.2 fun w _ => Bool.false_ne_true

/-- Without workers a check that takes its thread with it ends the run. -/
theorem Job.Runs.died_eq (h : job.Runs options log) (hone : options.usesWorkers = false) :
    log.died = log.called.any Task.dies := by
  cases h with
  | alone h =>
    rcases Job.run_alone h with hrun | ⟨called, -, hrun⟩
    · rw [hrun, List.any_nil]
    · rw [hrun]
      rfl
  | workers hne many =>
    rw [hone] at many
    cases many

/-- A job whose thread is not lost reports a failure when a call failed or took a worker. -/
theorem Job.Runs.any_isFailure (h : job.Runs options log) (hd : log.died = false) :
    log.findings.any (·.outcome.isFailure) =
      log.called.any fun task => job.fails task || task.dies := by
  cases h with
  | alone h =>
    rcases Job.run_alone h with hrun | ⟨called, -, hrun⟩
    · rw [hrun, List.any_append, any_isFailure_warningFindings]
      rfl
    · rw [hrun] at hd ⊢
      rw [List.any_append, any_isFailure_warningFindings, Bool.false_or, any_isFailure_filterMap]
      exact (any_fails_or_dies hd).symm
  | @workers crew hne many turns done =>
    have hw := (within_of_turns (within_crew _) turns).2
    simp only [crewLog, List.any_append, any_isFailure_warningFindings, Bool.false_or,
      List.any_flatMap]
    rw [Bool.eq_iff_iff, List.any_eq_true, List.any_eq_true]
    exact exists_congr fun w => and_congr_right fun hmem => by rw [(hw w hmem).any_isFailure]

/-! ## Runs under fail-fast -/

/-- A part that a run goes on from has no call that failed, and so its failures stand for lost
workers. -/
theorem Parts.passes_iff {parts : List RunPart} (h : Parts options jobs parts)
    (hff : options.failFast = true) {part : RunPart} (hp : part ∈ parts.dropLast) :
    (∀ task ∈ part.log.called, part.job.fails task = false) ∧
      ((∀ finding ∈ part.log.findings, finding.outcome.isFailure = false) ↔
        ∀ task ∈ part.log.called, task.dies = false) := by
  obtain ⟨-, hrun, hdied, hstopped⟩ := h.of_mem_dropLast hp
  have hfails : ∀ task ∈ part.log.called, part.job.fails task = false := by
    rw [hrun.stopped_eq, hff, Bool.true_and, List.any_eq_false] at hstopped
    simpa using hstopped
  refine ⟨hfails, ?_⟩
  have hany := hrun.any_isFailure hdied
  have hdies : (part.log.called.any fun task => part.job.fails task || task.dies) =
      part.log.called.any Task.dies := by
    rw [Bool.eq_iff_iff, List.any_eq_true, List.any_eq_true]
    exact exists_congr fun task => and_congr_right fun ht => by rw [hfails task ht, Bool.false_or]
  rw [hdies] at hany
  simpa using congrArg (· = false) hany

/-- No worker of a job is lost before the last part when there are none, or when no check takes
its thread with it. -/
theorem Parts.dies_eq_false {parts : List RunPart} (h : Parts options jobs parts)
    (hsafe : options.usesWorkers = false ∨ ∀ job ∈ jobs, job.Outlived) {part : RunPart}
    (hp : part ∈ parts.dropLast) : ∀ task ∈ part.log.called, task.dies = false := by
  obtain ⟨hjob, hrun, hdied, -⟩ := h.of_mem_dropLast hp
  intro task ht
  rcases hsafe with hone | ha
  · rw [hrun.died_eq hone, List.any_eq_false] at hdied
    simpa using hdied task ht
  · exact Task.dies_eq_false (ha part.job hjob task (hrun.called_subset ht))

/-! ## Top theorem -/

/-- Under fail-fast nothing comes after a part in which a call failed or crashed, and so nothing
comes after a failure just when no worker was lost before the last part. -/
theorem failFast_run_ends_iff (options : RunOptions) (hff : options.failFast = true)
    (jobs : List Job) :
    (∀ log, Runs options jobs log ↔ ∃ parts, Parts options jobs parts ∧ joined parts = log) ∧
      ∀ parts, Parts options jobs parts →
        parts.map (·.job) <+: jobs ∧
        (∀ part ∈ parts.dropLast, ∀ task ∈ part.log.called, part.job.fails task = false) ∧
        (PassesBeforeLast parts ↔
          ∀ part ∈ parts.dropLast, ∀ task ∈ part.log.called, task.dies = false) ∧
        ((options.usesWorkers = false ∨ ∀ job ∈ jobs, job.Outlived) → PassesBeforeLast parts) := by
  refine ⟨fun _ => runs_iff_exists_parts, fun parts h => ?_⟩
  have hiff : PassesBeforeLast parts ↔
      ∀ part ∈ parts.dropLast, ∀ task ∈ part.log.called, task.dies = false :=
    forall₂_congr fun part hp => (h.passes_iff hff hp).2
  refine ⟨h.isPrefix, fun part hp => (h.passes_iff hff hp).1, hiff, fun hsafe => ?_⟩
  exact hiff.2 fun part hp => h.dies_eq_false hsafe hp

/-- A crash on the first of two workers ends the run before its second job. -/
theorem failFast_run_ends_iff_crash :
    RunOptions.failFast ⟨true, true, 2⟩ = true ∧
      (∃ parts, Parts ⟨true, true, 2⟩ [mixedJob, emptyJob] parts ∧
        joined parts = runJobs ⟨true, true, 2⟩ [mixedJob, emptyJob]) ∧
      (∀ parts, Parts ⟨true, true, 2⟩ [mixedJob, emptyJob] parts → PassesBeforeLast parts) ∧
      (runJobs ⟨true, true, 2⟩ [mixedJob, emptyJob]).findings.map (·.target) =
        ["src".toList, "a.h".toList, "b.h".toList] := by
  obtain ⟨hruns, hparts⟩ := failFast_run_ends_iff ⟨true, true, 2⟩ rfl [mixedJob, emptyJob]
  refine ⟨rfl, (hruns _).1 (runs_runJobs _ _), fun parts h => ?_, by decide +kernel⟩
  exact (hparts parts h).2.2.2 (Or.inr (by decide))

/-- The check takes the worker of its only task with it. -/
def lostJob : Job where
  kind := .copyright
  title := "Copyright Header"
  tasks := [⟨"a.h", .died⟩]
  warnings := []
  scope := "include"

def soundJob : Job where
  kind := .guards
  title := "Header Guard"
  tasks := [⟨"b.h", .finished (.pass "guarded by _B_H" 0)⟩]
  warnings := []
  scope := "include"

/-- After a lost worker the run goes on to the next job, fail-fast or not. -/
theorem failFast_goes_on_after_lost_worker :
    runJobs ⟨true, true, 2⟩ [lostJob, soundJob] =
        { findings := [
            ⟨.copyright, "a.h", .fail "Copyright Header worker stopped before checking a.h"
              "worker thread panicked" 0⟩,
            ⟨.guards, "b.h", .pass "guarded by _B_H" 0⟩]
          called := [⟨"a.h", .died⟩, ⟨"b.h", .finished (.pass "guarded by _B_H" 0)⟩]
          stopped := false
          died := false } ∧
      ¬ ∀ parts, Parts ⟨true, true, 2⟩ [lostJob, soundJob] parts → PassesBeforeLast parts := by
  refine ⟨by decide +kernel, fun h => ?_⟩
  have hparts : Parts ⟨true, true, 2⟩ [lostJob, soundJob]
      [⟨lostJob, lostJob.run ⟨true, true, 2⟩⟩, ⟨soundJob, soundJob.run ⟨true, true, 2⟩⟩] :=
    Parts.cons (Job.runs_run _) (by decide +kernel)
      (Parts.cons (Job.runs_run _) (by decide +kernel) Parts.nil)
  have hpass : ∀ finding ∈ (lostJob.run ⟨true, true, 2⟩).findings,
      finding.outcome.isFailure = false :=
    h _ hparts ⟨lostJob, _⟩ List.mem_cons_self
  revert hpass
  decide +kernel

end SourceAudit
