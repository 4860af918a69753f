import SourceAudit.Finding

/-!
# Running checks

A job is a check with its tasks, one for every target. Jobs run one after the other, and the tasks
of a job either one after the other or in chunks, each on a worker of its own. The findings stand
in the order of the jobs and of their tasks either way.

A check can fail in three ways that are no outcome of its own. If it crashes, the task becomes a
failure. If it takes its worker with it, every task of the worker's chunk does, and without workers
the whole run is lost. With `failFast`, nothing starts once a check has failed or crashed.

    (chunks n tasks).flatten = tasks                                            (flatten_chunks)
-/

namespace SourceAudit

/-! ## Algorithm -/

/-- What calling a check on a target comes to. -/
inductive Attempt
  | finished (outcome : Outcome)
  | crashed
  | died
deriving DecidableEq

structure Task where
  target : Text
  attempt : Attempt
deriving DecidableEq

structure Job where
  kind : CheckKind
  title : Text
  tasks : List Task
  /-- Targets and messages to be reported before the tasks run. -/
  warnings : List (Text × Text)
  /-- The target of the finding that stands for a job without tasks. -/
  scope : Text
deriving DecidableEq

structure RunOptions where
  parallel : Bool
  failFast : Bool
  workers : Nat
deriving DecidableEq

/-- A run, or a part of one. -/
structure RunLog where
  findings : List Finding
  /-- The tasks whose check was called. Those of one job, and in it those of one worker, stand
  together, and in the order of the calls. -/
  called : List Task
  /-- What has not started by now will not start. -/
  stopped : Bool
  /-- The thread of the run was lost. -/
  died : Bool
deriving DecidableEq

/-- How many times a check was called. -/
def RunLog.calls (log : RunLog) : Nat := log.called.length

namespace Job

def warningFindings (job : Job) : List Finding :=
  job.warnings.map fun (target, message) =>
    ⟨job.kind, target, .warn message (job.title ++ " found nothing to check here")⟩

def emptyFinding (job : Job) : Finding := ⟨job.kind, job.scope, .skip "no matching files"⟩

/-- What a check that crashed leaves behind. -/
def crashOutcome (job : Job) (task : Task) : Outcome :=
  .fail (job.title ++ " check panicked on " ++ task.target) "An unexpected error occurred" 0

/-- What stands for a task whose worker is gone. -/
def lostFinding (job : Job) (task : Task) : Finding :=
  ⟨job.kind, task.target,
    .fail (job.title ++ " worker stopped before checking " ++ task.target)
      "worker thread panicked" 0⟩

/-- The finding of a task, unless the check took the thread with it. -/
def finding? (job : Job) (task : Task) : Option Finding :=
  match task.attempt with
  | .finished outcome => some ⟨job.kind, task.target, outcome⟩
  | .crashed => some ⟨job.kind, task.target, job.crashOutcome task⟩
  | .died => none

/-- Run tasks one after the other until a failure stops them or the thread is lost. -/
def runTasks (job : Job) (failFast : Bool) : Bool → List Task → RunLog
  | stopped, [] => ⟨[], [], stopped, false⟩
  | true, _ :: _ => ⟨[], [], true, false⟩
  | false, task :: rest =>
    match job.finding? task with
    | none => ⟨[], [task], false, true⟩
    | some finding =>
      let log := runTasks job failFast (failFast && finding.outcome.isFailure) rest
      { log with findings := finding :: log.findings, called := task :: log.called }

/-- Run chunks of tasks, each on its own worker. Workers take their turns in the order of their
chunks. -/
def runChunks (job : Job) (failFast : Bool) : Bool → List (List Task) → RunLog
  | stopped, [] => ⟨[], [], stopped, false⟩
  | stopped, chunk :: rest =>
    let log := job.runTasks failFast stopped chunk
    let findings := if log.died then chunk.map job.lostFinding else log.findings
    let more := runChunks job failFast log.stopped rest
    ⟨findings ++ more.findings, log.called ++ more.called, more.stopped, false⟩

end Job

/-- Cut a list into pieces of `size` elements; the last may be shorter. -/
def chunks {α : Type} (size : Nat) : List α → List (List α)
  | [] => []
  | x :: rest => (x :: rest.take (size - 1)) :: chunks size (rest.drop (size - 1))
termination_by l => l.length
decreasing_by
  simp only [List.length_drop, List.length_cons]
  omega

/-- The least size of chunks that leaves no more chunks than workers. -/
def chunkSize (tasks workers : Nat) : Nat := max 1 ((tasks + workers - 1) / workers)

def RunOptions.usesWorkers (options : RunOptions) : Bool :=
  options.parallel && 1 < options.workers

/-- Run the tasks of one job, if nothing has stopped the run. -/
def Job.run (job : Job) (options : RunOptions) : RunLog :=
  let log :=
    if job.tasks.isEmpty then ⟨[job.emptyFinding], [], false, false⟩
    else if options.usesWorkers then
      job.runChunks options.failFast false
        (chunks (chunkSize job.tasks.length options.workers) job.tasks)
    else job.runTasks options.failFast false job.tasks
  { log with findings := job.warningFindings ++ log.findings }

def runJobs (options : RunOptions) : List Job → RunLog
  | [] => ⟨[], [], false, false⟩
  | job :: rest =>
    let log := job.run options
    if log.died || log.stopped then log
    else
      let more := runJobs options rest
      { more with findings := log.findings ++ more.findings, called := log.called ++ more.called }

/-- Run the jobs of some kinds. -/
def runKinds (options : RunOptions) (jobs : List Job) (kinds : List CheckKind) : RunLog :=
  runJobs options (jobs.filter fun job => kinds.contains job.kind)

/-! ## Lemmas -/

theorem flatten_chunks {α : Type} (size : Nat) (l : List α) : (chunks size l).flatten = l := by
  fun_induction chunks size l with
  | case1 => rfl
  | case2 x rest ih => rw [List.flatten_cons, ih, List.cons_append, List.take_append_drop]

end SourceAudit
