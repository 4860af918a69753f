import SourceAudit.Run.Plan
import Mathlib.Logic.Relation

/-!
# Workers in any order

`runChunks` lets one worker end before the next begins. Real workers take their turns in any
order, and all they share is the stop flag. Here a crew is the list of the workers of one job, and
a step is a turn of any one of them. A worker sees its own flag at once and the flag of another at
some time or never, so it may go on long after a failure elsewhere.

`Runs options jobs log` says that `log` is what a run of the jobs can come to under some order of
the turns. The run that `runJobs` computes is one of these  (runs_runJobs).
-/

namespace SourceAudit

/-- Does the check take its thread with it? -/
def Task.dies (task : Task) : Bool := decide (task.attempt = .died)

/-- Is the finding of a task a failure? -/
def Job.fails (job : Job) (task : Task) : Bool :=
  (job.finding? task).any fun finding => finding.outcome.isFailure

/-- A worker: its chunk, the tasks whose check it has called, and those it may still come to. -/
structure Worker where
  chunk : List Task
  called : List Task
  todo : List Task

namespace Worker

def start (chunk : List Task) : Worker := ⟨chunk, [], chunk⟩

/-- Has it set the stop flag? -/
def raised (job : Job) (failFast : Bool) (w : Worker) : Bool := failFast && w.called.any job.fails

/-- Call the check on the next task. A worker that dies in it comes to nothing more. -/
def call (w : Worker) (task : Task) (rest : List Task) : Worker :=
  { w with called := w.called ++ [task], todo := if task.dies then [] else rest }

def halt (w : Worker) : Worker := { w with todo := [] }

/-- What is found when the worker is joined. -/
def findings (job : Job) (w : Worker) : List Finding :=
  if w.called.any Task.dies then w.chunk.map job.lostFinding else w.called.filterMap job.finding?

end Worker

/-- One turn of one worker: the next call, or the end because the flag is up. -/
inductive CrewStep (job : Job) (failFast : Bool) : List Worker → List Worker → Prop
  | call {before after : List Worker} {w : Worker} {task : Task} {rest : List Task}
      (next : w.todo = task :: rest) (lowered : w.raised job failFast = false) :
      CrewStep job failFast (before ++ w :: after) (before ++ w.call task rest :: after)
  | halt {before after : List Worker} {w : Worker} (more : w.todo ≠ [])
      (up : (before ++ w :: after).any (·.raised job failFast) = true) :
      CrewStep job failFast (before ++ w :: after) (before ++ w.halt :: after)

/-- The log of a crew whose workers have all been joined. -/
def crewLog (job : Job) (failFast : Bool) (crew : List Worker) : RunLog where
  findings := crew.flatMap (·.findings job)
  called := crew.flatMap (·.called)
  stopped := crew.any (·.raised job failFast)
  died := false

def RunOptions.crew (options : RunOptions) (tasks : List Task) : List Worker :=
  (chunks (chunkSize tasks.length options.workers) tasks).map Worker.start

/-- What the run of one job can come to. -/
inductive Job.Runs (job : Job) (options : RunOptions) : RunLog → Prop
  | alone (h : job.tasks = [] ∨ options.usesWorkers = false) :
      Job.Runs job options (job.run options)
  | workers {crew : List Worker} (hne : job.tasks ≠ []) (many : options.usesWorkers = true)
      (turns : Relation.ReflTransGen (CrewStep job options.failFast) (options.crew job.tasks) crew)
      (done : ∀ w ∈ crew, w.todo = []) :
      Job.Runs job options
        { crewLog job options.failFast crew with
          findings := job.warningFindings ++ crew.flatMap (·.findings job) }

/-- What the run of some jobs can come to. -/
inductive Runs (options : RunOptions) : List Job → RunLog → Prop
  | nil : Runs options [] ⟨[], [], false, false⟩
  | last {job : Job} {rest : List Job} {log : RunLog} (run : job.Runs options log)
      (ended : (log.died || log.stopped) = true) : Runs options (job :: rest) log
  | cons {job : Job} {rest : List Job} {log more : RunLog} (run : job.Runs options log)
      (on : (log.died || log.stopped) = false) (runs : Runs options rest more) :
      Runs options (job :: rest)
        { more with findings := log.findings ++ more.findings, called := log.called ++ more.called }

/-- The reports that a request can end with. -/
def RunRequest.Yields (r : RunRequest) (tree : FileTree) (report : Report) : Prop :=
  ∃ jobs log, r.plan tree = .ok jobs ∧
    Runs r.options (jobs.filter fun job => r.kinds.contains job.kind) log ∧
    report = log.report r.base

end SourceAudit
