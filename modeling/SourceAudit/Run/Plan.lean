import SourceAudit.Check.Coverage
import SourceAudit.Check.Guard
import SourceAudit.Check.Header
import SourceAudit.Discovery
import SourceAudit.Report.Basic
import SourceAudit.Run.Basic

/-!
# From settings to a report

A request says which kinds of check to run where. Each kind makes one job: its section must name a
root, its targets are looked for, and missing roots become warnings. The coverage check has the one
target it was given, and none makes no job.
-/

namespace SourceAudit

structure RunRequest where
  settings : Settings
  base : Path
  kinds : List CheckKind
  coverageReport : Option Path
  parallel : Bool
  failFast : Bool
  /-- How many workers there may be. -/
  jobs : Nat

def missingRootWarning (root : Text) : Text × Text :=
  (root, "root directory '" ++ root ++ "' does not exist")

/-- The job of a check that looks for its targets below roots. -/
def rootedJob (tree : FileTree) (base : Path) (kind : CheckKind) (part : RootSection)
    (roots extensions : List Text) (inspect : Target → Outcome) : Except LintError Job := do
  if roots.isEmpty then .error (.settings (.noRoots part))
  else
    let found ← discover tree base extensions roots
    return {
      kind := kind
      title := kind.title
      tasks := found.targets.map fun t => ⟨t.display, .finished (inspect t)⟩
      warnings := found.missingRoots.map missingRootWarning
      scope := List.intercalate ", " roots }

def copyrightJob (tree : FileTree) (base : Path) (s : CopyrightSettings) :
    Except LintError Job := do
  if s.roots.isEmpty then .error (.settings (.noRoots .copyright))
  else
    match s.template? with
    | .error e => .error (.settings (.template e))
    | .ok template =>
      rootedJob tree base .copyright .copyright s.roots s.extensions (template.inspect tree)

def guardJob (tree : FileTree) (base : Path) (s : GuardSettings) : Except LintError Job :=
  rootedJob tree base .guards .guards s.roots s.extensions (inspectGuard s.lead tree)

def coverageJob (tree : FileTree) (s : CoverageSettings) (report : Path) : Job :=
  let target := Target.named report
  { kind := .coverage
    title := CheckKind.coverage.title
    tasks := [⟨target.display, .finished (inspectCoverage s.rows s.thresholds tree target)⟩]
    warnings := []
    scope := target.display }

/-- The job of one kind, if it makes one. -/
def RunRequest.jobOf (r : RunRequest) (tree : FileTree) : CheckKind → Except LintError (List Job)
  | .copyright => List.singleton <$> copyrightJob tree r.base r.settings.copyright
  | .guards => List.singleton <$> guardJob tree r.base r.settings.guards
  | .coverage => .ok (r.coverageReport.toList.map (coverageJob tree r.settings.coverage))

/-- The jobs of a request, in the order of the report. -/
def RunRequest.plan (r : RunRequest) (tree : FileTree) : Except LintError (List Job) :=
  List.flatten <$> (CheckKind.all.filter (r.kinds.contains ·)).mapM (r.jobOf tree)

/-- There is always one worker. -/
def RunRequest.options (r : RunRequest) : RunOptions := ⟨r.parallel, r.failFast, max 1 r.jobs⟩

/-- The report of a run below a base directory. -/
def RunLog.report (log : RunLog) (base : Path) : Report := ⟨Utf8.lossy base, log.findings, 0⟩

/-- Run the requested checks in a tree. -/
def RunRequest.run (r : RunRequest) (tree : FileTree) : Except LintError Report := do
  let jobs ← r.plan tree
  return (runKinds r.options jobs r.kinds).report r.base

end SourceAudit
