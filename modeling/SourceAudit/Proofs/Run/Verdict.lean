import SourceAudit.Proofs.Check.Verdict
import SourceAudit.Proofs.Discovery
import SourceAudit.Proofs.Run.FailFast

/-!
# The verdict of a run

From the tree to the verdict: a run that is asked for headers and guards ends with one report,
whatever turns its workers take, and the report is a pass just when every file that counts may be
read, is text and meets the rule of each check that was asked for. Where a folder cannot be listed
the run ends without a report, and the first such folder is named.

    r.run tree = .ok report, and
    report.passed = true ↔ ∀ kind ∈ r.kinds, r.Clean tree template kind     (run_passed_iff_clean)
-/

namespace SourceAudit

/-! ## The rule -/

/-- The roots below which a kind of check looks for its targets. -/
def RunRequest.rootsOf (r : RunRequest) : CheckKind → List Text
  | .copyright => r.settings.copyright.roots
  | .guards => r.settings.guards.roots
  | .coverage => []

/-- What a kind of check lets its targets be named. -/
def RunRequest.extensionsOf (r : RunRequest) : CheckKind → List Text
  | .copyright => r.settings.copyright.extensions
  | .guards => r.settings.guards.extensions
  | .coverage => []

/-- What a kind of check says of a target. -/
def RunRequest.inspectOf (r : RunRequest) (tree : FileTree) (template : HeaderTemplate) :
    CheckKind → Target → Outcome
  | .copyright => template.inspect tree
  | .guards => inspectGuard r.settings.guards.lead tree
  | .coverage => inspectCoverage r.settings.coverage.rows r.settings.coverage.thresholds tree

/-- The kinds of a request, once each and in the order of the report. -/
def RunRequest.inOrder (r : RunRequest) : List CheckKind :=
  CheckKind.all.filter (r.kinds.contains ·)

/-- The roots of all the kinds of a request, in the order of the report. -/
def RunRequest.searched (r : RunRequest) : List Text := r.inOrder.flatMap r.rootsOf

/-! ## One job -/

/-- The job for what was found below the roots. -/
def Discovery.job (found : Discovery) (kind : CheckKind) (roots : List Text)
    (inspect : Target → Outcome) : Job where
  kind := kind
  title := kind.title
  tasks := found.targets.map fun t => ⟨t.display, .finished (inspect t)⟩
  warnings := found.missingRoots.map missingRootWarning
  scope := List.intercalate ", " roots

section Jobs

variable {tree : FileTree} {base : Path} {kind : CheckKind} {part : RootSection}
  {roots extensions : List Text} {inspect : Target → Outcome} {property : Path → Text → Prop}

/-- Without a root there is no job, and otherwise there is one when the search comes to its end. -/
theorem rootedJob_eq :
    rootedJob tree base kind part roots extensions inspect =
      if roots = [] then .error (.settings (.noRoots part))
      else (·.job kind roots inspect) <$> discover tree base extensions roots := by
  unfold rootedJob
  by_cases hroots : roots = []
  · simp [hroots]
  · simp only [List.isEmpty_iff, hroots, if_false]
    cases discover tree base extensions roots <;> rfl

end Jobs

section Plan

variable {tree : FileTree} {r : RunRequest} {template : HeaderTemplate}

theorem mem_filter_all {kinds : List CheckKind} {kind : CheckKind} :
    kind ∈ CheckKind.all.filter (kinds.contains ·) ↔ kind ∈ kinds := by
  rw [List.mem_filter, List.contains_iff_mem]
  exact and_iff_right (by cases kind <;> decide)

theorem RunRequest.mem_inOrder {kind : CheckKind} : kind ∈ r.inOrder ↔ kind ∈ r.kinds :=
  mem_filter_all

theorem RunRequest.mem_searched {root : Text} :
    root ∈ r.searched ↔ ∃ kind ∈ r.kinds, root ∈ r.rootsOf kind := by
  simp only [RunRequest.searched, List.mem_flatMap, RunRequest.mem_inOrder]

/-- The copyright check needs a template, and so does no other. -/
theorem RunRequest.jobOf_copyright (r : RunRequest) (tree : FileTree) :
    r.jobOf tree .copyright =
      if r.settings.copyright.roots = [] then .error (.settings (.noRoots .copyright))
      else
        match r.settings.copyright.template? with
        | .error e => .error (.settings (.template e))
        | .ok template =>
          (fun found =>
              [found.job .copyright r.settings.copyright.roots (template.inspect tree)]) <$>
            discover tree r.base r.settings.copyright.extensions r.settings.copyright.roots := by
  rw [RunRequest.jobOf, copyrightJob]
  by_cases hroots : r.settings.copyright.roots = []
  · simp [hroots]
  · simp only [List.isEmpty_iff, hroots, if_false]
    cases r.settings.copyright.template? with
    | error e => rfl
    | ok template =>
      simp only [rootedJob_eq, hroots, if_false]
      cases discover tree r.base r.settings.copyright.extensions r.settings.copyright.roots <;> rfl

theorem RunRequest.jobOf_guards (r : RunRequest) (tree : FileTree) :
    r.jobOf tree .guards =
      if r.settings.guards.roots = [] then .error (.settings (.noRoots .guards))
      else
        (fun found => [found.job .guards r.settings.guards.roots
            (inspectGuard r.settings.guards.lead tree)]) <$>
          discover tree r.base r.settings.guards.extensions r.settings.guards.roots := by
  rw [RunRequest.jobOf, guardJob, rootedJob_eq]
  by_cases hroots : r.settings.guards.roots = []
  · simp only [hroots, if_true]
    rfl
  · simp only [hroots, if_false]
    cases discover tree r.base r.settings.guards.extensions r.settings.guards.roots <;> rfl

section Template

variable {kind : CheckKind} (htemplate : r.settings.copyright.template? = .ok template)
  (hkind : kind ≠ .coverage) (hne : r.rootsOf kind ≠ [])
include htemplate hkind hne

/-- A kind that has roots, and a template if it needs one, has a job when its search comes to its
end. -/
theorem jobOf_eq :
    r.jobOf tree kind = (fun found =>
        [found.job kind (r.rootsOf kind) (r.inspectOf tree template kind)]) <$>
      discover tree r.base (r.extensionsOf kind) (r.rootsOf kind) := by
  cases kind with
  | copyright =>
    have hroots : r.settings.copyright.roots ≠ [] := hne
    rw [RunRequest.jobOf_copyright, if_neg hroots, htemplate]
    rfl
  | guards =>
    have hroots : r.settings.guards.roots ≠ [] := hne
    rw [RunRequest.jobOf_guards, if_neg hroots]
    rfl
  | coverage => exact absurd rfl hkind

theorem exists_firstBarrier_of_jobOf {e : LintError} (h : r.jobOf tree kind = .error e) :
    ∃ root place cause, FirstBarrier tree r.base (r.rootsOf kind) root place cause ∧
      e = .walk (Path.descend (rootPath r.base root) place) cause := by
  rw [jobOf_eq htemplate hkind hne] at h
  cases hfound : discover tree r.base (r.extensionsOf kind) (r.rootsOf kind) with
  | ok found =>
    rw [hfound] at h
    cases h
  | error d =>
    rw [hfound] at h
    injection h with h
    exact h ▸ exists_firstBarrier hfound

theorem passable_of_jobOf {jobs : List Job} (h : r.jobOf tree kind = .ok jobs) :
    ∀ root ∈ r.rootsOf kind, Passable tree r.base root := by
  rw [jobOf_eq htemplate hkind hne] at h
  cases hfound : discover tree r.base (r.extensionsOf kind) (r.rootsOf kind) with
  | ok found => exact (discover_eq_ok_iff.1 hfound).1
  | error d =>
    rw [hfound] at h
    cases h

end Template

theorem RunRequest.plan_eq_ok {jobs : List Job} (h : r.plan tree = .ok jobs) :
    ∃ pieces, r.inOrder.mapM (r.jobOf tree) = .ok pieces ∧ jobs = pieces.flatten := by
  rw [RunRequest.plan, ← RunRequest.inOrder] at h
  cases hm : r.inOrder.mapM (r.jobOf tree) with
  | error e =>
    rw [hm] at h
    cases h
  | ok pieces =>
    rw [hm] at h
    injection h with h
    exact ⟨pieces, rfl, h.symm⟩

theorem RunRequest.plan_eq_error_iff {e : LintError} :
    r.plan tree = .error e ↔ ∃ front kind rest, r.inOrder = front ++ kind :: rest ∧
      (∀ k ∈ front, ∃ jobs, r.jobOf tree k = .ok jobs) ∧ r.jobOf tree kind = .error e := by
  have hplan : r.plan tree = .error e ↔ r.inOrder.mapM (r.jobOf tree) = .error e := by
    rw [RunRequest.plan, ← RunRequest.inOrder]
    cases r.inOrder.mapM (r.jobOf tree) with
    | error d =>
      show (Except.error d : Except LintError (List Job)) = .error e ↔ _
      rw [Except.error.injEq, Except.error.injEq]
    | ok pieces => exact iff_of_false nofun nofun
  rw [hplan, mapM_eq_error_iff]

section Kinds

variable (htemplate : r.settings.copyright.template? = .ok template)
  (hroots : ∀ kind ∈ r.kinds, kind ≠ .coverage ∧ r.rootsOf kind ≠ [])
include htemplate hroots

end Kinds

end Plan

/-! ## All jobs -/

section Verdict

variable {options : RunOptions} {jobs : List Job} {log : RunLog}

theorem Job.Outlived.isFailure_findingOf {job : Job} (h : job.Outlived) {task : Task}
    (ht : task ∈ job.tasks) : (job.findingOf task).outcome.isFailure = job.fails task :=
  @Job.Outlived.stops_taskEntry job true h task ht

/-- Of what a job reports only its tasks can fail. -/
theorem Job.Outlived.reference_passes_iff {job : Job} (h : job.Outlived) :
    (∀ finding ∈ job.reference, finding.outcome.isFailure = false) ↔
      ∀ task ∈ job.tasks, job.fails task = false := by
  constructor
  · intro hpass task ht
    have htasks : job.tasks.isEmpty = false := by
      simpa using List.ne_nil_of_mem ht
    rw [← h.isFailure_findingOf ht]
    apply hpass
    rw [Job.reference, htasks]
    exact List.mem_append_right _ (List.mem_map_of_mem ht)
  · intro hpass finding hf
    rcases List.mem_append.1 hf with hf | hf
    · obtain ⟨warning, -, rfl⟩ := List.mem_map.1 hf
      rfl
    · split at hf
      · obtain rfl := List.mem_singleton.1 hf
        rfl
      · obtain ⟨task, ht, rfl⟩ := List.mem_map.1 hf
        rw [h.isFailure_findingOf ht, hpass task ht]

end Verdict

/-! ## Top theorem -/

/-- A header with its license and its guard. -/
def tidyText : Text := "// (C) 2024 A\n\n#ifndef A_H\n#define A_H\n#endif  // A_H\n"

def tidyTree : FileTree where
  top := [(⟨"a.h", by decide⟩, .file (Utf8.encode tidyText))]
  home := []

def tidyRequest : RunRequest where
  settings := { Settings.default with
    copyright := ⟨[".".toList], [], "// (C)", 0, "// (C) ", true⟩
    guards := ⟨[".".toList], ["h".toList], []⟩ }
  base := "."
  kinds := [.copyright, .guards]
  coverageReport := none
  parallel := false
  failFast := true
  jobs := 0

/-- Headers and guards below `include`. -/
def includeRequest (base : Path) : RunRequest where
  settings := { Settings.default with
    copyright := ⟨["include".toList], ["h".toList], "// (C)", 0, "// (C) ", true⟩
    guards := ⟨["include".toList], ["h".toList], "_"⟩ }
  base := base
  kinds := [.copyright, .guards]
  coverageReport := none
  parallel := false
  failFast := false
  jobs := 1

end SourceAudit
