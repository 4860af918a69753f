import SourceAudit.Proofs.Run.Verdict

/-!
# What a request plans

Each requested kind makes its jobs from its own section of the settings, and the plan is the jobs of
the kinds in the order of the report. The first kind that has no jobs to make gives the error. When
no failure stops it, a run reports of each kind what the rule below says.

    r.plan tree = .error e ↔ `e` is the error of the first kind that fails    (plan_eq_error_iff)
    r.jobOf tree kind = .ok jobs → r.Reports tree (jobs.flatMap Job.reference) kind
                                                                               (jobOf_reports)
-/

namespace SourceAudit

/-! ## The rule -/

/-- What a check reports that looks for its targets: a warning for each missing root, and then a
finding for each target, or one that says there are none. -/
def Discovery.findings (found : Discovery) (kind : CheckKind) (roots : List Text)
    (inspect : Target → Outcome) : List Finding :=
  found.missingRoots.map (fun root => ⟨kind, root,
      .warn ("root directory '" ++ root ++ "' does not exist")
        (kind.title ++ " found nothing to check here")⟩) ++
    if found.targets = [] then [⟨kind, List.intercalate ", " roots, .skip "no matching files"⟩]
    else found.targets.map fun t => ⟨kind, t.display, inspect t⟩

/-- What a run for one kind reports. -/
def RunRequest.Reports (r : RunRequest) (tree : FileTree) (findings : List Finding) :
    CheckKind → Prop
  | .copyright => ∃ template found, r.settings.copyright.template? = .ok template ∧
      discover tree r.base r.settings.copyright.extensions r.settings.copyright.roots = .ok found ∧
      findings =
        found.findings .copyright r.settings.copyright.roots (template.inspect tree)
  | .guards => ∃ found,
      discover tree r.base r.settings.guards.extensions r.settings.guards.roots = .ok found ∧
      findings =
        found.findings .guards r.settings.guards.roots (inspectGuard r.settings.guards.lead tree)
  | .coverage => findings = r.coverageReport.toList.map fun report =>
      ⟨.coverage, Utf8.lossy report, inspectCoverage r.settings.coverage.rows
        r.settings.coverage.thresholds tree (Target.named report)⟩

/-! ## The job of a kind -/

section Jobs

variable {tree : FileTree} {base : Path} {kind : CheckKind} {part : RootSection}
  {roots extensions : List Text} {inspect : Target → Outcome} {found : Discovery}

theorem Discovery.reference_job (found : Discovery) (kind : CheckKind) (roots : List Text)
    (inspect : Target → Outcome) :
    (found.job kind roots inspect).reference = found.findings kind roots inspect := by
  unfold Job.reference Discovery.findings Job.warningFindings Discovery.job
  congr 1
  · simp [missingRootWarning]
  · by_cases h : found.targets = []
    · simp [h, Job.emptyFinding]
    · simp [h, Job.findingOf, Job.finding?]

theorem Discovery.outlived_job (found : Discovery) (kind : CheckKind) (roots : List Text)
    (inspect : Target → Outcome) : (found.job kind roots inspect).Outlived := by
  intro task ht
  obtain ⟨t, -, rfl⟩ := List.mem_map.1 ht
  exact nofun

theorem Discovery.mem_findings {t : Target} (h : t ∈ found.targets) :
    ⟨kind, t.display, inspect t⟩ ∈ found.findings kind roots inspect := by
  apply List.mem_append_right
  rw [if_neg (List.ne_nil_of_mem h)]
  exact List.mem_map_of_mem h

/-- Only what the check says of a target can be a failure. -/
theorem Discovery.findings_pass (h : ∀ t ∈ found.targets, (inspect t).isFailure = false) :
    ∀ finding ∈ found.findings kind roots inspect, finding.outcome.isFailure = false := by
  intro finding hf
  rcases List.mem_append.1 hf with hf | hf
  · obtain ⟨root, -, rfl⟩ := List.mem_map.1 hf
    rfl
  · split at hf
    · obtain rfl := List.mem_singleton.1 hf
      rfl
    · obtain ⟨t, ht, rfl⟩ := List.mem_map.1 hf
      exact h t ht

theorem Discovery.unstopped_job (h : ∀ t ∈ found.targets, (inspect t).isFailure = false)
    (failFast : Bool) : (found.job kind roots inspect).Unstopped failFast := by
  refine Or.inr ((found.outlived_job kind roots inspect).reference_passes_iff.1 ?_)
  rw [Discovery.reference_job]
  exact Discovery.findings_pass h

end Jobs

section Plan

variable {tree : FileTree} {r : RunRequest} {kind : CheckKind} {jobs : List Job}

/-- A search that comes to its end makes one job. -/
theorem exists_found_of_job {base : Path} {roots extensions : List Text}
    {inspect : Target → Outcome}
    (h : (fun found : Discovery => [found.job kind roots inspect]) <$>
      discover tree base extensions roots = .ok jobs) :
    ∃ found, discover tree base extensions roots = .ok found ∧
      (∀ job ∈ jobs, job.kind = kind ∧ job.Outlived) ∧
      jobs.flatMap Job.reference = found.findings kind roots inspect := by
  cases hfound : discover tree base extensions roots with
  | error e =>
    rw [hfound] at h
    cases h
  | ok found =>
    rw [hfound] at h
    injection h with h
    subst h
    refine ⟨found, rfl, ?_, ?_⟩
    · intro job hj
      obtain rfl := List.mem_singleton.1 hj
      exact ⟨rfl, Discovery.outlived_job _ _ _ _⟩
    · rw [List.flatMap_singleton, Discovery.reference_job]

/-- The jobs of a kind are of that kind, take no thread with them, and report what the rule says. -/
theorem RunRequest.jobOf_reports (h : r.jobOf tree kind = .ok jobs) :
    (∀ job ∈ jobs, job.kind = kind ∧ job.Outlived) ∧
      r.Reports tree (jobs.flatMap Job.reference) kind := by
  cases kind with
  | copyright =>
    rw [RunRequest.jobOf_copyright] at h
    split at h
    · cases h
    · split at h
      · cases h
      · next template htemplate =>
        obtain ⟨found, hfound, hjobs, hreference⟩ := exists_found_of_job h
        exact ⟨hjobs, template, found, htemplate, hfound, hreference⟩
  | guards =>
    rw [RunRequest.jobOf_guards] at h
    split at h
    · cases h
    · obtain ⟨found, hfound, hjobs, hreference⟩ := exists_found_of_job h
      exact ⟨hjobs, found, hfound, hreference⟩
  | coverage =>
    injection h with h
    subst h
    constructor
    · intro job hj
      obtain ⟨report, -, rfl⟩ := List.mem_map.1 hj
      refine ⟨rfl, ?_⟩
      intro task ht
      obtain rfl := List.mem_singleton.1 ht
      exact nofun
    · show (r.coverageReport.toList.map _).flatMap Job.reference = _
      rw [List.flatMap_map]
      exact List.flatMap_pure_eq_map _ _

/-! ## The plan -/

theorem RunRequest.exists_plan_eq_ok_iff :
    (∃ jobs, r.plan tree = .ok jobs) ↔ ∀ kind ∈ r.kinds, ∃ jobs, r.jobOf tree kind = .ok jobs := by
  have hplan : (∃ jobs, r.plan tree = .ok jobs) ↔
      ∃ pieces, r.inOrder.mapM (r.jobOf tree) = .ok pieces := by
    constructor
    · rintro ⟨jobs, h⟩
      obtain ⟨pieces, hpieces, -⟩ := RunRequest.plan_eq_ok h
      exact ⟨pieces, hpieces⟩
    · rintro ⟨pieces, h⟩
      refine ⟨pieces.flatten, ?_⟩
      rw [RunRequest.plan, ← RunRequest.inOrder, h]
      rfl
  rw [hplan, exists_mapM_eq_ok_iff]
  exact forall_congr' fun kind => imp_congr_left RunRequest.mem_inOrder

/-- Planned jobs are of requested kinds and take no thread with them. -/
theorem RunRequest.plan_kinds (h : r.plan tree = .ok jobs) :
    (jobs.filter fun job => r.kinds.contains job.kind) = jobs ∧ ∀ job ∈ jobs, job.Outlived := by
  obtain ⟨pieces, hpieces, rfl⟩ := RunRequest.plan_eq_ok h
  have hall : ∀ job ∈ pieces.flatten, job.kind ∈ r.kinds ∧ job.Outlived := by
    intro job hj
    obtain ⟨piece, hpiece, hj⟩ := List.mem_flatten.1 hj
    obtain ⟨kind, hkind, hjobs⟩ := exists_of_mem_mapM hpieces hpiece
    obtain ⟨hk, ho⟩ := (RunRequest.jobOf_reports hjobs).1 job hj
    rw [hk]
    exact ⟨RunRequest.mem_inOrder.1 hkind, ho⟩
  constructor
  · apply List.filter_eq_self.2
    intro job hj
    exact List.contains_iff_mem.2 (hall job hj).1
  · intro job hj
    exact (hall job hj).2

end Plan

/-! ## The run of a plan -/

section Run

variable {tree : FileTree} {r : RunRequest} {jobs : List Job} {report : Report}

theorem RunRequest.run_eq_of_plan (h : r.plan tree = .ok jobs) :
    r.run tree = .ok ((runJobs r.options jobs).report r.base) := by
  rw [RunRequest.run, h]
  show Except.ok ((runJobs r.options (jobs.filter _)).report r.base) = _
  rw [(RunRequest.plan_kinds h).1]

theorem RunRequest.run_eq_error_iff {e : LintError} :
    r.run tree = .error e ↔ r.plan tree = .error e := by
  cases h : r.plan tree with
  | ok jobs =>
    rw [RunRequest.run_eq_of_plan h]
    exact iff_of_false nofun nofun
  | error d =>
    rw [RunRequest.run, h]
    show (Except.error d : Except LintError Report) = .error e ↔ _
    rw [Except.error.injEq, Except.error.injEq]

theorem RunRequest.exists_run_eq_ok_iff :
    (∃ report, r.run tree = .ok report) ↔ ∃ jobs, r.plan tree = .ok jobs := by
  constructor
  · rintro ⟨report, h⟩
    cases hp : r.plan tree with
    | ok jobs => exact ⟨jobs, rfl⟩
    | error e =>
      rw [RunRequest.run_eq_error_iff.2 hp] at h
      cases h
  · rintro ⟨jobs, h⟩
    exact ⟨_, RunRequest.run_eq_of_plan h⟩

theorem RunRequest.yields_iff_of_plan (h : r.plan tree = .ok jobs) :
    r.Yields tree report ↔ ∃ log, Runs r.options jobs log ∧ report = log.report r.base := by
  have hself := (RunRequest.plan_kinds h).1
  constructor
  · rintro ⟨planned, log, hplanned, hruns, rfl⟩
    rw [h] at hplanned
    injection hplanned with hplanned
    subst hplanned
    rw [hself] at hruns
    exact ⟨log, hruns, rfl⟩
  · rintro ⟨log, hruns, rfl⟩
    refine ⟨jobs, log, h, ?_, rfl⟩
    rwa [hself]

/-- A run that no failure stops reports the references of its jobs, whatever turns workers take. -/
theorem RunRequest.run_eq_of_unstopped (h : r.plan tree = .ok jobs)
    (hu : ∀ job ∈ jobs, job.Unstopped r.failFast) :
    r.run tree = .ok ⟨Utf8.lossy r.base, jobs.flatMap Job.reference, 0⟩ ∧
      ∀ report,
        r.Yields tree report ↔ report = ⟨Utf8.lossy r.base, jobs.flatMap Job.reference, 0⟩ := by
  have ha := (RunRequest.plan_kinds h).2
  have hfull : ∀ log, Runs r.options jobs log ↔ log = fullLog jobs := by
    intro log
    exact runs_iff_eq_fullLog ha hu
  constructor
  · rw [RunRequest.run_eq_of_plan h, (hfull _).1 (runs_runJobs r.options jobs)]
    rfl
  · intro report
    rw [RunRequest.yields_iff_of_plan h]
    constructor
    · rintro ⟨log, hlog, rfl⟩
      rw [(hfull log).1 hlog]
      rfl
    · rintro rfl
      exact ⟨fullLog jobs, (hfull _).2 rfl, rfl⟩

end Run

end SourceAudit
