import SourceAudit.Proofs.Run.Planned

/-!
# Kinds do not touch each other

Each kind of check makes its own job from its own section of the settings. So a run for some kinds
is put together from the runs for each of them, in the order of the report; the first kind that
cannot run gives the error; and what is asked for twice, in another order, or in the settings of
kinds that nobody asked for makes no difference.

    r.run tree = .ok report ↔ the runs for each kind succeed, and report has their findings in order
    r.run tree = .error e ↔ `e` is the error of the first kind whose run fails
                                                                          (run_eq_runs_of_kinds)
-/

namespace SourceAudit

/-! ## The rule -/

/-- The request for one kind. -/
def RunRequest.only (r : RunRequest) (kind : CheckKind) : RunRequest := { r with kinds := [kind] }

/-- Two requests come to the same, be it a report or an error, and under every order of the turns of
their workers. -/
def RunRequest.SameOutcome (r s : RunRequest) (tree : FileTree) : Prop :=
  r.run tree = s.run tree ∧ ∀ report, r.Yields tree report ↔ s.Yields tree report

/-- Two settings have the same section for a kind. -/
def Settings.AgreeOn (s t : Settings) : CheckKind → Prop
  | .copyright => s.copyright = t.copyright
  | .guards => s.guards = t.guards
  | .coverage => s.coverage = t.coverage

/-! ## Requests that come to the same -/

section Same

variable {tree : FileTree} {r s : RunRequest}

theorem RunRequest.plan_only (r : RunRequest) (tree : FileTree) (kind : CheckKind) :
    (r.only kind).plan tree = r.jobOf tree kind := by
  have horder : CheckKind.all.filter ([kind].contains ·) = [kind] := by cases kind <;> decide
  show List.flatten <$> (CheckKind.all.filter ([kind].contains ·)).mapM (r.jobOf tree) = _
  rw [horder, List.mapM_cons, List.mapM_nil]
  cases r.jobOf tree kind with
  | error e => rfl
  | ok jobs =>
    show Except.ok [jobs].flatten = _
    rw [List.flatten_singleton]

/-- Only the jobs of the requested kinds matter, and which kinds these are. -/
theorem RunRequest.sameOutcome (hbase : s.base = r.base) (hoptions : s.options = r.options)
    (hkinds : ∀ kind, kind ∈ s.kinds ↔ kind ∈ r.kinds)
    (hjobs : ∀ kind ∈ r.kinds, s.jobOf tree kind = r.jobOf tree kind) :
    s.SameOutcome r tree := by
  have hcontains : (s.kinds.contains ·) = (r.kinds.contains ·) := by
    funext kind
    rw [Bool.eq_iff_iff, List.contains_iff_mem, List.contains_iff_mem, hkinds]
  have hplan : s.plan tree = r.plan tree := by
    rw [RunRequest.plan, RunRequest.plan, hcontains]
    congr 1
    apply mapM_congr_of_mem
    intro kind hkind
    exact hjobs kind (mem_filter_all.1 hkind)
  have hselect : (fun job : Job => s.kinds.contains job.kind) =
      fun job => r.kinds.contains job.kind := by
    funext job
    exact congrFun hcontains job.kind
  constructor
  · rw [RunRequest.run, RunRequest.run, hplan, hoptions, hbase]
    congr 1
    funext jobs
    rw [runKinds, runKinds, hselect]
  · intro report
    rw [RunRequest.Yields, RunRequest.Yields, hplan, hoptions, hbase, hselect]

theorem RunRequest.jobOf_congr {kind : CheckKind} {t : Settings}
    (h : r.settings.AgreeOn t kind) :
    ({ r with settings := t } : RunRequest).jobOf tree kind = r.jobOf tree kind := by
  cases kind with
  | copyright => simp only [RunRequest.jobOf, ← show r.settings.copyright = t.copyright from h]
  | guards => simp only [RunRequest.jobOf, ← show r.settings.guards = t.guards from h]
  | coverage => simp only [RunRequest.jobOf, ← show r.settings.coverage = t.coverage from h]

end Same

/-! ## Parts of a report -/

/-- What a kind reports, if its jobs can be made. -/
def RunRequest.partOf (r : RunRequest) (tree : FileTree) (kind : CheckKind) : List Finding :=
  match r.jobOf tree kind with
  | .ok piece => piece.flatMap Job.reference
  | .error _ => []

theorem RunRequest.partOf_eq {tree : FileTree} {r : RunRequest} {kind : CheckKind}
    {piece : List Job} (h : r.jobOf tree kind = .ok piece) :
    r.partOf tree kind = piece.flatMap Job.reference := by
  rw [RunRequest.partOf, h]

/-- A plan reports the parts of its kinds, one after the other. -/
theorem RunRequest.reference_eq_parts {tree : FileTree} {r : RunRequest} {jobs : List Job}
    (h : r.plan tree = .ok jobs) :
    jobs.flatMap Job.reference = r.inOrder.flatMap (r.partOf tree) := by
  obtain ⟨pieces, hpieces, rfl⟩ := RunRequest.plan_eq_ok h
  have hall := mapM_eq_ok_iff.1 hpieces
  clear hpieces h
  generalize r.inOrder = kinds at hall ⊢
  induction hall with
  | nil => rfl
  | @cons kind piece kinds pieces hkind _ ih =>
    rw [List.flatten_cons, List.flatMap_append, List.flatMap_cons, RunRequest.partOf_eq hkind, ih]

/-! ## Top theorem -/

/-- Order and repetition of the requested kinds make no difference, and neither do the settings of
other kinds. A run that does not stop at failures is the runs for each of its kinds put together,
each with its own warnings and findings, and it fails as the first of them that fails. -/
theorem run_eq_runs_of_kinds (tree : FileTree) (r : RunRequest) :
    (∀ kinds, (∀ kind, kind ∈ kinds ↔ kind ∈ r.kinds) →
      RunRequest.SameOutcome { r with kinds := kinds } r tree) ∧
    (r.failFast = false →
      ((∃ report, r.run tree = .ok report) ↔
        ∀ kind ∈ r.kinds, ∃ report, (r.only kind).run tree = .ok report) ∧
      (∀ report, r.run tree = .ok report →
        (∀ other, r.Yields tree other ↔ other = report) ∧
        ∃ parts : CheckKind → List Finding,
          report = ⟨Utf8.lossy r.base, r.inOrder.flatMap parts, 0⟩ ∧
          ∀ kind ∈ r.kinds, (r.only kind).run tree = .ok ⟨Utf8.lossy r.base, parts kind, 0⟩ ∧
            r.Reports tree (parts kind) kind) ∧
      ∀ e, r.run tree = .error e ↔ ∃ front kind rest, r.inOrder = front ++ kind :: rest ∧
        (∀ k ∈ front, ∃ report, (r.only k).run tree = .ok report) ∧
        (r.only kind).run tree = .error e) ∧
    (∀ settings, (∀ kind ∈ r.kinds, r.settings.AgreeOn settings kind) →
      RunRequest.SameOutcome { r with settings := settings } r tree) := by
  have hone : ∀ kind, (∃ report, (r.only kind).run tree = .ok report) ↔
      ∃ jobs, r.jobOf tree kind = .ok jobs := by
    intro kind
    rw [RunRequest.exists_run_eq_ok_iff, RunRequest.plan_only]
  refine ⟨?_, ?_, ?_⟩
  · intro kinds hkinds
    exact RunRequest.sameOutcome rfl rfl hkinds fun _ _ => rfl
  · intro hff
    have hu : ∀ job : Job, job.Unstopped r.failFast := fun _ => Or.inl hff
    refine ⟨?_, ?_, ?_⟩
    · rw [RunRequest.exists_run_eq_ok_iff, RunRequest.exists_plan_eq_ok_iff]
      exact forall₂_congr fun kind _ => (hone kind).symm
    · intro report h
      obtain ⟨jobs, hplan⟩ := RunRequest.exists_run_eq_ok_iff.1 ⟨report, h⟩
      obtain ⟨hrun, hyields⟩ := RunRequest.run_eq_of_unstopped hplan fun job _ => hu job
      rw [hrun] at h
      injection h with h
      subst h
      refine ⟨hyields, r.partOf tree, by rw [RunRequest.reference_eq_parts hplan], ?_⟩
      intro kind hkind
      obtain ⟨piece, hpiece⟩ := RunRequest.exists_plan_eq_ok_iff.1 ⟨jobs, hplan⟩ kind hkind
      have honly : (r.only kind).plan tree = .ok piece := by rw [RunRequest.plan_only, hpiece]
      rw [RunRequest.partOf_eq hpiece]
      exact ⟨(RunRequest.run_eq_of_unstopped honly fun job _ => hu job).1,
        (RunRequest.jobOf_reports hpiece).2⟩
    · intro e
      rw [RunRequest.run_eq_error_iff, RunRequest.plan_eq_error_iff]
      simp only [hone, RunRequest.run_eq_error_iff, RunRequest.plan_only]
  · intro settings hagree
    refine RunRequest.sameOutcome rfl rfl (fun _ => Iff.rfl) ?_
    intro kind hkind
    exact RunRequest.jobOf_congr (hagree kind hkind)

/-- Both kinds, and no stopping at failures. -/
def patientRequest : RunRequest :=
  { tidyRequest with kinds := [.guards, .copyright], failFast := false }

/-- Settings whose header section no run could use. -/
def headlessSettings : Settings :=
  { tidyRequest.settings with copyright := ⟨[], [], [], 0, [], false⟩ }

/-- Both kinds run, as each of them does alone. Asked for twice they come to the same, and the
guards do not mind a header section that cannot be used, while the run for both fails for it. -/
theorem run_eq_runs_of_kinds_tidy :
    (patientRequest.failFast = false ∧
      (∀ kind, kind ∈ [CheckKind.copyright, .guards, .copyright] ↔ kind ∈ patientRequest.kinds) ∧
      ∀ kind ∈ (patientRequest.only .guards).kinds,
        (patientRequest.only .guards).settings.AgreeOn headlessSettings kind) ∧
    RunRequest.SameOutcome { patientRequest with kinds := [.copyright, .guards, .copyright] }
      patientRequest tidyTree ∧
    (∃ report, patientRequest.run tidyTree = .ok report ∧ report.findings.length = 2) ∧
    (∀ kind ∈ patientRequest.kinds, ∃ report,
      (patientRequest.only kind).run tidyTree = .ok report) ∧
    RunRequest.SameOutcome { patientRequest.only .guards with settings := headlessSettings }
      (patientRequest.only .guards) tidyTree ∧
    RunRequest.run { patientRequest with settings := headlessSettings } tidyTree =
      .error (.settings (.noRoots .copyright)) := by
  have hkinds : ∀ kind, kind ∈ [CheckKind.copyright, .guards, .copyright] ↔
      kind ∈ patientRequest.kinds := by
    intro kind
    cases kind <;> decide
  have hagree : ∀ kind ∈ (patientRequest.only .guards).kinds,
      (patientRequest.only .guards).settings.AgreeOn headlessSettings kind := by
    intro kind hkind
    obtain rfl := List.mem_singleton.1 hkind
    rfl
  obtain ⟨hsame, hparts, -⟩ := run_eq_runs_of_kinds tidyTree patientRequest
  obtain ⟨hsucceeds, -, -⟩ := hparts rfl
  obtain ⟨-, -, hsettings⟩ := run_eq_runs_of_kinds tidyTree (patientRequest.only .guards)
  have hlength : (patientRequest.run tidyTree).toOption.map (·.findings.length) = some 2 := by
    decide +kernel
  obtain ⟨report, hok, hfindings⟩ := exists_ok_of_toOption_map hlength
  exact ⟨⟨rfl, hkinds, hagree⟩, hsame _ hkinds, ⟨report, hok, hfindings⟩, hsucceeds.1 ⟨report, hok⟩,
    hsettings _ hagree, rfl⟩

end SourceAudit
