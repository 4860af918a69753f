import SourceAudit.CommandLine.Program
import SourceAudit.Proofs.Check.Standard
import SourceAudit.Proofs.Run.Planned

/-!
# How a requested run can fail

Arguments become a request only together with settings that pass validation. Of all the errors of a
run this leaves two: a section that is needed names no root, or a folder below a root cannot be
listed. Whether there is such a section does not depend on the tree, so nothing in a tree but a
folder that cannot be listed keeps a run from its report.

    a.request cores settings = .ok r → (∀ root ∈ r.searched, Passable tree r.base root) →
      (r.run tree = .error e ↔ e = .settings (.noRoots part) for the first of r.emptySections)
                                                                    (run_of_request_fails_iff)
-/

namespace SourceAudit

/-! ## The rule -/

/-- The section that a kind needs, if it names no root. -/
def Settings.emptySection? (s : Settings) : CheckKind → Option RootSection
  | .copyright => if s.copyright.roots = [] then some .copyright else none
  | .guards => if s.guards.roots = [] then some .guards else none
  | .coverage => none

/-- The sections without roots that the requested kinds need, in the order of the report. -/
def RunRequest.emptySections (r : RunRequest) : List RootSection :=
  r.inOrder.filterMap r.settings.emptySection?

/-! ## Requests that can run -/

section Run

variable {tree : FileTree} {r : RunRequest} {kind : CheckKind} {part : RootSection} {e : LintError}

theorem RunRequest.emptySection?_eq_none_iff :
    r.settings.emptySection? kind = none ↔ (kind ≠ .coverage → r.rootsOf kind ≠ []) := by
  cases kind <;> simp [Settings.emptySection?, RunRequest.rootsOf]

theorem RunRequest.jobOf_of_emptySection? (h : r.settings.emptySection? kind = some part)
    (tree : FileTree) : r.jobOf tree kind = .error (.settings (.noRoots part)) := by
  cases kind with
  | copyright =>
    obtain ⟨hroots, rfl⟩ : r.settings.copyright.roots = [] ∧ .copyright = part := by
      simpa [Settings.emptySection?] using h
    rw [RunRequest.jobOf_copyright, if_pos hroots]
  | guards =>
    obtain ⟨hroots, rfl⟩ : r.settings.guards.roots = [] ∧ .guards = part := by
      simpa [Settings.emptySection?] using h
    rw [RunRequest.jobOf_guards, if_pos hroots]
  | coverage => cases h

/-- With usable settings a kind has its jobs, or its section names no root, or a folder below its
roots cannot be listed. -/
theorem RunRequest.jobOf_cases (hu : r.settings.Usable) (tree : FileTree) (kind : CheckKind) :
    ((∃ jobs, r.jobOf tree kind = .ok jobs) ∧ r.settings.emptySection? kind = none ∧
      ∀ root ∈ r.rootsOf kind, Passable tree r.base root) ∨
    (∃ part, r.settings.emptySection? kind = some part ∧
      r.jobOf tree kind = .error (.settings (.noRoots part))) ∨
    ∃ root ∈ r.rootsOf kind, ∃ place cause, Barrier tree r.base root place cause ∧
      r.jobOf tree kind = .error (.walk (Path.descend (rootPath r.base root) place) cause) := by
  by_cases hcoverage : kind = .coverage
  · subst hcoverage
    exact Or.inl ⟨⟨_, rfl⟩, rfl, nofun⟩
  obtain ⟨template, htemplate⟩ := hu.template
  cases hsection : r.settings.emptySection? kind with
  | some part => exact Or.inr (Or.inl ⟨part, rfl, RunRequest.jobOf_of_emptySection? hsection tree⟩)
  | none =>
    have hne := RunRequest.emptySection?_eq_none_iff.1 hsection hcoverage
    cases hjobs : r.jobOf tree kind with
    | ok jobs =>
      exact Or.inl ⟨⟨jobs, rfl⟩, rfl, passable_of_jobOf htemplate hcoverage hne hjobs⟩
    | error e =>
      obtain ⟨root, place, cause, ⟨front, back, hroots, -, hbarrier, -⟩, rfl⟩ :=
        exists_firstBarrier_of_jobOf htemplate hcoverage hne hjobs
      refine Or.inr (Or.inr ⟨root, ?_, place, cause, hbarrier, rfl⟩)
      rw [hroots]
      exact List.mem_append_right _ List.mem_cons_self

theorem RunRequest.exists_jobOf_eq_ok_iff (hu : r.settings.Usable) :
    (∃ jobs, r.jobOf tree kind = .ok jobs) ↔ r.settings.emptySection? kind = none ∧
      ∀ root ∈ r.rootsOf kind, Passable tree r.base root := by
  rcases RunRequest.jobOf_cases hu tree kind with
    ⟨hjobs, hrest⟩ | ⟨part, hsection, hjobs⟩ | ⟨root, hroot, place, cause, hbarrier, hjobs⟩
  · exact iff_of_true hjobs hrest
  · rw [hjobs, hsection]
    exact iff_of_false nofun fun h => nomatch h.1
  · rw [hjobs]
    exact iff_of_false nofun fun h => h.2 root hroot place cause hbarrier

theorem RunRequest.emptySections_eq_nil_iff :
    r.emptySections = [] ↔ (.copyright ∈ r.kinds → r.settings.copyright.roots ≠ []) ∧
      (.guards ∈ r.kinds → r.settings.guards.roots ≠ []) := by
  rw [RunRequest.emptySections, List.filterMap_eq_nil_iff]
  simp only [RunRequest.mem_inOrder, RunRequest.emptySection?_eq_none_iff]
  constructor
  · intro h
    exact ⟨fun hkind => h _ hkind nofun, fun hkind => h _ hkind nofun⟩
  · rintro ⟨hcopyright, hguards⟩ kind hkind hcoverage
    cases kind with
    | copyright => exact hcopyright hkind
    | guards => exact hguards hkind
    | coverage => exact absurd rfl hcoverage

/-- The first of the sections without roots is that of the first kind that has one. -/
theorem RunRequest.head?_emptySections_iff :
    r.emptySections.head? = some part ↔ ∃ front kind rest, r.inOrder = front ++ kind :: rest ∧
      r.settings.emptySection? kind = some part ∧
      ∀ k ∈ front, r.settings.emptySection? k = none := by
  rw [RunRequest.emptySections, List.head?_filterMap, List.findSome?_eq_some_iff]

/-- A run with usable settings fails for the first section without roots, or for a folder that
cannot be listed. -/
theorem RunRequest.run_error_cases (hu : r.settings.Usable) (h : r.run tree = .error e) :
    (∃ part, r.emptySections.head? = some part ∧ e = .settings (.noRoots part)) ∨
    ∃ root ∈ r.searched, ∃ place cause, Barrier tree r.base root place cause ∧
      e = .walk (Path.descend (rootPath r.base root) place) cause := by
  obtain ⟨front, kind, rest, horder, hfront, herror⟩ :=
    RunRequest.plan_eq_error_iff.1 (RunRequest.run_eq_error_iff.1 h)
  rcases RunRequest.jobOf_cases hu tree kind with
    ⟨⟨jobs, hjobs⟩, -⟩ | ⟨part, hsection, hjobs⟩ | ⟨root, hroot, place, cause, hbarrier, hjobs⟩
  · rw [hjobs] at herror
    cases herror
  · rw [hjobs] at herror
    injection herror with herror
    refine Or.inl ⟨part, RunRequest.head?_emptySections_iff.2
      ⟨front, kind, rest, horder, hsection, fun k hk => ?_⟩, herror.symm⟩
    exact ((RunRequest.exists_jobOf_eq_ok_iff hu).1 (hfront k hk)).1
  · rw [hjobs] at herror
    injection herror with herror
    have hkind : kind ∈ r.inOrder := by
      rw [horder]
      exact List.mem_append_right _ List.mem_cons_self
    exact Or.inr ⟨root, List.mem_flatMap.2 ⟨kind, hkind, hroot⟩, place, cause, hbarrier,
      herror.symm⟩

theorem RunRequest.exists_run_eq_ok_iff_of_usable (hu : r.settings.Usable) :
    (∃ report, r.run tree = .ok report) ↔
      r.emptySections = [] ∧ ∀ root ∈ r.searched, Passable tree r.base root := by
  rw [RunRequest.exists_run_eq_ok_iff, RunRequest.exists_plan_eq_ok_iff, RunRequest.emptySections,
    List.filterMap_eq_nil_iff]
  simp only [RunRequest.exists_jobOf_eq_ok_iff hu, RunRequest.mem_inOrder, RunRequest.mem_searched]
  constructor
  · intro h
    exact ⟨fun kind hkind => (h kind hkind).1,
      fun root ⟨kind, hkind, hroot⟩ => (h kind hkind).2 root hroot⟩
  · rintro ⟨hsections, hpassable⟩ kind hkind
    exact ⟨hsections kind hkind, fun root hroot => hpassable root ⟨kind, hkind, hroot⟩⟩

theorem RunRequest.run_eq_error_iff_of_passable (hu : r.settings.Usable)
    (hpassable : ∀ root ∈ r.searched, Passable tree r.base root) :
    r.run tree = .error e ↔
      ∃ part, r.emptySections.head? = some part ∧ e = .settings (.noRoots part) := by
  have hfirst : ∀ {e}, r.run tree = .error e →
      ∃ part, r.emptySections.head? = some part ∧ e = .settings (.noRoots part) := by
    intro e h
    rcases RunRequest.run_error_cases hu h with hsection | ⟨root, hroot, place, cause, hbarrier, -⟩
    · exact hsection
    · exact absurd hbarrier (hpassable root hroot place cause)
  refine ⟨hfirst, ?_⟩
  rintro ⟨part, hpart, rfl⟩
  cases hrun : r.run tree with
  | ok report =>
    rw [((RunRequest.exists_run_eq_ok_iff_of_usable hu).1 ⟨report, hrun⟩).1] at hpart
    cases hpart
  | error d =>
    obtain ⟨other, hother, rfl⟩ := hfirst hrun
    rw [hother] at hpart
    injection hpart with hpart
    rw [hpart]

end Run

/-! ## Requests of a command line -/

section Program

variable {a : Arguments} {cores : Option Nat} {settings : Settings} {r : RunRequest}
  {s : Surroundings}

theorem Arguments.usable_of_request (h : a.request cores settings = .ok r) : r.settings.Usable := by
  obtain ⟨hvalid, rfl⟩ := Arguments.request_eq_ok_iff.1 h
  exact Settings.validate_eq_ok_iff.1 hvalid

theorem Program.answer_eq_check (h : Arguments.ofTexts s.configVariable s.arguments = .ok a)
    (hlist : a.action ≠ .list) (hversion : a.action ≠ .version) :
    Program.answer s = Program.check s a := by
  unfold Program.answer
  rw [h]
  dsimp only
  split
  · next haction => exact absurd haction hversion
  · next haction => exact absurd haction hlist
  · rfl

/-- Once there is a request, its run decides on the answer. -/
theorem Program.check_of_request
    (hload : s.load a = .ok settings) (h : a.request s.cores settings = .ok r) :
    (∀ e, r.run s.tree = .error e →
      Program.check s a = Program.failWith ("Error running checks: " ++ e.message)) ∧
    ∀ report, r.run s.tree = .ok report →
      Program.check s a = .report report a.format (Program.style s a) := by
  have hrequest : (s.load a >>= a.request s.cores) = .ok r := by
    rw [hload]
    exact h
  unfold Program.check
  constructor
  · intro e hrun
    simp only [hrequest, hrun]
  · intro report hrun
    simp only [hrequest, hrun]

end Program

/-! ## Top theorem -/

/-- A run that is requested with the arguments and some settings has a report, under every order of
the turns of its workers, unless a section that it needs names no root, or a folder below its roots
cannot be listed. Where every folder can be listed, the first such section is the error. The program
ends with exit code two only with a message for one of these, and otherwise its exit code is that of
the report: it tells whether there is a failure, as long as failures can be counted. -/
theorem run_of_request_fails_iff (a : Arguments) (cores : Option Nat) (settings : Settings)
    (r : RunRequest) (h : a.request cores settings = .ok r) :
    (∀ tree, (∃ report, r.run tree = .ok report) ↔
      ((.copyright ∈ r.kinds → r.settings.copyright.roots ≠ []) ∧
        (.guards ∈ r.kinds → r.settings.guards.roots ≠ [])) ∧
      ∀ root ∈ r.searched, Passable tree r.base root) ∧
    (∀ tree, (∃ report, r.Yields tree report) ↔ ∃ report, r.run tree = .ok report) ∧
    (∀ tree e, r.run tree = .error e →
      (∃ part, r.emptySections.head? = some part ∧ e = .settings (.noRoots part)) ∨
      ∃ root ∈ r.searched, ∃ place cause, Barrier tree r.base root place cause ∧
        e = .walk (Path.descend (rootPath r.base root) place) cause) ∧
    (∀ tree, (∀ root ∈ r.searched, Passable tree r.base root) → ∀ e, r.run tree = .error e ↔
      ∃ part, r.emptySections.head? = some part ∧ e = .settings (.noRoots part)) ∧
    ∀ s : Surroundings, s.cores = cores →
      Arguments.ofTexts s.configVariable s.arguments = .ok a →
      a.action ≠ .list → a.action ≠ .version → s.load a = .ok settings →
      (∀ e, r.run s.tree = .error e →
        Program.answer s = Program.failWith ("Error running checks: " ++ e.message)) ∧
      (∀ part, r.run s.tree = .error (.settings (.noRoots part)) →
        Program.answer s = Program.failWith ("Error running checks: " ++
          ("invalid configuration: " ++ part.name ++ ".roots must not be empty"))) ∧
      ∀ report, r.run s.tree = .ok report → ∀ timestamp elapsed,
        ((Program.answer s).output timestamp elapsed).exitCode = report.summary.exitCode ∧
        report.summary.exitCode ≠ 2 ∧
        (report.failures < UInt32.size →
          report.summary.exitCode =
            if report.findings.any (·.outcome.isFailure) then 1 else 0) := by
  have hu := Arguments.usable_of_request h
  refine ⟨?_, ?_, ?_, ?_, ?_⟩
  · intro tree
    rw [RunRequest.exists_run_eq_ok_iff_of_usable hu, RunRequest.emptySections_eq_nil_iff]
  · intro tree
    rw [RunRequest.exists_run_eq_ok_iff]
    constructor
    · rintro ⟨report, jobs, log, hplan, -⟩
      exact ⟨jobs, hplan⟩
    · rintro ⟨jobs, hplan⟩
      exact ⟨_, (RunRequest.yields_iff_of_plan hplan).2 ⟨_, runs_runJobs r.options jobs, rfl⟩⟩
  · intro tree e hrun
    exact RunRequest.run_error_cases hu hrun
  · intro tree hpassable e
    exact RunRequest.run_eq_error_iff_of_passable hu hpassable
  · rintro s rfl hparsed hlist hversion hload
    obtain ⟨herror, hreport⟩ := Program.check_of_request hload h
    rw [Program.answer_eq_check hparsed hlist hversion]
    refine ⟨herror, fun part hrun => herror _ hrun, ?_⟩
    intro report hrun timestamp elapsed
    rw [hreport report hrun]
    refine ⟨rfl, ?_, ?_⟩
    · unfold Summary.exitCode
      split <;> decide
    · intro hcounted
      rw [Report.exitCode_summary hcounted, Report.passed]
      cases report.findings.any (·.outcome.isFailure) <;> rfl

/-- The arguments of `guards`. -/
def guardsArguments : Arguments where
  command := some .guards
  directory := "."
  config := none
  format := .text
  quiet := false
  verbose := false
  noColor := false
  parallel := false
  jobs := none
  failFast := false
  mode := none
  lineThreshold := none
  functionThreshold := none

/-- What they ask for with some settings, on a machine with two cores. -/
def guardsRequest (settings : Settings) : RunRequest where
  settings := settings
  base := "."
  kinds := [.guards]
  coverageReport := none
  parallel := false
  failFast := false
  jobs := 2

theorem request_guardsArguments {settings : Settings} (h : settings.validate = .ok ()) :
    guardsArguments.request (some 2) settings = .ok (guardsRequest settings) := by
  have hoverride : guardsArguments.override settings = settings := rfl
  rw [Arguments.request, hoverride, h]
  rfl

/-- Usable settings that name no root for guards. -/
def rootlessSettings : Settings := { Settings.default with guards := ⟨[], ["h"], "_"⟩ }

/-- Guards are asked for where there is no file at all. -/
def emptySurroundings : Surroundings where
  tree := { top := [], home := [] }
  arguments := ["guards"]
  configVariable := none
  colorful := false
  cores := some 2

/-- By default guards have a report in every tree whose folders can be listed, and in an empty one
the program ends with exit code zero. Without roots they have none. -/
theorem run_of_request_fails_iff_guards :
    (guardsArguments.request (some 2) Settings.default = .ok (guardsRequest .default) ∧
      guardsArguments.request (some 2) rootlessSettings = .ok (guardsRequest rootlessSettings) ∧
      Arguments.ofTexts none emptySurroundings.arguments = .ok guardsArguments ∧
      emptySurroundings.load guardsArguments = .ok .default ∧
      ∀ root ∈ (guardsRequest rootlessSettings).searched,
        Passable emptySurroundings.tree (guardsRequest rootlessSettings).base root) ∧
    (∃ report, (guardsRequest .default).run emptySurroundings.tree = .ok report) ∧
    (guardsRequest rootlessSettings).run emptySurroundings.tree =
      .error (.settings (.noRoots .guards)) ∧
    ∀ timestamp elapsed,
      ((Program.answer emptySurroundings).output timestamp elapsed).exitCode = 0 := by
  have hdefault := request_guardsArguments validate_default
  have hrootless : guardsArguments.request (some 2) rootlessSettings =
      .ok (guardsRequest rootlessSettings) := by
    apply request_guardsArguments
    obtain ⟨htemplate, hlines, hfunctions, hrows⟩ := Settings.validate_eq_ok_iff.1 validate_default
    exact Settings.validate_eq_ok_iff.2 ⟨htemplate, hlines, hfunctions, hrows⟩
  have hparsed : Arguments.ofTexts none emptySurroundings.arguments = .ok guardsArguments := by
    decide +kernel
  have hfile : emptySurroundings.tree.isFile
      (Path.join (Utf8.encode guardsArguments.directory) Settings.fileName) = false := by
    decide +kernel
  have hload : emptySurroundings.load guardsArguments = .ok .default := by
    unfold Surroundings.load Settings.loadOrDefault
    exact if_neg (ne_true_of_eq_false hfile)
  have hpassable : ∀ base root, Passable emptySurroundings.tree base root := by
    rintro base root place cause ⟨entries, inner, -, -, hrefused⟩
    cases hrefused
  obtain ⟨hruns, -, -, -, hprogram⟩ := run_of_request_fails_iff _ _ _ _ hdefault
  obtain ⟨-, -, -, herrors, -⟩ := run_of_request_fails_iff _ _ _ _ hrootless
  obtain ⟨report, hrun⟩ := (hruns emptySurroundings.tree).2
    ⟨⟨by decide, fun _ => List.cons_ne_nil _ _⟩, fun root _ => hpassable _ root⟩
  refine ⟨⟨hdefault, hrootless, hparsed, hload, fun root _ => hpassable _ root⟩, ⟨report, hrun⟩,
    ?_, ?_⟩
  · exact (herrors emptySurroundings.tree (fun root _ => hpassable _ root) _).2 ⟨.guards, rfl, rfl⟩
  · intro timestamp elapsed
    have hcode : ((guardsRequest .default).run emptySurroundings.tree).toOption.map
        (·.summary.exitCode) = some 0 := by decide +kernel
    rw [hrun] at hcode
    obtain ⟨-, -, hexit⟩ := hprogram emptySurroundings rfl hparsed nofun nofun hload
    rw [(hexit report hrun timestamp elapsed).1]
    exact Option.some.inj hcode

end SourceAudit
