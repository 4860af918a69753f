import SourceAudit.Proofs.Run.Planned

/-!
# What a run sees

A run looks at a tree through its base directory, and sees little of it: which places are below the
folders it searches, which of them are files, which folders it must not list, and the lines of the
files it checks. Where two runs of a request see the same, they come to the same, also when they
look at two trees or through two directories. Only a folder that cannot be listed is named below
the directory through which it was seen.

    r.SameView s other t → the request with the base `other` runs in `t` as `r` does in `s`, except
      for the name of the directory                      (SameView.run_eq_ok, SameView.run_eq_error)
-/

namespace SourceAudit

/-! ## The rule -/

/-- What a walk comes to below the folder that a path leads to. -/
def FileTree.visits? (t : FileTree) (p : Path) : Option (List Visit) :=
  match t.node? p with
  | some (.folder entries) => some (Node.folder entries).walk
  | _ => none

/-- The lines of the file that a path leads to. -/
def FileTree.readLines (t : FileTree) (p : Path) : Except AccessError (List Text) :=
  Text.lines <$> t.readText p

/-- A search below a path in one tree sees what it sees below another path in another tree. -/
structure FileTree.SameBelow (s : FileTree) (p : Path) (t : FileTree) (q : Path) : Prop where
  visits : t.visits? q = s.visits? p
  files : ∀ visits ∈ s.visits? p, ∀ visit ∈ visits,
    t.isFile (Path.descend q visit.place) = s.isFile (Path.descend p visit.place)
  listings : ∀ visits ∈ s.visits? p, ∀ visit ∈ visits,
    t.refused .listing (Path.descend q visit.place) =
      s.refused .listing (Path.descend p visit.place)

/-- A request sees the same in one tree as it sees in another from the directory `other`. The lines
of the files matter where no folder stops the search for them. -/
structure RunRequest.SameView (r : RunRequest) (s : FileTree) (other : Path) (t : FileTree) :
    Prop where
  below : ∀ root ∈ r.searched, s.SameBelow (rootPath r.base root) t (rootPath other root)
  lines : ∀ kind ∈ r.kinds, (∀ root ∈ r.rootsOf kind, Passable s r.base root) →
    ∀ root ∈ r.rootsOf kind, ∀ places ∈ placesAt? s r.base (r.extensionsOf kind) root,
      ∀ place ∈ places,
        t.readLines (targetAt other root place).path = s.readLines (targetAt r.base root place).path
  report : .coverage ∈ r.kinds → ∀ report, r.coverageReport = some report →
    t.readLines report = s.readLines report

/-- The same failure when the base directory goes by another name. -/
inductive LintError.Moved (base other : Path) : LintError → LintError → Prop
  | settings (cause : SettingsError) : Moved base other (.settings cause) (.settings cause)
  | walk (root : Text) (place : List Name) (cause : AccessError) :
    Moved base other (.walk (Path.descend (rootPath base root) place) cause)
      (.walk (Path.descend (rootPath other root) place) cause)

theorem LintError.Moved.eq {base : Path} {e d : LintError} (h : e.Moved base base d) : e = d := by
  cases h <;> rfl

/-! ## What is found -/

section Found

variable {s t : FileTree} {base other p q : Path} {root : Text} {extensions roots : List Text}
  {visits : List Visit} {place : List Name}

theorem FileTree.isSome_visits? (t : FileTree) (p : Path) :
    (t.visits? p).isSome = t.isFolder p := by
  unfold visits? isFolder
  cases t.node? p with
  | none => rfl
  | some node => cases node <;> rfl

theorem FileTree.visits?_eq_some_iff {t : FileTree} :
    t.visits? p = some visits ↔
      ∃ entries, t.node? p = some (.folder entries) ∧ visits = (Node.folder entries).walk := by
  unfold visits?
  cases t.node? p with
  | none => simp
  | some node => cases node <;> simp [eq_comm]

theorem placesAt?_eq (tree : FileTree) (base : Path) (extensions : List Text) (root : Text) :
    placesAt? tree base extensions root = (tree.visits? (rootPath base root)).map
      (List.filterMap (listed? tree extensions (rootPath base root))) := by
  unfold placesAt? FileTree.visits?
  cases tree.node? (rootPath base root) with
  | none => rfl
  | some node => cases node <;> rfl

theorem barrierAt?_eq (tree : FileTree) (base : Path) (root : Text) :
    barrierAt? tree base root = (tree.visits? (rootPath base root)).bind
      (List.findSome? (barrier? tree (rootPath base root))) := by
  unfold barrierAt? FileTree.visits?
  cases tree.node? (rootPath base root) with
  | none => rfl
  | some node => cases node <;> rfl

/-- Whether a name is allowed can be told from the place below the root. -/
theorem extensionAllowed_descend (h : place ≠ []) (p q : Path) :
    extensionAllowed extensions (Path.descend q place) =
      extensionAllowed extensions (Path.descend p place) := by
  have hname (directory : Path) : Path.fileName? (Path.descend directory place) =
      some (place.getLast h).bytes := by
    rw [← Path.fileName?_descend directory place.dropLast, List.dropLast_concat_getLast]
  rw [extensionAllowed, extensionAllowed, Path.extension?, Path.extension?, hname, hname]

theorem placesAt?_congr (h : s.SameBelow (rootPath base root) t (rootPath other root)) :
    placesAt? t other extensions root = placesAt? s base extensions root := by
  rw [placesAt?_eq, placesAt?_eq, h.visits]
  cases hvisits : s.visits? (rootPath base root) with
  | none => rfl
  | some visits =>
    refine congrArg some (List.filterMap_congr fun visit hvisit => ?_)
    unfold listed?
    rw [h.files visits hvisits visit hvisit]
    cases hfolder : visit.isFolder with
    | true => rfl
    | false =>
      have hne : visit.place ≠ [] := by
        obtain ⟨entries, -, rfl⟩ := FileTree.visits?_eq_some_iff.1 hvisits
        obtain ⟨node, hnode, hkind⟩ := mem_walk.1 hvisit
        intro hplace
        rw [hplace] at hnode
        injection hnode with hnode
        rw [← hnode, hfolder] at hkind
        cases hkind
      rw [extensionAllowed_descend hne]

theorem barrierAt?_moved (h : s.SameBelow (rootPath base root) t (rootPath other root)) :
    Option.Rel (LintError.Moved base other) (barrierAt? s base root) (barrierAt? t other root) := by
  rw [barrierAt?_eq, barrierAt?_eq, h.visits]
  cases hvisits : s.visits? (rootPath base root) with
  | none => exact .none
  | some visits =>
    refine rel_findSome? fun visit hvisit => ?_
    unfold barrier?
    rw [h.listings visits hvisits visit hvisit]
    cases visit.isFolder with
    | false => exact .none
    | true =>
      cases s.refused .listing (Path.descend (rootPath base root) visit.place) with
      | none => exact .none
      | some cause => exact .some (.walk root visit.place cause)

section Jobs

variable {kind : CheckKind} {inspect moved : Target → Outcome}

/-- The jobs for what is found differ in nothing, when the check says the same of each target. -/
theorem job_foundBelow_congr
    (hbelow : ∀ root ∈ roots, s.SameBelow (rootPath base root) t (rootPath other root))
    (hinspect : ∀ root ∈ roots, ∀ places ∈ placesAt? s base extensions root, ∀ place ∈ places,
      moved (targetAt other root place) = inspect (targetAt base root place)) :
    (foundBelow t other extensions roots).job kind roots moved =
      (foundBelow s base extensions roots).job kind roots inspect := by
  have htasks : (foundBelow t other extensions roots).targets.map
        (fun target => (⟨target.display, .finished (moved target)⟩ : Task)) =
      (foundBelow s base extensions roots).targets.map
        fun target => ⟨target.display, .finished (inspect target)⟩ := by
    rw [foundBelow, foundBelow, List.map_flatten, List.map_flatten, List.map_filterMap,
      List.map_filterMap]
    refine congrArg List.flatten (List.filterMap_congr fun root hroot => ?_)
    rw [blockAt?, blockAt?, placesAt?_congr (hbelow root hroot)]
    cases hplaces : placesAt? s base extensions root with
    | none => rfl
    | some places =>
      simp only [Option.map_some, List.map_map]
      refine congrArg some (List.map_congr_left fun place hplace => ?_)
      rw [Function.comp_apply, Function.comp_apply, hinspect root hroot places hplaces place hplace]
      rfl
  have hmissing : (foundBelow t other extensions roots).missingRoots =
      (foundBelow s base extensions roots).missingRoots := by
    refine List.filter_congr fun root hroot => ?_
    rw [← FileTree.isSome_visits?, (hbelow root hroot).visits, FileTree.isSome_visits?]
  rw [Discovery.job, Discovery.job, htasks, hmissing]

theorem discover_agree
    (hbelow : ∀ root ∈ roots, s.SameBelow (rootPath base root) t (rootPath other root))
    (hinspect : (∀ root ∈ roots, Passable s base root) →
      ∀ root ∈ roots, ∀ places ∈ placesAt? s base extensions root, ∀ place ∈ places,
        moved (targetAt other root place) = inspect (targetAt base root place)) :
    Agree (LintError.Moved base other)
      ((fun found => [found.job kind roots inspect]) <$> discover s base extensions roots)
      ((fun found => [found.job kind roots moved]) <$> discover t other extensions roots) := by
  have hbarrier := rel_findSome? fun root hroot => barrierAt?_moved (hbelow root hroot)
  rw [discover_eq, discover_eq]
  generalize hfirst : roots.findSome? (barrierAt? s base) = first at hbarrier ⊢
  generalize roots.findSome? (barrierAt? t other) = second at hbarrier ⊢
  cases hbarrier with
  | some hmoved => exact .error hmoved
  | none =>
    -- only a search that comes to its end has targets to look at
    rw [List.findSome?_eq_none_iff] at hfirst
    have hpassable : ∀ root ∈ roots, Passable s base root := fun root hroot =>
      barrierAt?_eq_none_iff.1 (hfirst root hroot)
    show Agree _ (.ok [_]) (.ok [_])
    rw [job_foundBelow_congr hbelow (hinspect hpassable)]
    exact .ok _

end Jobs

end Found

/-! ## What the checks say -/

section Checks

variable {s t : FileTree} {p : Path} {target : Target}

/-- A check that looks at the lines of its target can tell two contents apart only by them. -/
theorem Target.judge_congr {verdict : Text → Outcome}
    (hverdict : ∀ a b, Text.lines a = Text.lines b → verdict a = verdict b)
    (hlines : t.readLines p = s.readLines target.path) :
    ({ target with path := p } : Target).judge t verdict = target.judge s verdict := by
  unfold FileTree.readLines at hlines
  unfold Target.judge
  dsimp only
  cases ht : t.readText p with
  | error e =>
    cases hs : s.readText target.path with
    | error d =>
      rw [ht, hs] at hlines
      injection hlines with hlines
      rw [hlines]
    | ok text =>
      rw [ht, hs] at hlines
      cases hlines
  | ok text =>
    cases hs : s.readText target.path with
    | error d =>
      rw [ht, hs] at hlines
      cases hlines
    | ok content =>
      rw [ht, hs] at hlines
      injection hlines with hlines
      exact hverdict text content hlines

theorem HeaderTemplate.inspect_congr (template : HeaderTemplate) (target : Target)
    (h : t.readLines p = s.readLines target.path) :
    template.inspect t { target with path := p } = template.inspect s target := by
  refine Target.judge_congr (fun a b hab => ?_) h
  simp only [HeaderTemplate.check, hab]

theorem inspectGuard_congr (lead : Text) (target : Target)
    (h : t.readLines p = s.readLines target.path) :
    inspectGuard lead t { target with path := p } = inspectGuard lead s target := by
  refine Target.judge_congr (fun a b hab => ?_) h
  simp only [checkGuard, hab]

theorem inspectCoverage_congr (rows : SummaryRows) (thresholds : CoverageThresholds)
    (h : t.readLines target.path = s.readLines target.path) :
    inspectCoverage rows thresholds t target = inspectCoverage rows thresholds s target := by
  refine Target.judge_congr (fun a b hab => ?_) h
  simp only [CoverageSummary.ofText?, hab]

theorem coverageJob_congr (settings : CoverageSettings) {report : Path}
    (h : t.readLines report = s.readLines report) :
    coverageJob t settings report = coverageJob s settings report := by
  have hinspect := inspectCoverage_congr settings.rows settings.thresholds
    (show t.readLines (Target.named report).path = s.readLines (Target.named report).path from h)
  simp only [coverageJob, hinspect]

end Checks

/-! ## What a run comes to -/

namespace RunRequest.SameView

variable {r : RunRequest} {s t : FileTree} {other : Path}

theorem jobOf_agree (h : r.SameView s other t) {kind : CheckKind} (hkind : kind ∈ r.kinds) :
    Agree (LintError.Moved r.base other) (r.jobOf s kind)
      (({ r with base := other } : RunRequest).jobOf t kind) := by
  have hbelow : ∀ root ∈ r.rootsOf kind,
      s.SameBelow (rootPath r.base root) t (rootPath other root) := fun root hroot =>
    h.below root (RunRequest.mem_searched.2 ⟨kind, hkind, hroot⟩)
  have hlines := h.lines kind hkind
  cases kind with
  | copyright =>
    rw [RunRequest.jobOf_copyright, RunRequest.jobOf_copyright]
    by_cases hroots : r.settings.copyright.roots = []
    · rw [if_pos hroots, if_pos hroots]
      exact .error (.settings _)
    · rw [if_neg hroots, if_neg hroots]
      cases r.settings.copyright.template? with
      | error e => exact .error (.settings _)
      | ok template =>
        refine discover_agree hbelow fun hpassable root hroot places hplaces place hplace => ?_
        exact template.inspect_congr (targetAt r.base root place)
          (hlines hpassable root hroot places hplaces place hplace)
  | guards =>
    rw [RunRequest.jobOf_guards, RunRequest.jobOf_guards]
    by_cases hroots : r.settings.guards.roots = []
    · rw [if_pos hroots, if_pos hroots]
      exact .error (.settings _)
    · rw [if_neg hroots, if_neg hroots]
      refine discover_agree hbelow fun hpassable root hroot places hplaces place hplace => ?_
      exact inspectGuard_congr r.settings.guards.lead (targetAt r.base root place)
        (hlines hpassable root hroot places hplaces place hplace)
  | coverage =>
    have hjobs : r.coverageReport.toList.map (coverageJob s r.settings.coverage) =
        r.coverageReport.toList.map (coverageJob t r.settings.coverage) := by
      refine List.map_congr_left fun report hreport => ?_
      exact (coverageJob_congr _ (h.report hkind report (Option.mem_toList.1 hreport))).symm
    show Agree _ (.ok (r.coverageReport.toList.map (coverageJob s r.settings.coverage)))
      (.ok (r.coverageReport.toList.map (coverageJob t r.settings.coverage)))
    rw [hjobs]
    exact .ok _

theorem plan_agree (h : r.SameView s other t) :
    Agree (LintError.Moved r.base other) (r.plan s)
      (({ r with base := other } : RunRequest).plan t) :=
  (Agree.mapM fun _ hkind => h.jobOf_agree (mem_filter_all.1 hkind)).map List.flatten

/-- Runs that see the same end alike. Only the name of the directory is another. -/
theorem run_eq_ok (h : r.SameView s other t) {report : Report} (hrun : r.run s = .ok report) :
    report.baseDir = Utf8.lossy r.base ∧ ({ r with base := other } : RunRequest).run t =
      .ok { report with baseDir := Utf8.lossy other } := by
  obtain ⟨jobs, hplan⟩ := RunRequest.exists_run_eq_ok_iff.1 ⟨report, hrun⟩
  rw [RunRequest.run_eq_of_plan hplan] at hrun
  injection hrun with hrun
  rw [RunRequest.run_eq_of_plan (h.plan_agree.ok_iff.1 hplan), ← hrun]
  exact ⟨rfl, rfl⟩

theorem run_eq_error (h : r.SameView s other t) {e : LintError} (hrun : r.run s = .error e) :
    ∃ moved, ({ r with base := other } : RunRequest).run t = .error moved ∧
      e.Moved r.base other moved := by
  obtain ⟨moved, hplan, hmoved⟩ := h.plan_agree.exists_error (RunRequest.run_eq_error_iff.1 hrun)
  exact ⟨moved, RunRequest.run_eq_error_iff.2 hplan, hmoved⟩

theorem yields_iff (h : r.SameView s other t) {report : Report} :
    ({ r with base := other } : RunRequest).Yields t report ↔
      ∃ same, r.Yields s same ∧ report = { same with baseDir := Utf8.lossy other } := by
  constructor
  · rintro ⟨jobs, log, hjobs, hruns, rfl⟩
    exact ⟨log.report r.base, ⟨jobs, log, h.plan_agree.ok_iff.2 hjobs, hruns, rfl⟩, rfl⟩
  · rintro ⟨same, ⟨jobs, log, hjobs, hruns, rfl⟩, rfl⟩
    exact ⟨jobs, log, h.plan_agree.ok_iff.1 hjobs, hruns, rfl⟩

end RunRequest.SameView

end SourceAudit
