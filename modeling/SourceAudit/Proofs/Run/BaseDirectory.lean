import SourceAudit.Proofs.FileTree.PlainWay
import SourceAudit.Proofs.Run.View

/-!
# Names of the base directory

Roots, diagnostics and guard symbols speak of what lies below the base directory, and never of the
directory itself. So two names of one directory that pass no link give the same findings, wherever
the roots lead: up, through links, or to an absolute path. The system is asked for whole paths, and
it has to answer alike under both names; under a name that is too long it does not. A folder that
cannot be listed is told as it was asked for.

    tree.LeadsTo r.base here → tree.LeadsTo other here →
      (∀ root ∈ r.searched, tree.RefusesAlike (rootPath r.base root) (rootPath other root)) →
        the request with the base `other` runs as `r` does                   (run_eq_of_leadsTo)
-/

namespace SourceAudit

/-! ## The rule -/

/-- Of what is at a path or below it, the system refuses the same under another name. -/
def FileTree.RefusesAlike (tree : FileTree) (p q : Path) : Prop :=
  ∀ here place node access, tree.find p = .ok here →
    tree.root.at? (here ++ place) = some node →
    tree.refused access (Path.descend q place) = tree.refused access (Path.descend p place)

/-! ## Lemmas -/

section View

variable {tree : FileTree} {r : RunRequest} {base other p q : Path} {root : Text}
  {here place : List Name} {node : Node} {visits : List Visit} {visit : Visit}

/-- Two names of a root that lead to the same lead to the same below it. -/
theorem find_descend_congr (hbase : tree.LeadsTo base here) (hother : tree.LeadsTo other here)
    (root : Text) (place : List Name) :
    tree.find (Path.descend (rootPath other root) place) =
      tree.find (Path.descend (rootPath base root) place) := by
  rw [rootPath, rootPath, Path.descend_join, Path.descend_join]
  exact FileTree.find_join_congr hbase hother _

theorem FileTree.RefusesAlike.node?_eq (h : tree.RefusesAlike p q)
    (hfind : tree.find q = tree.find p) : tree.node? q = tree.node? p := by
  unfold node?
  rw [hfind]
  cases hhere : tree.find p with
  | error e => cases tree.refused .status q <;> cases tree.refused .status p <;> rfl
  | ok here =>
    cases hnode : tree.root.at? here with
    | none =>
      cases tree.refused .status q <;> cases tree.refused .status p <;> simp [hnode]
    | some node =>
      have hrefused := h here [] node .status hhere (by rw [List.append_nil, hnode])
      rw [Path.descend_nil, Path.descend_nil] at hrefused
      rw [hrefused]

/-- What a walk comes to is there. -/
theorem exists_at?_of_visits? (h : tree.visits? p = some visits) (hvisit : visit ∈ visits) :
    ∃ here node, tree.find p = .ok here ∧ tree.root.at? (here ++ visit.place) = some node := by
  obtain ⟨entries, hnode, rfl⟩ := FileTree.visits?_eq_some_iff.1 h
  obtain ⟨-, here, hfind, hhere⟩ := FileTree.node?_eq_some_iff.1 hnode
  obtain ⟨inner, hinner, -⟩ := mem_walk.1 hvisit
  refine ⟨here, inner, hfind, ?_⟩
  rw [Node.at?_append, hhere]
  exact hinner

/-- At an entry of the walk the system says the same under both names. -/
theorem FileTree.RefusesAlike.refused_eq (h : tree.RefusesAlike p q)
    (hvisits : tree.visits? p = some visits) (hvisit : visit ∈ visits) (access : Access) :
    tree.refused access (Path.descend q visit.place) =
      tree.refused access (Path.descend p visit.place) := by
  obtain ⟨here, node, hfind, hnode⟩ := exists_at?_of_visits? hvisits hvisit
  exact h here visit.place node access hfind hnode

section Alike

variable (hbase : tree.LeadsTo base here) (hother : tree.LeadsTo other here)
  (halike : tree.RefusesAlike (rootPath base root) (rootPath other root))
include hbase hother halike

theorem sameBelow_of_leadsTo :
    tree.SameBelow (rootPath base root) tree (rootPath other root) := by
  refine ⟨?_, ?_, ?_⟩
  · have hfind := find_descend_congr hbase hother root []
    rw [FileTree.visits?, FileTree.visits?, halike.node?_eq hfind]
  · intro visits hvisits visit hvisit
    have hrefused := halike.refused_eq hvisits hvisit .status
    rw [FileTree.isFile, FileTree.isFile, FileTree.node?, FileTree.node?, hrefused,
      find_descend_congr hbase hother root visit.place]
  · intro visits hvisits visit hvisit
    exact halike.refused_eq hvisits hvisit .listing

theorem readLines_eq_of_visits? (h : tree.visits? (rootPath base root) = some visits)
    (hvisit : visit ∈ visits) :
    tree.readLines (Path.descend (rootPath other root) visit.place) =
      tree.readLines (Path.descend (rootPath base root) visit.place) := by
  have hrefused := halike.refused_eq h hvisit .content
  rw [FileTree.readLines, FileTree.readLines, FileTree.readText, FileTree.readText, hrefused,
    find_descend_congr hbase hother root visit.place]

end Alike

/-- Two names of one directory show the same. -/
theorem sameView_of_leadsTo (hbase : tree.LeadsTo r.base here) (hother : tree.LeadsTo other here)
    (halike : ∀ root ∈ r.searched,
      tree.RefusesAlike (rootPath r.base root) (rootPath other root)) :
    r.SameView tree other tree where
  below := fun root hroot => sameBelow_of_leadsTo hbase hother (halike root hroot)
  lines := by
    intro kind hkind _ root hroot places hplaces place hplace
    have hsearched := RunRequest.mem_searched.2 ⟨kind, hkind, hroot⟩
    rw [placesAt?_eq] at hplaces
    obtain ⟨visits, hvisits, rfl⟩ := Option.map_eq_some_iff.1 hplaces
    obtain ⟨visit, hvisit, hlisted⟩ := List.mem_filterMap.1 hplace
    obtain rfl := place_of_listed? hlisted
    exact readLines_eq_of_visits? hbase hother (halike root hsearched) hvisits hvisit
  report := fun _ _ _ => rfl

end View

/-! ## Top theorem -/

/-- A run below one name of a directory ends as the run below another does, when the system refuses
the same under both. Both fail, and when it is for a folder that cannot be listed they name it below
the directory as they know it; or both end with the same findings and the same exit code, under
every order of the turns of their workers. -/
theorem run_eq_of_leadsTo (tree : FileTree) (r : RunRequest) (other : Path) (here : List Name)
    (hbase : tree.LeadsTo r.base here) (hother : tree.LeadsTo other here)
    (halike : ∀ root ∈ r.searched,
      tree.RefusesAlike (rootPath r.base root) (rootPath other root)) :
    (∀ e, r.run tree = .error e →
      ∃ moved, ({ r with base := other } : RunRequest).run tree = .error moved ∧
        e.Moved r.base other moved) ∧
    (∀ report, r.run tree = .ok report →
      ∃ same, ({ r with base := other } : RunRequest).run tree = .ok same ∧
        same.findings = report.findings ∧ same.time = report.time ∧
        same.summary.exitCode = report.summary.exitCode ∧
        report.baseDir = Utf8.lossy r.base ∧ same.baseDir = Utf8.lossy other) ∧
    ∀ report, ({ r with base := other } : RunRequest).Yields tree report ↔
      report.baseDir = Utf8.lossy other ∧
        r.Yields tree { report with baseDir := Utf8.lossy r.base } := by
  have hview := sameView_of_leadsTo hbase hother halike
  refine ⟨fun e hrun => hview.run_eq_error hrun, ?_, ?_⟩
  · intro report hrun
    obtain ⟨hreport, hsame⟩ := hview.run_eq_ok hrun
    exact ⟨_, hsame, rfl, rfl, rfl, hreport, rfl⟩
  · intro report
    rw [hview.yields_iff]
    constructor
    · rintro ⟨same, hyields, rfl⟩
      refine ⟨rfl, ?_⟩
      obtain ⟨jobs, log, hjobs, hruns, rfl⟩ := hyields
      exact ⟨jobs, log, hjobs, hruns, rfl⟩
    · rintro ⟨hdirectory, hyields⟩
      refine ⟨_, hyields, ?_⟩
      rw [← hdirectory]

def folderX : Name := ⟨"x", by decide⟩

/-- A header in a folder. -/
def nestedTree : FileTree where
  top := [(folderX, .folder tidyTree.top)]
  home := []

def nestedRequest : RunRequest := { tidyRequest with base := "x" }

/-- Another name of the folder, with doubled slashes and a way up. -/
def roundabout : Path := "x//../x/./"

/-- The header is found under both names of its folder, and both times it is in order. -/
theorem run_eq_of_leadsTo_nested :
    (nestedTree.LeadsTo nestedRequest.base [folderX] ∧
      nestedTree.LeadsTo roundabout [folderX] ∧ nestedRequest.base ≠ roundabout ∧
      ∀ root ∈ nestedRequest.searched,
        nestedTree.RefusesAlike (rootPath nestedRequest.base root) (rootPath roundabout root)) ∧
    ∃ report same, nestedRequest.run nestedTree = .ok report ∧
      ({ nestedRequest with base := roundabout } : RunRequest).run nestedTree = .ok same ∧
      same.findings = report.findings ∧ report.findings.length = 2 := by
  have hbase : nestedTree.LeadsTo nestedRequest.base [folderX] :=
    ⟨by decide, [.into folderX], rfl, rfl⟩
  have hother : nestedTree.LeadsTo roundabout [folderX] :=
    ⟨by decide, [.into folderX, .stay, .up, .into folderX, .stay, .stay], rfl, rfl⟩
  have halike : ∀ root ∈ nestedRequest.searched,
      nestedTree.RefusesAlike (rootPath nestedRequest.base root) (rootPath roundabout root) :=
    fun _ _ _ _ _ _ _ _ => rfl
  have hlength : (nestedRequest.run nestedTree).toOption.map (·.findings.length) = some 2 := by
    decide +kernel
  obtain ⟨report, hrun, hlength⟩ := exists_ok_of_toOption_map hlength
  obtain ⟨-, hreports, -⟩ :=
    run_eq_of_leadsTo nestedTree nestedRequest roundabout [folderX] hbase hother halike
  obtain ⟨same, hsame, hfindings, -⟩ := hreports report hrun
  exact ⟨⟨hbase, hother, by decide, halike⟩, report, same, hrun, hsame, hfindings, hlength⟩

/-- Two names of one directory, neither of which passes a link, give other findings and another
exit code when the one is too long, and other errors when a folder must not be listed. -/
theorem run_tells_names_apart :
    (headerTree.LeadsTo "." [] ∧ headerTree.LeadsTo farHome [] ∧
      ∃ report other, (includeRequest ".").run headerTree = .ok report ∧
        (includeRequest farHome).run headerTree = .ok other ∧
        report.summary.exitCode = 1 ∧ other.summary.exitCode = 0 ∧
        report.findings ≠ other.findings) ∧
    (closedTree.LeadsTo "." [] ∧ closedTree.LeadsTo ".//" [] ∧
      (includeRequest ".").run closedTree = .error (.walk "./include" .denied) ∧
      (includeRequest ".//").run closedTree = .error (.walk ".//include" .denied)) := by
  have hshort : ((includeRequest ".").run headerTree).toOption.map
      (fun report => (report.summary.exitCode, report.findings.map (·.outcome.isFailure))) =
        some (1, [true, true]) := by
    decide +kernel
  have hlong : ((includeRequest farHome).run headerTree).toOption.map
      (fun report => (report.summary.exitCode, report.findings.map (·.outcome.isFailure))) =
        some (0, [false, false]) := by
    decide +kernel
  obtain ⟨report, hreport, hshort⟩ := exists_ok_of_toOption_map hshort
  obtain ⟨other, hother, hlong⟩ := exists_ok_of_toOption_map hlong
  injection hshort with hcode hfailures
  injection hlong with hzero hnone
  have hne : report.findings ≠ other.findings := by
    intro hsame
    rw [hsame, hnone] at hfailures
    cases hfailures
  exact ⟨⟨⟨by decide, [.stay], rfl, rfl⟩, FileTree.leadsTo_dotted rfl 2039,
      report, other, hreport, hother, hcode, hzero, hne⟩,
    ⟨by decide, [.stay], rfl, rfl⟩, ⟨by decide, [.stay, .stay, .stay], rfl, rfl⟩,
    by decide +kernel, by decide +kernel⟩

end SourceAudit
