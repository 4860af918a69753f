import SourceAudit.Proofs.FileTree.Contents
import SourceAudit.Proofs.Run.View
import SourceAudit.Proofs.Text.LineEnds

/-!
# Runs and line ends

Every check reads its target as lines, so it cannot tell the two ways to end a line apart. When a
carriage return is put in front of each newline of any of the files, whether they are text or not,
a run reports what it reported before: each finding with its message and its details.

    no checked file that is picked has a carriage return →
      r.run (tree.withReturns pick) = r.run tree                                (run_withReturns)
-/

namespace SourceAudit

/-! ## The rule -/

/-- The tree with a carriage return in front of every newline of the picked files. -/
def FileTree.withReturns (pick : List Name → Bool) (tree : FileTree) : FileTree :=
  tree.mapFiles fun place content => if pick place then Utf8.withReturns content else content

/-- Is a path one at which a run opens a file to check it? -/
def RunRequest.Checks (r : RunRequest) (tree : FileTree) (p : Path) : Prop :=
  (.copyright ∈ r.kinds ∧ ∃ found,
    discover tree r.base r.settings.copyright.extensions r.settings.copyright.roots = .ok found ∧
      ∃ target ∈ found.targets, target.path = p) ∨
  (.guards ∈ r.kinds ∧ ∃ found,
    discover tree r.base r.settings.guards.extensions r.settings.guards.roots = .ok found ∧
      ∃ target ∈ found.targets, target.path = p) ∨
  (.coverage ∈ r.kinds ∧ r.coverageReport = some p)

/-! ## Lemmas -/

section Lemmas

variable {tree : FileTree} {pick : List Name → Bool} {p : Path}

theorem FileTree.visits?_withReturns (pick : List Name → Bool) (tree : FileTree) (p : Path) :
    (tree.withReturns pick).visits? p = tree.visits? p := by
  obtain ⟨g, hnode⟩ := exists_node?_mapFiles _ tree p
  rw [visits?, visits?, FileTree.withReturns, hnode]
  cases tree.node? p with
  | none => rfl
  | some node =>
    cases node with
    | file content => rfl
    | link goal => rfl
    | folder entries => exact congrArg some (walk_mapFiles g (.folder entries))

/-- The file at a place keeps its lines when it has no carriage return, or is not picked. -/
theorem FileTree.readLines_withReturns
    (h : ∀ place content, tree.find p = .ok place → pick place = true →
      tree.root.at? place = some (.file content) → 0x0d ∉ content) :
    (tree.withReturns pick).readLines p = tree.readLines p := by
  have hrefused : (tree.withReturns pick).refused = tree.refused := rfl
  unfold readLines readText
  rw [hrefused, FileTree.withReturns, find_mapFiles]
  cases tree.refused .content p with
  | some cause => rfl
  | none =>
    cases hfind : tree.find p with
    | error e => rfl
    | ok place =>
      dsimp only
      rw [at?_root_mapFiles]
      cases hnode : tree.root.at? place with
      | none => rfl
      | some node =>
        cases node with
        | link goal => rfl
        | folder entries => rfl
        | file content =>
          simp only [Option.map_some, Node.mapFiles, List.append_nil]
          by_cases hpick : pick place = true
          · have hlines := Utf8.lines_decode?_withReturns (h place content hfind hpick hnode)
            rw [if_pos hpick]
            cases hbefore : Utf8.decode? content with
            | none =>
              rw [hbefore, Option.map_none, Option.map_eq_none_iff] at hlines
              rw [hlines]
            | some text =>
              rw [hbefore, Option.map_some, Option.map_eq_some_iff] at hlines
              obtain ⟨other, hafter, hlines⟩ := hlines
              rw [hafter]
              exact congrArg Except.ok hlines
          · rw [if_neg hpick]

/-- A target that a search comes to is one that the run checks. -/
theorem RunRequest.checks_targetAt {r : RunRequest} {kind : CheckKind} {root : Text}
    {places : List (List Name)} {place : List Name} (hkind : kind ∈ r.kinds)
    (hpassable : ∀ root ∈ r.rootsOf kind, Passable tree r.base root) (hroot : root ∈ r.rootsOf kind)
    (hplaces : places ∈ placesAt? tree r.base (r.extensionsOf kind) root)
    (hplace : place ∈ places) :
    r.Checks tree (targetAt r.base root place).path := by
  have hfound : discover tree r.base (r.extensionsOf kind) (r.rootsOf kind) =
      .ok (foundBelow tree r.base (r.extensionsOf kind) (r.rootsOf kind)) :=
    discover_eq_ok_iff.2 ⟨hpassable, rfl⟩
  have hblock : blockAt? tree r.base (r.extensionsOf kind) root =
      some (places.map (targetAt r.base root)) :=
    Option.map_eq_some_iff.2 ⟨places, hplaces, rfl⟩
  have hmem : targetAt r.base root place ∈
      (foundBelow tree r.base (r.extensionsOf kind) (r.rootsOf kind)).targets :=
    List.mem_flatten.2 ⟨_, List.mem_filterMap.2 ⟨root, hroot, hblock⟩, List.mem_map_of_mem hplace⟩
  cases kind with
  | copyright => exact Or.inl ⟨hkind, _, hfound, _, hmem, rfl⟩
  | guards => exact Or.inr (Or.inl ⟨hkind, _, hfound, _, hmem, rfl⟩)
  | coverage => cases hroot

end Lemmas

/-! ## Top theorem -/

/-- Line ends make no difference to a run, in whichever files they are changed: it fails alike, or
reports the same findings, under every order of the turns of its workers. -/
theorem run_withReturns (tree : FileTree) (r : RunRequest) (pick : List Name → Bool)
    (h : ∀ p place content, r.Checks tree p → tree.find p = .ok place → pick place = true →
      tree.root.at? place = some (.file content) → 0x0d ∉ content) :
    r.run (tree.withReturns pick) = r.run tree ∧
      ∀ report, r.Yields (tree.withReturns pick) report ↔ r.Yields tree report := by
  have hlines : ∀ p, r.Checks tree p →
      (tree.withReturns pick).readLines p = tree.readLines p := by
    intro p hp
    exact FileTree.readLines_withReturns fun place content => h p place content hp
  have hview : r.SameView tree r.base (tree.withReturns pick) := {
    below := fun root _ => {
      visits := FileTree.visits?_withReturns pick tree _
      files := fun _ _ _ _ => FileTree.isFile_mapFiles tree _
      listings := fun _ _ _ _ => rfl }
    lines := fun kind hkind hpassable root hroot places hplaces place hplace =>
      hlines _ (RunRequest.checks_targetAt hkind hpassable hroot hplaces hplace)
    report := fun hkind report hreport => hlines _ (Or.inr (Or.inr ⟨hkind, hreport⟩)) }
  have hplan : r.plan (tree.withReturns pick) = r.plan tree :=
    (hview.plan_agree.eq fun _ _ => LintError.Moved.eq).symm
  constructor
  · rw [RunRequest.run, RunRequest.run, hplan]
  · intro report
    rw [RunRequest.Yields, RunRequest.Yields, hplan]

/-- A header, a file that is no text, and a coverage summary. -/
def threeFiles : FileTree where
  top := tidyTree.top ++ [
    (⟨"b.h", by decide⟩, .file [0xff, 0x0a]),
    (⟨"rows", by decide⟩, .file (Utf8.encode "lines: 90%\nfunctions: none\n"))]
  home := []

/-- Every kind, and no stopping at failures. -/
def threeRequest : RunRequest :=
  { tidyRequest with
    settings := { tidyRequest.settings with
      coverage := { tidyRequest.settings.coverage with linesRow := 0, functionsRow := 1 } }
    kinds := CheckKind.all
    coverageReport := some "rows"
    failFast := false }

/-- With other line ends in all files there are the same findings, of which the one for the summary
quotes a row. -/
theorem run_withReturns_threeFiles :
    (∀ p place content, threeRequest.Checks threeFiles p → threeFiles.find p = .ok place →
      (fun _ => true) place = true → threeFiles.root.at? place = some (.file content) →
      0x0d ∉ content) ∧
    threeRequest.run (threeFiles.withReturns fun _ => true) = threeRequest.run threeFiles ∧
    ∃ report, threeRequest.run threeFiles = .ok report ∧ report.findings.length = 6 := by
  have hplain : ∀ p place content, threeRequest.Checks threeFiles p →
      threeFiles.find p = .ok place → (fun _ => true) place = true →
      threeFiles.root.at? place = some (.file content) → 0x0d ∉ content := by
    intro p place content _ _ _ hnode
    cases place with
    | nil => cases hnode
    | cons name rest =>
      obtain ⟨node, hnode, hrest⟩ := Option.bind_eq_some_iff.1 hnode
      have hfile : ∃ c, node = .file c ∧ 0x0d ∉ c := by
        have hmem := mem_of_lookup_eq_some hnode
        simp only [threeFiles, tidyTree, List.cons_append, List.nil_append, List.mem_cons,
          Prod.mk.injEq, List.not_mem_nil, or_false] at hmem
        rcases hmem with ⟨-, rfl⟩ | ⟨-, rfl⟩ | ⟨-, rfl⟩ <;> exact ⟨_, rfl, by decide +kernel⟩
      obtain ⟨c, rfl, hc⟩ := hfile
      cases rest with
      | nil =>
        injection hrest with hrest
        injection hrest with hrest
        rwa [← hrest]
      | cons _ _ => cases hrest
  have hlength : (threeRequest.run threeFiles).toOption.map (·.findings.length) = some 6 := by
    decide +kernel
  exact ⟨hplain, (run_withReturns threeFiles threeRequest _ hplain).1,
    exists_ok_of_toOption_map hlength⟩

end SourceAudit
