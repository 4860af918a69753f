import SourceAudit.Proofs.Check.Generated
import SourceAudit.Proofs.FileTree.Graft
import SourceAudit.Proofs.Run.Planned

/-!
# Generated trees pass

A tree that holds generated headers below `include`, and nothing else, and that the system lets
everyone see, is checked with the default settings. Every header is found, both checks say that it
is in order, and nothing fails.

    entries.MadeOf (files.map GeneratedHeader.file) → tree.node? r.base = some (.folder entries) →
      tree.OpenBelow r.base entries →
        r.run tree = .ok report, with a pass of each check for every header and no failure
                                                                           (run_generated_passes)
-/

namespace SourceAudit

/-! ## Generated trees -/

/-- The system refuses nothing of what is below the folder that a path leads to. -/
def FileTree.OpenBelow (tree : FileTree) (p : Path) (entries : Entries) : Prop :=
  ∀ access place node, (Node.folder entries).at? place = some node →
    tree.refused access (Path.descend p place) = none

namespace GeneratedHeader

/-- The header as a file, with its place in the tree. -/
def file (f : GeneratedHeader) : List Name × List UInt8 :=
  (includeName :: f.place, Utf8.encode f.text)

/-- The path of the header in the tree, as it is shown. -/
def path (f : GeneratedHeader) : Text := "include/" ++ Utf8.lossy f.relative

/-- How the checks see the header. -/
def target (f : GeneratedHeader) (base : Path) : Target := targetAt base "include" f.place

theorem place_ne_nil (f : GeneratedHeader) : f.place ≠ [] := by
  obtain ⟨name, hname, -⟩ := f.named
  intro hnil
  rw [hnil] at hname
  cases hname

theorem display_target (f : GeneratedHeader) (base : Path) : (f.target base).display = f.path := by
  have hjoin : Path.join (Utf8.encode "include") f.relative =
      Utf8.encode "include/" ++ f.relative := by
    rw [Path.join, GeneratedHeader.relative, Path.isAbsolute_relativePath,
      if_neg Bool.false_ne_true, if_neg (by decide +kernel)]
    rfl
  show Utf8.lossy (Path.join (Utf8.encode "include") f.relative) = _
  rw [hjoin, Utf8.lossy_encode_append]
  rfl

end GeneratedHeader

/-! ## What is found -/

section Found

variable {files : List GeneratedHeader} {entries : Entries} {tree : FileTree} {base : Path}
  (hmade : entries.MadeOf (files.map GeneratedHeader.file))
  (hbase : tree.node? base = some (.folder entries)) (hopen : tree.OpenBelow base entries)

include hmade

theorem exists_of_hasLeaf {place : List Name} {node : Node} (h : entries.HasLeaf place node) :
    ∃ f ∈ files, place = includeName :: f.place ∧ node = .file (Utf8.encode f.text) := by
  obtain ⟨file, hfile, hplace, hnode⟩ := (hmade place node).1 h
  obtain ⟨f, hf, rfl⟩ := List.mem_map.1 hfile
  exact ⟨f, hf, hplace, hnode⟩

include hbase hopen

/-- What the base directory joined with a name leads to is the entry of that name. -/
theorem node?_join_name_made (name : Name) :
    tree.node? (Path.join base name.bytes) = entries.lookup name := by
  cases hlookup : entries.lookup name with
  | none => exact FileTree.node?_join_name_eq_none hbase hlookup
  | some node =>
    have hlink : node.isLink = false := by
      cases node with
      | link goal =>
        have hleaf : entries.HasLeaf [name] (.link goal) :=
          hasLeaf_cons.2 ⟨_, hlookup, Node.at?_nil _, rfl⟩
        obtain ⟨f, -, -, hnode⟩ := exists_of_hasLeaf hmade hleaf
        cases hnode
      | file content => rfl
      | folder inner => rfl
    have hplace : (Node.folder entries).at? [name] = some node := by
      rw [Node.at?, hlookup, Option.bind_some, Node.at?_nil]
    exact FileTree.node?_descend hbase hplace hlink (hopen .status [name] node hplace)

/-- No folder below a name stops a search. -/
theorem passable_made {root : Text} {name : Name} (hname : name.bytes = Utf8.encode root) :
    Passable tree base root := by
  rintro place cause ⟨inner, deeper, hnode, hplace, hrefused⟩
  rw [rootPath, ← hname] at hnode hrefused
  rw [node?_join_name_made hmade hbase hopen] at hnode
  have hbelow : (Node.folder entries).at? (name :: place) = some (.folder deeper) := by
    rw [Node.at?, hnode, Option.bind_some, hplace]
  have hnone := hopen .listing (name :: place) _ hbelow
  rw [Path.descend_cons, hrefused] at hnone
  cases hnone

/-- Below `include` there is every header, and the system tells everything about it. -/
theorem exists_include {f : GeneratedHeader} (hf : f ∈ files) :
    ∃ inner, tree.node? (rootPath base "include") = some (.folder inner) ∧
      (Node.folder inner).at? f.place = some (.file (Utf8.encode f.text)) ∧
      ∀ access, tree.refused access (f.target base).path = none := by
  have hleaf : entries.HasLeaf f.file.1 (.file f.file.2) :=
    (hmade _ _).2 ⟨f.file, List.mem_map_of_mem hf, rfl, rfl⟩
  obtain ⟨next, hnext, hplace, -⟩ := hasLeaf_cons.1 hleaf
  have hnode : tree.node? (rootPath base "include") = some next :=
    (node?_join_name_made hmade hbase hopen includeName).trans hnext
  have hbelow : (Node.folder entries).at? (includeName :: f.place) =
      some (.file (Utf8.encode f.text)) := by
    rw [Node.at?, hnext, Option.bind_some]
    exact hplace
  cases next with
  | folder inner => exact ⟨inner, hnode, hplace, fun access => hopen access _ _ hbelow⟩
  | file content => exact absurd ((at?_of_isFolder_eq_false rfl).1 hplace).1 f.place_ne_nil
  | link goal => exact absurd ((at?_of_isFolder_eq_false rfl).1 hplace).1 f.place_ne_nil

theorem readText_target {f : GeneratedHeader} (hf : f ∈ files) :
    tree.readText (f.target base).path = .ok f.text := by
  obtain ⟨inner, hinner, hplace, htold⟩ := exists_include hmade hbase hopen hf
  rw [FileTree.readText_eq_ok_iff]
  have hnode := FileTree.node?_descend hinner hplace rfl (htold .status)
  exact ⟨htold .content, (FileTree.node?_eq_some_iff.1 hnode).2⟩

/-- The headers are found below `include`, and nothing is found below any other root. -/
theorem mem_targets_iff {extensions roots : List Text} {t : Target}
    (hh : "h".toList ∈ extensions) (hinclude : "include".toList ∈ roots)
    (hnames : ∀ root ∈ roots, ∃ name : Name, name.bytes = Utf8.encode root) :
    t ∈ (foundBelow tree base extensions roots).targets ↔ ∃ f ∈ files, t = f.target base := by
  rw [foundBelow, mem_found]
  constructor
  · rintro ⟨root, hroot, inner, place, hnode, ⟨⟨node, hplace, hkind⟩, -⟩, rfl⟩
    obtain ⟨name, hname⟩ := hnames root hroot
    rw [rootPath, ← hname, node?_join_name_made hmade hbase hopen] at hnode
    have hfolder : node.isFolder = false :=
      Node.isFolder_eq_false_iff.2 (hkind.imp And.left And.left)
    obtain ⟨f, hf, heq, -⟩ := exists_of_hasLeaf hmade (hasLeaf_cons.2 ⟨_, hnode, hplace, hfolder⟩)
    injection heq with hinclude hplaces
    have hroots : root = "include".toList :=
      Utf8.encode_injective (hname.symm.trans (congrArg Name.bytes hinclude))
    exact ⟨f, hf, by rw [hroots, hplaces]; rfl⟩
  · rintro ⟨f, hf, rfl⟩
    obtain ⟨inner, hinner, hplace, htold⟩ := exists_include hmade hbase hopen hf
    obtain ⟨name, hname, stem, hstem, htext⟩ := f.named
    refine ⟨_, hinclude, inner, f.place, hinner,
      ⟨⟨_, hplace, Or.inl ⟨rfl, htold .status⟩⟩, name, hname, ?_⟩, rfl⟩
    exact Or.inr ⟨stem, "h", 0, hstem, htext, by decide, hh⟩

/-! ## What is said of it -/

theorem inspect_target {f : GeneratedHeader} (hf : f ∈ files) :
    HeaderTemplate.standard.inspect tree (f.target base) = .pass "license header present" 0 := by
  have hcheck := HeaderTemplate.check_eq_ok_iff.2 f.opens_text
  rw [HeaderTemplate.inspect, Target.judge, readText_target hmade hbase hopen hf]
  simp only [hcheck]
  rfl

theorem inspectGuard_target {f : GeneratedHeader} (hf : f ∈ files) :
    inspectGuard "_" tree (f.target base) = .pass ("guarded by " ++ f.symbol) 0 := by
  have hcheck := checkGuard_eq_ok_iff.2 f.guardedBy_text
  have hsymbol : guardSymbol (f.target base).relative "_" = f.symbol := rfl
  rw [inspectGuard, Target.judge, readText_target hmade hbase hopen hf, hsymbol]
  simp only [hcheck]
  rfl

/-- A check that passes every header has a pass for each of them, and no failure. -/
theorem findings_made {extensions roots : List Text} {inspect : Target → Outcome}
    {message : GeneratedHeader → Text} (kind : CheckKind) (hh : "h".toList ∈ extensions)
    (hinclude : "include".toList ∈ roots)
    (hnames : ∀ root ∈ roots, ∃ name : Name, name.bytes = Utf8.encode root)
    (hinspect : ∀ f ∈ files, inspect (f.target base) = .pass (message f) 0) :
    (∀ f ∈ files, ⟨kind, f.path, .pass (message f) 0⟩ ∈
      (foundBelow tree base extensions roots).findings kind roots inspect) ∧
    ∀ t ∈ (foundBelow tree base extensions roots).targets, (inspect t).isFailure = false := by
  have hmem : ∀ t, t ∈ (foundBelow tree base extensions roots).targets ↔
      ∃ f ∈ files, t = f.target base :=
    fun _ => mem_targets_iff hmade hbase hopen hh hinclude hnames
  constructor
  · intro f hf
    rw [← hinspect f hf, ← f.display_target base]
    exact Discovery.mem_findings ((hmem _).2 ⟨f, hf, rfl⟩)
  · intro t ht
    obtain ⟨f, hf, rfl⟩ := (hmem t).1 ht
    rw [hinspect f hf]
    rfl

end Found

/-! ## Top theorem -/

/-- A request for headers and guards has one job for each. -/
theorem RunRequest.plan_eq_of_kinds {r : RunRequest} {tree : FileTree} {first second : Job}
    (hkinds : ∀ kind, kind ∈ r.kinds ↔ kind = .copyright ∨ kind = .guards)
    (hfirst : r.jobOf tree .copyright = .ok [first])
    (hsecond : r.jobOf tree .guards = .ok [second]) : r.plan tree = .ok [first, second] := by
  have hcontains : (r.kinds.contains ·) = fun kind => kind == .copyright || kind == .guards := by
    funext kind
    rw [Bool.eq_iff_iff, List.contains_iff_mem, hkinds]
    simp
  have horder : CheckKind.all.filter (r.kinds.contains ·) = [.copyright, .guards] := by
    rw [hcontains]
    decide
  rw [RunRequest.plan, horder, List.mapM_cons, List.mapM_cons, List.mapM_nil, hfirst, hsecond]
  rfl

section Default

variable {r : RunRequest} {tree : FileTree}

theorem jobOf_copyright_default (h : r.settings = .default)
    (hpassable : ∀ root ∈ CopyrightSettings.default.roots, Passable tree r.base root) :
    r.jobOf tree .copyright = .ok [(foundBelow tree r.base CopyrightSettings.default.extensions
      CopyrightSettings.default.roots).job .copyright CopyrightSettings.default.roots
        (HeaderTemplate.standard.inspect tree)] := by
  have hsection : r.settings.copyright = .default := by rw [h, Settings.default]
  have hroots : CopyrightSettings.default.roots ≠ [] := List.cons_ne_nil _ _
  rw [RunRequest.jobOf_copyright, hsection, if_neg hroots, template?_default]
  dsimp only
  rw [discover_eq_ok_iff.2 ⟨hpassable, rfl⟩]
  rfl

theorem jobOf_guards_default (h : r.settings = .default)
    (hpassable : ∀ root ∈ GuardSettings.default.roots, Passable tree r.base root) :
    r.jobOf tree .guards = .ok [(foundBelow tree r.base GuardSettings.default.extensions
      GuardSettings.default.roots).job .guards GuardSettings.default.roots
        (inspectGuard "_" tree)] := by
  have hsection : r.settings.guards = .default := by rw [h, Settings.default]
  have hroots : GuardSettings.default.roots ≠ [] := List.cons_ne_nil _ _
  rw [RunRequest.jobOf_guards, hsection, if_neg hroots, discover_eq_ok_iff.2 ⟨hpassable, rfl⟩]
  rfl

/-- Every default root is one name. -/
theorem exists_name_of_mem_default {root : Text} (h : root ∈ CopyrightSettings.default.roots) :
    ∃ name : Name, name.bytes = Utf8.encode root := by
  have hvalid : ∀ root ∈ CopyrightSettings.default.roots, IsName (Utf8.encode root) := by
    decide +kernel
  exact ⟨⟨_, hvalid root h⟩, rfl⟩

end Default

/-- There is a tree of any generated headers of which none lies on the way to another. In such a
tree, wherever it is, when the system refuses nothing of it, the default settings find every header
with its license and its guard, and nothing that fails. -/
theorem run_generated_passes (files : List GeneratedHeader)
    (hparted : files.Pairwise fun f g => Parted f.place g.place) :
    (∃ entries : Entries, entries.MadeOf (files.map GeneratedHeader.file)) ∧
    ∀ (entries : Entries) (tree : FileTree) (r : RunRequest),
      entries.MadeOf (files.map GeneratedHeader.file) →
      tree.node? r.base = some (.folder entries) → tree.OpenBelow r.base entries →
      r.settings = .default →
      (∀ kind, kind ∈ r.kinds ↔ kind = .copyright ∨ kind = .guards) →
      ∃ report, r.run tree = .ok report ∧ (∀ other, r.Yields tree other ↔ other = report) ∧
        (∀ f ∈ files,
          ⟨.copyright, f.path, .pass "license header present" 0⟩ ∈ report.findings ∧
          ⟨.guards, f.path, .pass ("guarded by " ++ f.symbol) 0⟩ ∈ report.findings) ∧
        ∀ finding ∈ report.findings, finding.outcome.isFailure = false := by
  constructor
  · apply exists_madeOf
    · intro file hfile
      obtain ⟨f, -, rfl⟩ := List.mem_map.1 hfile
      exact List.cons_ne_nil _ _
    · rw [List.pairwise_map]
      refine hparted.imp fun h => ?_
      exact parted_cons_cons.2 (Or.inr h)
  · intro entries tree r hmade hbase hopen hsettings hkinds
    have hguards : ∀ root ∈ GuardSettings.default.roots,
        ∃ name : Name, name.bytes = Utf8.encode root := fun root hroot =>
      ⟨includeName, congrArg Utf8.encode (List.mem_singleton.1 hroot).symm⟩
    have hpassable : ∀ root, (∃ name : Name, name.bytes = Utf8.encode root) →
        Passable tree r.base root := fun root ⟨_, hname⟩ => passable_made hmade hbase hopen hname
    obtain ⟨hlicensed, hlicense⟩ := findings_made hmade hbase hopen .copyright List.mem_cons_self
      List.mem_cons_self (fun _ => exists_name_of_mem_default)
      fun f => inspect_target hmade hbase hopen
    obtain ⟨hguarded, hguard⟩ := findings_made hmade hbase hopen .guards List.mem_cons_self
      List.mem_cons_self hguards fun f => inspectGuard_target hmade hbase hopen
    have hplan := RunRequest.plan_eq_of_kinds hkinds
      (jobOf_copyright_default hsettings fun root hroot =>
        hpassable root (exists_name_of_mem_default hroot))
      (jobOf_guards_default hsettings fun root hroot => hpassable root (hguards root hroot))
    obtain ⟨hrun, hyields⟩ := RunRequest.run_eq_of_unstopped hplan
      (List.forall_mem_cons.2 ⟨Discovery.unstopped_job hlicense r.failFast,
        List.forall_mem_singleton.2 (Discovery.unstopped_job hguard r.failFast)⟩)
    rw [List.flatMap_cons, List.flatMap_singleton, Discovery.reference_job,
      Discovery.reference_job] at hrun hyields
    refine ⟨_, hrun, hyields, ?_, ?_⟩
    · intro f hf
      exact ⟨List.mem_append_left _ (hlicensed f hf), List.mem_append_right _ (hguarded f hf)⟩
    · intro finding hfinding
      rcases List.mem_append.1 hfinding with h | h
      · exact Discovery.findings_pass hlicense finding h
      · exact Discovery.findings_pass hguard finding h

/-- Of two headers one has a body that looks like guards. -/
def generatedPair : List GeneratedHeader := [
  { place := [⟨"hash.h", by decide⟩], year := "2024", holder := " A", body := []
    newlineAtEnd := true
    named := ⟨_, rfl, "hash", by decide, by decide⟩
    place_newline := by decide
    year_length := by decide
    year_digits := List.all_eq_true.1 (by decide)
    holder_newline := by decide
    holder_head := by rintro c ⟨⟩; rfl
    body_newline := by decide },
  { place := [⟨"util", by decide⟩, ⟨"prg.h", by decide⟩], year := "1999", holder := "\r"
    body := ["#ifndef _UTIL_PRG_H", "#endif"]
    newlineAtEnd := false
    named := ⟨_, rfl, "prg", by decide, by decide⟩
    place_newline := by decide
    year_length := by decide
    year_digits := List.all_eq_true.1 (by decide)
    holder_newline := by decide
    holder_head := by rintro c ⟨⟩; rfl
    body_newline := by decide }]

/-- Headers and guards with the default settings, on two workers that stop at a failure. -/
def defaultRequest : RunRequest where
  settings := .default
  base := "."
  kinds := [.guards, .copyright]
  coverageReport := none
  parallel := true
  failFast := true
  jobs := 2

/-- A tree of two headers, and its run. -/
theorem run_generated_passes_pair :
    (generatedPair.Pairwise fun f g => Parted f.place g.place) ∧
    ∃ (tree : FileTree) (report : Report), defaultRequest.run tree = .ok report ∧
      (∀ f ∈ generatedPair,
        ⟨.copyright, f.path, .pass "license header present" 0⟩ ∈ report.findings ∧
        ⟨.guards, f.path, .pass ("guarded by " ++ f.symbol) 0⟩ ∈ report.findings) ∧
      report.passed = true := by
  have hparted : generatedPair.Pairwise fun f g => Parted f.place g.place := by decide +kernel
  obtain ⟨⟨entries, hmade⟩, hpasses⟩ := run_generated_passes generatedPair hparted
  have hbase : FileTree.node? { top := entries, home := [] } defaultRequest.base =
      some (.folder entries) := rfl
  have hkinds : ∀ kind, kind ∈ defaultRequest.kinds ↔ kind = .copyright ∨ kind = .guards := by
    intro kind
    cases kind <;> decide
  obtain ⟨report, hrun, -, hfound, hclean⟩ :=
    hpasses entries { top := entries, home := [] } defaultRequest hmade hbase
      (fun _ _ _ _ => rfl) rfl hkinds
  refine ⟨hparted, _, report, hrun, hfound, ?_⟩
  rw [Report.passed, Bool.not_eq_true', List.any_eq_false]
  intro finding hfinding
  exact ne_true_of_eq_false (hclean finding hfinding)

end SourceAudit
