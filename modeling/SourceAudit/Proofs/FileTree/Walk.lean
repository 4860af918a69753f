import SourceAudit.FileTree.Walk

/-!
# What the walk comes to

The walk comes once to each place below a node that is reached through folders, in the order of the
names from the top down, so that a folder comes before all that is in it.

    visit ∈ node.walk ↔ ∃ inner, node.at? visit.place = some inner ∧
      inner.isFolder = visit.isFolder                                                   (mem_walk)
    node.walk.Pairwise fun visit later => Earlier visit.place later.place          (pairwise_walk)
-/

namespace SourceAudit

/-- Places are ordered by the first name in which they differ. -/
def Earlier (place other : List Name) : Prop :=
  List.Lex (fun m n => m.precedes n = true) place other

theorem lookup_branches (entries : Entries) (name : Name) :
    (branches entries).lookup name = (entries.lookup name).map Node.walk := by
  induction entries with
  | nil => rfl
  | cons entry rest ih =>
    obtain ⟨other, node⟩ := entry
    rw [branches, lookup_cons_entry, lookup_cons_entry, ih]
    split <;> rfl

/-! ## What is visited -/

theorem mem_walk_folder {entries : Entries} {visit : Visit} :
    visit ∈ (Node.folder entries).walk ↔ visit = ⟨[], true⟩ ∨
      ∃ name node, entries.lookup name = some node ∧
        ∃ inner ∈ node.walk, visit = .inside name inner := by
  rw [Node.walk, List.mem_cons, List.mem_flatMap]
  refine or_congr_right ?_
  constructor
  · rintro ⟨⟨name, visits⟩, hbranch, hvisit⟩
    obtain ⟨inner, hinner, rfl⟩ := List.mem_map.1 hvisit
    have hlookup := mem_byName.1 hbranch
    rw [lookup_branches, Option.map_eq_some_iff] at hlookup
    obtain ⟨node, hnode, rfl⟩ := hlookup
    exact ⟨name, node, hnode, inner, hinner, rfl⟩
  · rintro ⟨name, node, hnode, inner, hinner, rfl⟩
    refine ⟨(name, node.walk), mem_byName.2 ?_, List.mem_map_of_mem hinner⟩
    rw [lookup_branches, hnode, Option.map_some]

theorem mem_walk {node : Node} {visit : Visit} :
    visit ∈ node.walk ↔
      ∃ inner, node.at? visit.place = some inner ∧ inner.isFolder = visit.isFolder := by
  obtain ⟨place, folder⟩ := visit
  induction place generalizing node with
  | nil =>
    cases node with
    | file content => simp [Node.walk, Node.isFolder, eq_comm]
    | link goal => simp [Node.walk, Node.isFolder, eq_comm]
    | folder entries => simp [mem_walk_folder, Node.isFolder, Visit.inside, eq_comm]
  | cons name place ih =>
    cases node with
    | file content => simp [Node.walk, Node.at?]
    | link goal => simp [Node.walk, Node.at?]
    | folder entries =>
      rw [mem_walk_folder, Node.at?]
      constructor
      · rintro (h | ⟨other, node, hnode, inner, hinner, he⟩)
        · cases h
        · injection he with hplace hfolder
          injection hplace with hname hplace
          subst hname hplace hfolder
          rw [hnode, Option.bind_some]
          exact ih.1 hinner
      · rintro ⟨inner, hinner, hfolder⟩
        obtain ⟨node, hnode, hplace⟩ := Option.bind_eq_some_iff.1 hinner
        exact Or.inr ⟨name, node, hnode, ⟨place, folder⟩, ih.2 ⟨inner, hplace, hfolder⟩, rfl⟩

/-! ## In which order -/

mutual

theorem pairwise_walk : (node : Node) →
    node.walk.Pairwise fun visit later => Earlier visit.place later.place
  | .file _ => List.pairwise_singleton _ _
  | .link _ => List.pairwise_singleton _ _
  | .folder entries => by
    rw [Node.walk, List.pairwise_cons, List.pairwise_flatMap]
    refine ⟨?_, ?_, ?_⟩
    · intro visit hvisit
      obtain ⟨branch, -, hbranch⟩ := List.mem_flatMap.1 hvisit
      obtain ⟨inner, -, rfl⟩ := List.mem_map.1 hbranch
      exact List.Lex.nil
    · intro branch hbranch
      have hmem := mem_of_lookup_eq_some (mem_byName.1 hbranch)
      exact List.pairwise_map.2 ((pairwise_branches entries branch hmem).imp List.Lex.cons)
    · refine (pairwise_byName (branches entries)).imp ?_
      intro first second hnames visit hvisit other hother
      obtain ⟨visit, -, rfl⟩ := List.mem_map.1 hvisit
      obtain ⟨other, -, rfl⟩ := List.mem_map.1 hother
      exact List.Lex.rel hnames

theorem pairwise_branches : (entries : Entries) → ∀ branch ∈ branches entries,
    branch.2.Pairwise fun visit later => Earlier visit.place later.place
  | [] => by
    intro branch h
    cases h
  | (name, node) :: rest => by
    intro branch h
    rw [branches, List.mem_cons] at h
    rcases h with rfl | h
    · exact pairwise_walk node
    · exact pairwise_branches rest branch h

end

theorem Earlier.ne {place other : List Name} (h : Earlier place other) : place ≠ other := by
  rintro rfl
  exact List.lex_irrefl Name.not_precedes_self _ h

end SourceAudit
