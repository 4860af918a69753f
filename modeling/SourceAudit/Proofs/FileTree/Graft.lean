import SourceAudit.FileTree.Edit
import SourceAudit.Proofs.FileTree.Walk
import Mathlib.Data.List.Infix

/-!
# Trees made of files

A folder is made of files when these are all it holds, folders aside. Grafting puts one file into a
folder and keeps what neither contains its place nor lies on the way to it, so there is a folder
for all files of which none lies on the way to another.

    (entries.graft (some node) place).HasLeaf other inner ↔
      other = place ∧ inner = node ∨ other and place part, and entries.HasLeaf other inner
                                                                               (hasLeaf_graft)
    (∀ two of the files, their places part) → ∃ entries, entries.MadeOf files  (exists_madeOf)
-/

namespace SourceAudit

/-! ## The rule -/

/-- Something other than a folder is at the place below the folder of the entries. -/
def Entries.HasLeaf (entries : Entries) (place : List Name) (node : Node) : Prop :=
  (Node.folder entries).at? place = some node ∧ node.isFolder = false

/-- The files are what the folder holds, and all that it holds but folders. -/
def Entries.MadeOf (entries : Entries) (files : List (List Name × List UInt8)) : Prop :=
  ∀ place node, entries.HasLeaf place node ↔ ∃ file ∈ files, place = file.1 ∧ node = .file file.2

/-- Neither of two places lies on the way to the other. -/
def Parted (place other : List Name) : Prop := ¬ place <+: other ∧ ¬ other <+: place

instance (place other : List Name) : Decidable (Parted place other) :=
  inferInstanceAs (Decidable (_ ∧ _))

/-! ## Lemmas -/

theorem Parted.symm {place other : List Name} (h : Parted place other) : Parted other place :=
  ⟨h.2, h.1⟩

theorem parted_cons_cons {name m : Name} {place other : List Name} :
    Parted (name :: place) (m :: other) ↔ name ≠ m ∨ Parted place other := by
  unfold Parted
  rw [List.cons_prefix_cons, List.cons_prefix_cons]
  by_cases h : name = m
  · simp [h]
  · simp [h, Ne.symm h]

section Graft

variable {entries : Entries} {place other : List Name} {name m : Name} {node inner : Node}

theorem hasLeaf_nil : ¬ entries.HasLeaf [] node := by
  rintro ⟨hnode, hfolder⟩
  injection hnode with hnode
  rw [← hnode] at hfolder
  cases hfolder

theorem hasLeaf_cons : entries.HasLeaf (name :: place) node ↔
    ∃ next, entries.lookup name = some next ∧ next.at? place = some node ∧
      node.isFolder = false := by
  rw [Entries.HasLeaf, Node.at?, Option.bind_eq_some_iff]
  constructor
  · rintro ⟨⟨next, hnext, hplace⟩, hfolder⟩
    exact ⟨next, hnext, hplace, hfolder⟩
  · rintro ⟨next, hnext, hplace, hfolder⟩
    exact ⟨⟨next, hnext, hplace⟩, hfolder⟩

theorem lookup_filter_ne (h : m ≠ name) :
    (entries.filter (·.1 ≠ name)).lookup m = entries.lookup m := by
  induction entries with
  | nil => rfl
  | cons entry rest ih =>
    obtain ⟨n, next⟩ := entry
    by_cases hn : n = name
    · have hmn : m ≠ n := by rw [hn]; exact h
      rw [List.filter_cons_of_neg (by simp [hn]), ih, lookup_cons_entry, if_neg hmn]
    · rw [List.filter_cons_of_pos (by simp [hn]), lookup_cons_entry, lookup_cons_entry, ih]

/-- An entry put in place of those with its name. -/
theorem lookup_replace : List.lookup m ((name, node) :: entries.filter (·.1 ≠ name)) =
    if m = name then some node else entries.lookup m := by
  rw [lookup_cons_entry]
  split
  · rfl
  · next h => rw [lookup_filter_ne h]

/-- Only folders have something below them. -/
theorem at?_of_isFolder_eq_false (h : node.isFolder = false) :
    node.at? place = some inner ↔ place = [] ∧ inner = node := by
  cases place with
  | nil =>
    rw [Node.at?_nil, Option.some.injEq]
    simp [eq_comm]
  | cons name place =>
    cases node with
    | folder entries => cases h
    | file content => simp [Node.at?]
    | link goal => simp [Node.at?]

theorem hasLeaf_below (h : other ≠ []) :
    (entries.below name).HasLeaf other inner ↔ entries.HasLeaf (name :: other) inner := by
  obtain ⟨m, rest, rfl⟩ := List.exists_cons_of_ne_nil h
  have hempty : ¬ Entries.HasLeaf [] (m :: rest) inner := by
    rw [hasLeaf_cons]
    rintro ⟨next, hnext, -⟩
    cases hnext
  refine Iff.trans ?_ hasLeaf_cons.symm
  rw [Entries.below]
  cases entries.lookup name with
  | none => exact iff_of_false hempty (by simp)
  | some next =>
    cases next with
    | folder below => simp [Entries.HasLeaf]
    | file content => exact iff_of_false hempty (by simp [Node.at?])
    | link goal => exact iff_of_false hempty (by simp [Node.at?])

/-- What a graft leaves at the first name of its place. -/
def grafted (node : Node) (place : List Name) (below : Entries) : Node :=
  match place with
  | [] => node
  | _ :: _ => .folder (below.graft (some node) place)

theorem lookup_graft : (entries.graft (some node) (name :: place)).lookup m =
    if m = name then some (grafted node place (entries.below name)) else entries.lookup m := by
  cases place with
  | nil => exact lookup_replace
  | cons next place => exact lookup_replace

theorem hasLeaf_graft (hnode : node.isFolder = false) (hne : place ≠ []) :
    (entries.graft (some node) place).HasLeaf other inner ↔
      (other = place ∧ inner = node) ∨ (Parted other place ∧ entries.HasLeaf other inner) := by
  induction place generalizing entries other with
  | nil => exact absurd rfl hne
  | cons name place ih =>
    cases other with
    | nil =>
      have hparted : ¬ Parted [] (name :: place) := fun h => h.1 List.nil_prefix
      exact iff_of_false hasLeaf_nil (by simp [hparted])
    | cons m other =>
      rw [hasLeaf_cons, lookup_graft, parted_cons_cons]
      by_cases hm : m = name
      · subst hm
        cases place with
        | nil =>
          have hparted : ¬ Parted other [] := fun h => h.2 List.nil_prefix
          simp only [grafted, if_true, Option.some.injEq, exists_eq_left',
            at?_of_isFolder_eq_false hnode]
          constructor
          · rintro ⟨⟨rfl, rfl⟩, -⟩
            exact Or.inl ⟨rfl, rfl⟩
          · rintro (⟨h, rfl⟩ | ⟨h, -⟩)
            · injection h with _ h
              exact ⟨⟨h, rfl⟩, hnode⟩
            · exact absurd (h.resolve_left fun hne => hne rfl) hparted
        | cons next place =>
          simp only [grafted, if_true, Option.some.injEq, exists_eq_left']
          rw [← Entries.HasLeaf, ih (List.cons_ne_nil next place)]
          have hbelow : Parted other (next :: place) →
              ((entries.below m).HasLeaf other inner ↔ entries.HasLeaf (m :: other) inner) := by
            intro hparted
            refine hasLeaf_below ?_
            rintro rfl
            exact hparted.1 List.nil_prefix
          rw [and_congr_right hbelow]
          simp
      · rw [if_neg hm, ← hasLeaf_cons]
        simp [hm]

end Graft

/-! ## Top theorem -/

theorem exists_madeOf {files : List (List Name × List UInt8)} (hne : ∀ file ∈ files, file.1 ≠ [])
    (hparted : files.Pairwise fun f g => Parted f.1 g.1) :
    ∃ entries : Entries, entries.MadeOf files := by
  induction files with
  | nil =>
    refine ⟨[], fun place node => iff_of_false ?_ (by simp)⟩
    cases place with
    | nil => exact hasLeaf_nil
    | cons name place =>
      rw [hasLeaf_cons]
      rintro ⟨next, hnext, -⟩
      cases hnext
  | cons file files ih =>
    obtain ⟨hfirst, hrest⟩ := List.pairwise_cons.1 hparted
    obtain ⟨hfile, hmore⟩ := List.forall_mem_cons.1 hne
    obtain ⟨entries, hmade⟩ := ih hmore hrest
    refine ⟨entries.graft (some (.file file.2)) file.1, fun place node => ?_⟩
    rw [hasLeaf_graft rfl hfile, hmade, List.exists_mem_cons_iff]
    refine or_congr_right ⟨fun h => h.2, fun h => ⟨?_, h⟩⟩
    obtain ⟨other, hother, rfl, -⟩ := h
    exact (hfirst other hother).symm

end SourceAudit
