import SourceAudit.FileTree.Resolve
import SourceAudit.Proofs.FileTree.Walk

/-!
# Trees with other contents

A tree in which files have other contents, and everything else is as it was. Paths lead where they
led, links included, and a walk comes to the same places, so only who reads a file can tell.

    (t.mapFiles f).find p = t.find p                                              (find_mapFiles)
    (node.mapFiles f).walk = node.walk                                            (walk_mapFiles)
-/

namespace SourceAudit

/-! ## Algorithm -/

mutual

/-- The node with other content in its files. The content of a file may depend on its place. -/
def Node.mapFiles (f : List Name → List UInt8 → List UInt8) : Node → Node
  | .file content => .file (f [] content)
  | .link goal => .link goal
  | .folder entries => .folder (Entries.mapFiles f entries)

def Entries.mapFiles (f : List Name → List UInt8 → List UInt8) : Entries → Entries
  | [] => []
  | (name, node) :: rest =>
    (name, node.mapFiles fun place => f (name :: place)) :: Entries.mapFiles f rest

end

def FileTree.mapFiles (f : List Name → List UInt8 → List UInt8) (t : FileTree) : FileTree :=
  { t with top := t.top.mapFiles f }

/-! ## Lemmas -/

variable {f : List Name → List UInt8 → List UInt8}

theorem lookup_mapFiles (f : List Name → List UInt8 → List UInt8) (entries : Entries)
    (name : Name) :
    (entries.mapFiles f).lookup name =
      (entries.lookup name).map (Node.mapFiles fun place => f (name :: place)) := by
  induction entries with
  | nil => rfl
  | cons entry rest ih =>
    obtain ⟨other, node⟩ := entry
    rw [Entries.mapFiles, lookup_cons_entry, lookup_cons_entry, ih]
    split
    · next h => rw [h, Option.map_some]
    · rfl

theorem Node.at?_mapFiles (f : List Name → List UInt8 → List UInt8) (node : Node)
    (place : List Name) :
    (node.mapFiles f).at? place =
      (node.at? place).map (Node.mapFiles fun more => f (place ++ more)) := by
  induction place generalizing f node with
  | nil => simp
  | cons name place ih =>
    cases node with
    | file content => rfl
    | link goal => rfl
    | folder entries =>
      simp only [Node.mapFiles, Node.at?, lookup_mapFiles]
      cases entries.lookup name with
      | none => rfl
      | some inner => exact ih _ inner

theorem FileTree.at?_root_mapFiles (t : FileTree) (place : List Name) :
    (t.mapFiles f).root.at? place =
      (t.root.at? place).map (Node.mapFiles fun more => f (place ++ more)) :=
  t.root.at?_mapFiles f place

/-! ## Where paths lead -/

namespace FileTree

theorem advance_mapFiles (root : Node)
    {follow other : List Name → List Step → Except AccessError (List Name)}
    (hf : ∀ here steps, other here steps = follow here steps) (here : List Name)
    (steps : List Step) :
    advance (root.mapFiles f) other here steps = advance root follow here steps := by
  induction steps generalizing here with
  | nil => rfl
  | cons step rest ih =>
    rw [advance, advance, Node.at?_mapFiles]
    cases root.at? here with
    | none => rfl
    | some node =>
      cases node with
      | file content => rfl
      | link goal => rfl
      | folder entries =>
        simp only [Option.map_some, Node.mapFiles]
        cases step with
        | stay => exact ih here
        | up => exact ih here.dropLast
        | into name =>
          simp only [lookup_mapFiles]
          cases entries.lookup name with
          | none => rfl
          | some inner =>
            cases inner with
            | file content => exact ih (here ++ [name])
            | folder inner => exact ih (here ++ [name])
            | link goal =>
              simp only [Option.map_some, Node.mapFiles, hf]

theorem locate_mapFiles (root : Node) (links : Nat) (here : List Name) (steps : List Step) :
    locate (root.mapFiles f) links here steps = locate root links here steps := by
  induction links generalizing here steps with
  | zero => exact advance_mapFiles root (fun _ _ => rfl) here steps
  | succ links ih => exact advance_mapFiles root ih here steps

theorem find_mapFiles (t : FileTree) (p : Path) : (t.mapFiles f).find p = t.find p := by
  unfold find
  cases Path.steps? p with
  | none => rfl
  | some steps =>
    dsimp only
    split
    · rfl
    · exact locate_mapFiles t.root linkLimit (start t.home p) steps

theorem exists_node?_mapFiles (f : List Name → List UInt8 → List UInt8) (t : FileTree) (p : Path) :
    ∃ g, (t.mapFiles f).node? p = (t.node? p).map (Node.mapFiles g) := by
  have hrefused : (t.mapFiles f).refused = t.refused := rfl
  unfold node?
  rw [find_mapFiles, hrefused]
  cases t.refused .status p with
  | some cause => exact ⟨f, rfl⟩
  | none =>
    cases t.find p with
    | error e => exact ⟨f, rfl⟩
    | ok place => exact ⟨_, t.at?_root_mapFiles place⟩

theorem isFile_mapFiles (t : FileTree) (p : Path) : (t.mapFiles f).isFile p = t.isFile p := by
  obtain ⟨g, hnode⟩ := exists_node?_mapFiles f t p
  rw [isFile, isFile, hnode]
  cases t.node? p with
  | none => rfl
  | some node => cases node <;> rfl

end FileTree

/-! ## What a walk comes to -/

mutual

theorem walk_mapFiles (f : List Name → List UInt8 → List UInt8) :
    (node : Node) → (node.mapFiles f).walk = node.walk
  | .file _ => rfl
  | .link _ => rfl
  | .folder entries => by
    rw [Node.mapFiles, Node.walk, Node.walk, branches_mapFiles f entries]

theorem branches_mapFiles (f : List Name → List UInt8 → List UInt8) :
    (entries : Entries) → branches (entries.mapFiles f) = branches entries
  | [] => rfl
  | (name, node) :: rest => by
    rw [Entries.mapFiles, branches, branches, branches_mapFiles f rest,
      walk_mapFiles (fun place => f (name :: place)) node]

end

end SourceAudit
