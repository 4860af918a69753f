import SourceAudit.FileTree.Basic

/-!
# Walking a tree

A walk comes to every entry below a folder that real folders lead to: to a folder before what is in
it, and to the entries of a folder in the order of their names. A link is an entry and is not
entered.
-/

namespace SourceAudit

/-- An entry that a walk comes to. -/
structure Visit where
  /-- The place of the entry below the folder where the walk begins. -/
  place : List Name
  isFolder : Bool
deriving DecidableEq

/-- The same entry when the walk begins one folder above. -/
def Visit.inside (name : Name) (visit : Visit) : Visit := ⟨name :: visit.place, visit.isFolder⟩

mutual

def Node.walk : Node → List Visit
  | .file _ => [⟨[], false⟩]
  | .link _ => [⟨[], false⟩]
  | .folder entries =>
    ⟨[], true⟩ :: (byName (branches entries)).flatMap fun branch => branch.2.map (.inside branch.1)

/-- Every entry with the walk that begins there. -/
def branches : List (Name × Node) → List (Name × List Visit)
  | [] => []
  | (name, node) :: rest => (name, node.walk) :: branches rest

end

end SourceAudit
