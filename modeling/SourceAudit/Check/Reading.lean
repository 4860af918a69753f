import SourceAudit.FileTree.Resolve
import SourceAudit.Finding

/-!
# Checks that read their target

A target that cannot be read is a failure of its own; no check sees it.
-/

namespace SourceAudit

/-- What a check says of a target's text. -/
def Target.judge (tree : FileTree) (target : Target) (verdict : Text → Outcome) : Outcome :=
  match tree.readText target.path with
  | .ok text => verdict text
  | .error e => .fail (target.display ++ " could not be read") e.message 0

end SourceAudit
