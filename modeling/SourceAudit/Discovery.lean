import SourceAudit.FileTree.Resolve
import SourceAudit.FileTree.Walk
import SourceAudit.Finding
import SourceAudit.Settings.Basic

/-!
# Finding the files to check

Every root is looked up below the base directory. A root that is no directory is reported as
missing. Below the others every file with an allowed extension is a target, in the order of the
walk; a link to a file is a file. A folder that cannot be listed ends the search.
-/

namespace SourceAudit

/-! ## Algorithm -/

/-- Why a run ends before there is a report. -/
inductive LintError
  | settings (cause : SettingsError)
  | walk (path : Path) (cause : AccessError)
  | outsideRoot (path root : Path)
deriving DecidableEq

def LintError.message : LintError → Text
  | .settings cause => cause.message
  | .walk path cause =>
    "failed to walk source tree: IO error for operation on " ++ Utf8.lossy path ++ ": " ++
      cause.message
  | .outsideRoot path root => Utf8.lossy path ++ " is not below root " ++ Utf8.lossy root

structure Discovery where
  targets : List Target
  missingRoots : List Text
deriving DecidableEq

/-- An empty list allows every file. Dots in front of a listed extension do not count, and an
extension that is no text is not listed. -/
def extensionAllowed (extensions : List Text) (path : Path) : Bool :=
  extensions.isEmpty ||
    match (Path.extension? path).bind Utf8.decode? with
    | some x => extensions.any fun e => e.dropWhile (· == '.') == x
    | none => false

/-- The path of a place below a directory. -/
def Path.descend (directory : Path) (place : List Name) : Path :=
  place.foldl (fun p name => Path.join p name.bytes) directory

/-- Where a root is looked up. -/
def rootPath (base : Path) (root : Text) : Path := Path.join base (Utf8.encode root)

/-- A file found below a root. -/
def foundTarget (base : Path) (root : Text) (path : Path) : Except LintError Target :=
  match Path.below? (rootPath base root) path with
  | some relative => .ok ⟨path, Utf8.lossy (Path.join (Utf8.encode root) relative), relative⟩
  | none => .error (.outsideRoot path (rootPath base root))

/-- What the search takes from an entry of the walk below a root. -/
def takeVisit (tree : FileTree) (base : Path) (extensions : List Text) (root : Text)
    (visit : Visit) : Except LintError (Option Target) :=
  let path := Path.descend (rootPath base root) visit.place
  if visit.isFolder then
    match tree.refused .listing path with
    | some cause => .error (.walk path cause)
    | none => .ok none
  else if tree.isFile path && extensionAllowed extensions path then
    some <$> foundTarget base root path
  else .ok none

/-- The targets below one root, if it is a directory. -/
def discoverRoot (tree : FileTree) (base : Path) (extensions : List Text) (root : Text) :
    Except LintError (Option (List Target)) :=
  match tree.node? (rootPath base root) with
  | some (.folder entries) => do
    let found ← (Node.folder entries).walk.mapM (takeVisit tree base extensions root)
    return some (found.filterMap id)
  | _ => .ok none

def discover (tree : FileTree) (base : Path) (extensions : List Text) :
    List Text → Except LintError Discovery
  | [] => .ok ⟨[], []⟩
  | root :: roots => do
    let here ← discoverRoot tree base extensions root
    let rest ← discover tree base extensions roots
    match here with
    | some targets => return { rest with targets := targets ++ rest.targets }
    | none => return { rest with missingRoots := root :: rest.missingRoots }

end SourceAudit
