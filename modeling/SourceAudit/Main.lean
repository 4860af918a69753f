import SourceAudit.CommandLine.Program
import SourceAudit.FileTree.Edit
import Std.Time.DateTime.Timestamp

/-!
# Entry point

What an answer may depend on is copied from the machine into a file tree, twice, because the second
time the settings are known that name the roots. What the machine refuses to show is closed in the
tree. The answer is then worked out and printed.
-/

namespace SourceAudit.Main

/-- What kind of entry is at a path, if there is one. A link is not followed. -/
def kind? (path : String) : IO (Option IO.FS.FileType) := do
  let here ← IO.currentDir
  try
    return some (← (here / path).symlinkMetadata).type
  catch _ => return none

/-- The place that a link leads to, if it leads somewhere. -/
def goal? (path : String) : IO (Option String) := do
  try
    return some (← IO.FS.realPath path).toString
  catch _ => return none

/-- Why something cannot be read. The machine does not tell all causes apart. -/
def refusal : IO.Error → AccessError
  | .permissionDenied .. => .denied
  | _ => .other 5 "Input/output error"

def copyFile (tree : FileTree) (path : String) : IO FileTree := do
  try
    return tree.writeFile path (← IO.FS.readBinFile path).toList
  catch e => return (tree.writeFile path []).close path .content (refusal e)

/-- Copy a link, and what it leads to without going further. -/
def copyLink (tree : FileTree) (path : String) : IO FileTree := do
  match ← goal? path with
  | none => return tree.makeLink path ""
  | some goal =>
    let tree := tree.makeLink path goal
    match ← kind? goal with
    | some .file => copyFile tree goal
    | some .dir => return tree.makeFolder goal
    | _ => return tree

/-- Copy what is at a path without links, and all that is below it. -/
partial def copy (tree : FileTree) (path : String) : IO FileTree := do
  match ← kind? path with
  | some .file => copyFile tree path
  | some .symlink => copyLink tree path
  | some .dir =>
    let here ← IO.currentDir
    let tree := tree.makeFolder path
    try
      let entries ← (here / path).readDir
      entries.foldlM (fun tree entry => copy tree (path ++ "/" ++ entry.fileName)) tree
    catch e => return tree.close path .listing (refusal e)
  | _ => return tree

/-- Copy what steps lead to from a folder, and every link on the way. -/
partial def follow (tree : FileTree) (here : String) : List Step → IO FileTree
  | [] => copy tree here
  | .stay :: rest => follow tree here rest
  | .up :: rest => do follow tree ((← goal? (here ++ "/..")).getD here) rest
  | .into name :: rest => do
    let path := here ++ "/" ++ String.ofList (Utf8.lossy name.bytes)
    match ← kind? path with
    | some .symlink =>
      let tree ← copyLink tree path
      match ← goal? path with
      | some goal => follow tree goal rest
      | none => return tree
    | some .dir => follow (tree.makeFolder path) path rest
    | _ => copy tree path

def copyPath (home : String) (tree : FileTree) (path : Path) : IO FileTree :=
  match Path.steps? path with
  | some steps => follow tree (if Path.isAbsolute path then "" else home) steps
  | none => return tree

def now : IO Timestamp := do
  let t ← Std.Time.Timestamp.now
  let nanoseconds := t.toNanosecondsSinceUnixEpoch.val
  let instant : Instant := ⟨nanoseconds / 1000000000, (nanoseconds % 1000000000).toNat⟩
  return instant.timestamp

/-- Answer the arguments and give the exit code. -/
def run (arguments : List String) : IO UInt32 := do
  let start ← IO.monoMsNow
  let home := (← IO.FS.realPath (← IO.currentDir)).toString
  let place := (Text.splitOn Path.slash (home : Path)).filterMap Name.ofBytes?
  let terminal ← (← IO.getStdout).isTty
  let bare : Surroundings := {
    tree := FileTree.makeFolder { top := [], home := place, refused := refusedTooLong } home
    arguments := arguments.map String.toList
    configVariable := (← IO.getEnv "SCL_LINT_CONFIG").map String.toList
    colorful := terminal && (← IO.getEnv "NO_COLOR").isNone
    cores := none }
  let settled := { bare with tree := ← bare.paths.foldlM (copyPath home) bare.tree }
  let full := { settled with tree := ← settled.paths.foldlM (copyPath home) settled.tree }
  let answer := Program.answer full
  let output := answer.output (← now) (.ofNat ((← IO.monoMsNow) - start))
  (← IO.getStdout).putStr (String.ofList output.out)
  (← IO.getStderr).putStr (String.ofList output.err)
  return UInt32.ofNat output.exitCode

end SourceAudit.Main

def main (arguments : List String) : IO UInt32 := SourceAudit.Main.run arguments
