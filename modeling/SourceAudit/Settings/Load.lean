import SourceAudit.Settings.Decode

/-!
# Where settings come from

A settings file that was asked for must be there. Otherwise the file `scl-lint.toml` of the base
directory counts if there is one, and the defaults if there is none.
-/

namespace SourceAudit.Settings

/-- The settings file of a directory. -/
def fileName : Path := "scl-lint.toml"

def load (tree : FileTree) (path : Path) : Except SettingsError Settings :=
  match tree.readText path with
  | .ok text => ofText? text path
  | .error e => .error (.unreadable path e)

def loadOrDefault (tree : FileTree) (base : Path) (asked : Option Path) :
    Except SettingsError Settings :=
  match asked with
  | some path => load tree path
  | none =>
    let candidate := Path.join base fileName
    if tree.isFile candidate then load tree candidate else .ok .default

end SourceAudit.Settings
