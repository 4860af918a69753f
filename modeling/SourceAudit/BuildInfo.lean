import SourceAudit.Text.Basic

/-!
# Version of the program
-/

namespace SourceAudit

/-- The version, what it was built for, and perhaps from what, when and with which compiler. -/
structure BuildInfo where
  version : Text
  target : Text
  commit : Option Text
  date : Option Text
  compiler : Option Text
deriving DecidableEq

/-- A part of the text that is left out where there is nothing to say. -/
def optionalText (start : Text) (t : Option Text) (stop : Text) : Text :=
  match t with
  | some t => start ++ t ++ stop
  | none => []

def BuildInfo.text (b : BuildInfo) : Text :=
  "scl-lint " ++ b.version ++ "\n" ++ optionalText "Commit: " b.commit "\n" ++
    optionalText "Built: " b.date "\n" ++ "Target: " ++ b.target ++
    optionalText "\nRustc: " b.compiler ""

def BuildInfo.current : BuildInfo := ⟨"0.1.0", "native", none, none, none⟩

end SourceAudit
