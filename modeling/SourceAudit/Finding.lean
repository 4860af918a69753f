import SourceAudit.Path

/-!
# Findings

A finding is what one check says about one target. Only a failure makes a run fail.
-/

namespace SourceAudit

inductive CheckKind
  | copyright
  | guards
  | coverage
deriving DecidableEq

namespace CheckKind

/-- Every kind, in the order of the report. -/
def all : List CheckKind := [.copyright, .guards, .coverage]

/-- The name on the command line and in a test suite. -/
def id : CheckKind → Text
  | .copyright => "copyright"
  | .guards => "guards"
  | .coverage => "coverage"

/-- The name in a JSON report. -/
def jsonName : CheckKind → Text
  | .copyright => "copyright"
  | .guards => "header-guard"
  | .coverage => "coverage"

def title : CheckKind → Text
  | .copyright => "Copyright Header"
  | .guards => "Header Guard"
  | .coverage => "Coverage Threshold"

end CheckKind

/-- What came of one check on one target. Times are in milliseconds. -/
inductive Outcome
  | pass (message : Text) (time : UInt64)
  | warn (message details : Text)
  | fail (message details : Text) (time : UInt64)
  | skip (reason : Text)
deriving DecidableEq

namespace Outcome

def isFailure : Outcome → Bool
  | .fail .. => true
  | _ => false

def status : Outcome → Text
  | .pass .. => "pass"
  | .warn .. => "warn"
  | .fail .. => "fail"
  | .skip .. => "skip"

def time : Outcome → UInt64
  | .pass _ time => time
  | .fail _ _ time => time
  | _ => 0

def text : Outcome → Text
  | .pass message _ => "PASS: " ++ message
  | .warn message details => "WARN: " ++ message ++ " (" ++ details ++ ")"
  | .fail message details _ => "FAIL: " ++ message ++ " (" ++ details ++ ")"
  | .skip reason => "SKIP: " ++ reason

end Outcome

structure Finding where
  kind : CheckKind
  target : Text
  outcome : Outcome
deriving DecidableEq

/-- A file that a check looks at: the path to open, the text to show for it, and the path below the
directory it was found under. -/
structure Target where
  path : Path
  display : Text
  relative : Path
deriving DecidableEq

/-- A target that was named and not found by looking for it. -/
def Target.named (path : Path) : Target :=
  ⟨path, Utf8.lossy path, (Path.fileName? path).getD []⟩

end SourceAudit
