import SourceAudit.Markup.Element
import SourceAudit.Report.Basic

/-!
# Reports for test runners

A JUnit document: every kind of check with findings is a test suite, and every finding a test case
with one element that tells its outcome. Times are in seconds with three places.
-/

namespace SourceAudit

open Markup

/-- The element that tells an outcome. -/
def Outcome.element : Outcome → Element
  | .pass message _ => .leaf "system-out" [] message
  | .warn message details => .leaf "system-out" [] ("WARNING: " ++ message ++ " - " ++ details)
  | .fail message details _ => .leaf "failure" [⟨"message", message⟩] details
  | .skip reason => .void "skipped" [⟨"message", reason⟩]

def Finding.testCase (f : Finding) : Element :=
  .group "testcase"
    [⟨"name", f.target⟩, ⟨"classname", "scl-lint." ++ f.kind.id⟩,
      ⟨"time", secondsText 3 f.outcome.time⟩]
    [f.outcome.element]

/-- What is counted of test cases. -/
def countAttributes (tests failures skipped : Nat) (time : UInt64) : List Attribute := [
  ⟨"tests", Text.ofNat tests⟩, ⟨"failures", Text.ofNat failures⟩, ⟨"errors", "0"⟩,
  ⟨"skipped", Text.ofNat skipped⟩, ⟨"time", secondsText 3 time⟩]

def testSuite (kind : CheckKind) (findings : List Finding) : Element :=
  .group "testsuite"
    (⟨"name", kind.id⟩ ::
      countAttributes findings.length (findings.countP (·.outcome.isFailure))
        (findings.countP (·.outcome.isSkip)) (totalTime findings))
    (findings.map Finding.testCase)

namespace Report

/-- The suites of a report: one for each kind that has a finding. -/
def testSuites (r : Report) : List Element :=
  (CheckKind.all.filter fun kind => !(r.byKind kind).isEmpty).map fun kind =>
    testSuite kind (r.byKind kind)

def junitElement (r : Report) : Element :=
  .group "testsuites"
    (countAttributes r.summary.total.toNat r.summary.failed.toNat r.summary.skipped.toNat r.time)
    r.testSuites

def junit (r : Report) : Text := document r.junitElement

end Report

end SourceAudit
