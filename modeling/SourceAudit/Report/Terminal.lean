import SourceAudit.Report.Basic
import SourceAudit.Text.Lines
import SourceAudit.Time.Instant

/-!
# Reports for the terminal

A head with the directory and the time, a section for each kind of check, and a foot with counts
and exit code. Colour, detail and selection are matters of style: a quiet report shows only what
needs attention, and a kind without anything to show has no section.

    style.sectionOf kind findings is empty, or it is the heading of the kind and the entries of the
      findings that the style shows                                              (sectionOf_eq)
-/

namespace SourceAudit

/-! ## Algorithm -/

structure TerminalStyle where
  color : Bool
  verbose : Bool
  quiet : Bool
deriving DecidableEq

def CheckKind.heading : CheckKind → Text
  | .copyright => "COPYRIGHT HEADERS"
  | .guards => "HEADER GUARDS"
  | .coverage => "COVERAGE"

namespace Outcome

/-- The word that stands for a status. -/
def label : Outcome → Text
  | .pass .. => "[PASS]"
  | .warn .. => "[WARN]"
  | .fail .. => "[FAIL]"
  | .skip .. => "[SKIP]"

/-- The number of the colour of a status. -/
def colorCode : Outcome → Text
  | .pass .. => "32"
  | .warn .. => "33"
  | .fail .. => "31"
  | .skip .. => "90"

/-- Outcomes that a quiet report shows. -/
def needsAttention (o : Outcome) : Bool := o.isFailure || o.isWarning

end Outcome

/-- Text between the escape sequences that set a colour and reset it. -/
def colored (code t : Text) : Text := "\x1b[" ++ code ++ "m" ++ t ++ "\x1b[0m"

/-- Every line of a text, set in. -/
def indented (t : Text) : Text :=
  (Text.lines t).flatMap fun line => "         " ++ line ++ "\n"

namespace TerminalStyle

def shows (style : TerminalStyle) (f : Finding) : Bool :=
  !style.quiet || f.outcome.needsAttention

def label (style : TerminalStyle) (o : Outcome) : Text :=
  if style.color then colored o.colorCode o.label else o.label

/-- How long something took, where the style asks for it. -/
def timeNote (style : TerminalStyle) (time : UInt64) : Text :=
  if style.verbose then " (" ++ Text.ofNat time.toNat ++ "ms)" else []

/-- What a finding says behind its label, and the text set in below. -/
def content (style : TerminalStyle) (f : Finding) : Text × Text :=
  match f.outcome with
  | .pass message time =>
    (f.target ++ (if style.verbose then ": " ++ message ++ style.timeNote time else []), [])
  | .warn message details => (f.target ++ ": " ++ message, if style.verbose then details else [])
  | .fail message details time => (message ++ style.timeNote time, details)
  | .skip reason => (f.target ++ ": " ++ reason, [])

/-- The lines of a finding. -/
def entry (style : TerminalStyle) (f : Finding) : Text :=
  let (line, below) := style.content f
  "  " ++ style.label f.outcome ++ " " ++ line ++ "\n" ++ indented below

/-- The section of a kind: nothing if there is nothing to show. -/
def sectionOf (style : TerminalStyle) (kind : CheckKind) (findings : List Finding) : Text :=
  match findings.filter style.shows with
  | [] => []
  | shown => kind.heading ++ "\n" ++ shown.flatMap style.entry ++ "\n"

end TerminalStyle

/-- What the exit code means. -/
def Summary.verdict (s : Summary) : Text :=
  if 0 < s.failed then "failures detected" else "all checks passed"

def divider : Text := List.replicate 80 '-'

namespace Report

def terminalHead (r : Report) (timestamp : Timestamp) : Text :=
  divider ++ "\nscl-lint report\nDirectory: " ++ r.baseDir ++ "\nTimestamp: " ++ timestamp.plain ++
    "\n" ++ divider ++ "\n\n"

def terminalBody (r : Report) (style : TerminalStyle) : Text :=
  CheckKind.all.flatMap fun kind => style.sectionOf kind (r.byKind kind)

def terminalFoot (r : Report) : Text :=
  let s := r.summary
  divider ++ "\nSUMMARY: " ++ Text.ofNat s.passed.toNat ++ " passed, " ++
    Text.ofNat s.warned.toNat ++ " warnings, " ++ Text.ofNat s.failed.toNat ++ " failed, " ++
    Text.ofNat s.skipped.toNat ++ " skipped\nTotal time: " ++ secondsText 1 r.time ++
    "s\nExit code: " ++ Text.ofNat s.exitCode ++ " (" ++ s.verdict ++ ")\n" ++ divider

def terminal (r : Report) (style : TerminalStyle) (timestamp : Timestamp) : Text :=
  r.terminalHead timestamp ++ r.terminalBody style ++ r.terminalFoot

end Report

/-! ## Lemmas -/

theorem TerminalStyle.sectionOf_eq (style : TerminalStyle) (kind : CheckKind)
    (findings : List Finding) :
    style.sectionOf kind findings =
      if findings.filter style.shows = [] then []
      else (kind.heading ++ "\n" ++ (findings.filter style.shows).flatMap style.entry ++ "\n" :
        Text) := by
  unfold sectionOf
  split
  · next hnone => rw [if_pos hnone]
  · next hsome => rw [if_neg hsome]

end SourceAudit
