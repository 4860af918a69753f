import SourceAudit.Check.Reading
import SourceAudit.Number.Decimal
import SourceAudit.Number.Shown
import SourceAudit.Text.DecimalDigit
import SourceAudit.Text.Letter
import SourceAudit.Text.Lines
import SourceAudit.Text.Pattern
import SourceAudit.Text.Quoted

/-!
# Coverage thresholds

A coverage summary has one row for lines and one for functions. The first percentage of a row
counts: one to three digits, perhaps a point and more digits, and a percent sign. Digits of every
script make a percentage; only ASCII digits make a number of it.

    meets is monotone in the measured value and antitone in the threshold
                                                              (ThresholdMode.meets_of_le_of_le)
-/

namespace SourceAudit

/-! ## Algorithm -/

inductive Metric
  | lines
  | functions
deriving DecidableEq

def Metric.name : Metric → Text
  | .lines => "lines"
  | .functions => "functions"

/-- Where the rows of a summary are, counted from zero. -/
structure SummaryRows where
  lines : Nat
  functions : Nat
deriving DecidableEq

inductive CoverageError
  | missingRow (row : Nat) (metric : Metric)
  | unexpectedRow (row : Nat) (metric : Metric) (text : Text)
  | noPercentage (row : Nat) (metric : Metric) (text : Text)
deriving DecidableEq

def CoverageError.message : CoverageError → Text
  | .missingRow row metric =>
    "malformed coverage report: row " ++ Text.ofNat row ++ " (" ++ metric.name ++ ") is missing"
  | .unexpectedRow row metric text =>
    "malformed coverage report: row " ++ Text.ofNat row ++ " is not the " ++ metric.name ++
      " entry: " ++ Text.quoted text
  | .noPercentage row metric text =>
    "malformed coverage report: no percentage on row " ++ Text.ofNat row ++ " (" ++ metric.name ++
      "): " ++ Text.quoted text

/-- One to three digits, and perhaps a point and more digits. -/
def percentage : Pattern :=
  .seq (.repeated Text.isDecimalDigit 1 (some 3))
    (.optional (.seq (.one (· == '.')) (.repeated Text.isDecimalDigit 1 none)))

def percentSign : Pattern := .one (· == '%')

/-- The first percentage in a text, without its sign. -/
def firstPercentage? (t : Text) : Option Pattern.Found := percentage.search? percentSign t

/-- The percentage in the row of a metric. The row must name the metric, in capitals or not. -/
def extract (rows : List Text) (row : Nat) (metric : Metric) : Except CoverageError Binary64 :=
  match rows[row]? with
  | none => .error (.missingRow row metric)
  | some text =>
    if Text.mentions (Text.lower text) metric.name then
      match (firstPercentage? text).bind fun found => Decimal.readBinary64? found.token with
      | some x => .ok x
      | none => .error (.noPercentage row metric text)
    else .error (.unexpectedRow row metric text)

/-- Percentages, measured or required. -/
structure CoverageSummary where
  lines : Binary64
  functions : Binary64
deriving DecidableEq

def CoverageSummary.ofText? (text : Text) (rows : SummaryRows) :
    Except CoverageError CoverageSummary := do
  let all := Text.lines text
  let lines ← extract all rows.lines .lines
  let functions ← extract all rows.functions .functions
  return ⟨lines, functions⟩

inductive ThresholdMode
  | atLeast
  | above
deriving DecidableEq

namespace ThresholdMode

def meets (mode : ThresholdMode) (value threshold : Binary64) : Bool :=
  match mode with
  | .atLeast => threshold ≤ value
  | .above => threshold < value

def operator : ThresholdMode → Text
  | .atLeast => ">="
  | .above => ">"

/-- The name on the command line and in the settings. -/
def name : ThresholdMode → Text
  | .atLeast => "at-least"
  | .above => "above"

def ofName? (t : Text) : Option ThresholdMode :=
  if t = name .atLeast then some .atLeast
  else if t = name .above then some .above
  else none

end ThresholdMode

structure CoverageThresholds where
  lines : Binary64
  functions : Binary64
  mode : ThresholdMode
deriving DecidableEq

structure MetricVerdict where
  metric : Metric
  value : Binary64
  threshold : Binary64
  met : Bool
deriving DecidableEq

structure CoverageVerdict where
  lines : MetricVerdict
  functions : MetricVerdict
  mode : ThresholdMode
deriving DecidableEq

def CoverageVerdict.passed (v : CoverageVerdict) : Bool := v.lines.met && v.functions.met

def MetricVerdict.text (m : MetricVerdict) (mode : ThresholdMode) : Text :=
  m.metric.name ++ " coverage " ++ m.value.fixed 1 ++ "% (required " ++ mode.operator ++ " " ++
    m.threshold.fixed 1 ++ "%)" ++ (if m.met then [] else (" not met" : Text))

def CoverageVerdict.text (v : CoverageVerdict) : Text :=
  List.intercalate "; " [v.lines.text v.mode, v.functions.text v.mode]

def CoverageSummary.evaluate (s : CoverageSummary) (t : CoverageThresholds) : CoverageVerdict where
  lines := ⟨.lines, s.lines, t.lines, t.mode.meets s.lines t.lines⟩
  functions := ⟨.functions, s.functions, t.functions, t.mode.meets s.functions t.functions⟩
  mode := t.mode

/-- What is said of a target that was read as a coverage summary. -/
def Target.coverageOutcome (target : Target) (thresholds : CoverageThresholds) :
    Except CoverageError CoverageSummary → Outcome
  | .error e => .fail (target.display ++ " is not a coverage summary") e.message 0
  | .ok summary =>
    let verdict := summary.evaluate thresholds
    if verdict.passed then .pass verdict.text 0 else .fail "Coverage not met" verdict.text 0

def inspectCoverage (rows : SummaryRows) (thresholds : CoverageThresholds) (tree : FileTree)
    (target : Target) : Outcome :=
  target.judge tree fun content =>
    target.coverageOutcome thresholds (CoverageSummary.ofText? content rows)

/-! ## Lemmas -/

theorem ThresholdMode.meets_of_le_of_le {mode : ThresholdMode} {value value' threshold threshold' :
    Binary64} (h : mode.meets value threshold = true) (hv : value ≤ value')
    (ht : threshold' ≤ threshold) : mode.meets value' threshold' = true := by
  cases mode with
  | atLeast =>
    simp only [meets, decide_eq_true_eq] at h ⊢
    exact Binary64.le_trans (Binary64.le_trans ht h) hv
  | above =>
    simp only [meets, decide_eq_true_eq] at h ⊢
    exact Binary64.lt_of_lt_of_le (Binary64.lt_of_le_of_lt ht h) hv

@[simp] theorem ThresholdMode.ofName?_name (mode : ThresholdMode) :
    ofName? mode.name = some mode := by
  cases mode <;> decide

end SourceAudit
