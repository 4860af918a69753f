import SourceAudit.Check.Coverage
import SourceAudit.Check.Header

/-!
# Settings

What the checks look for and where. Settings are usable when the header template can be made, both
thresholds are percentages, and the two rows of a coverage summary differ; `validate` reports the
first of these that fails.

    s.validate = .ok () ↔ s.Usable                                         (validate_eq_ok_iff)
-/

namespace SourceAudit

/-! ## Algorithm -/

structure CopyrightSettings where
  roots : List Text
  extensions : List Text
  header : Text
  copyrightLine : Nat
  lead : Text
  requireYear : Bool
deriving DecidableEq

structure GuardSettings where
  roots : List Text
  extensions : List Text
  lead : Text
deriving DecidableEq

structure CoverageSettings where
  lines : Binary64
  functions : Binary64
  mode : ThresholdMode
  linesRow : Nat
  functionsRow : Nat
deriving DecidableEq

structure Settings where
  copyright : CopyrightSettings
  guards : GuardSettings
  coverage : CoverageSettings
deriving DecidableEq

def CopyrightSettings.default : CopyrightSettings where
  roots := ["include", "src", "test"]
  extensions := ["h", "cc"]
  header := standardHeader
  copyrightLine := 1
  lead := standardRule.lead
  requireYear := standardRule.requireYear

def GuardSettings.default : GuardSettings where
  roots := ["include"]
  extensions := ["h"]
  lead := "_"

def CoverageSettings.default : CoverageSettings where
  lines := .hundred
  functions := .hundred
  mode := .atLeast
  linesRow := 2
  functionsRow := 3

def Settings.default : Settings := ⟨.default, .default, .default⟩

/-- The sections of a settings file that name directories. -/
inductive RootSection
  | copyright
  | guards
deriving DecidableEq

def RootSection.name : RootSection → Text
  | .copyright => "copyright"
  | .guards => "guards"

/-- Why settings cannot be had or cannot be used. -/
inductive SettingsError
  | unreadable (path : Path) (cause : AccessError)
  | malformed (path : Path)
  | template (cause : TemplateError)
  | thresholdOutOfRange (metric : Metric) (value : Binary64)
  | sameRow (row : Nat)
  | noRoots (part : RootSection)
deriving DecidableEq

def SettingsError.message : SettingsError → Text
  | .unreadable path cause =>
    "failed to read config file " ++ Utf8.lossy path ++ ": " ++ cause.message
  | .malformed path => "failed to parse config file " ++ Utf8.lossy path
  | .template cause => "invalid configuration: " ++ cause.message
  | .thresholdOutOfRange metric value =>
    "invalid configuration: coverage." ++ metric.name ++ " must be between 0 and 100, got " ++
      value.shortest
  | .sameRow row =>
    "invalid configuration: coverage.lines_row and coverage.functions_row are both " ++
      Text.ofNat row
  | .noRoots part => "invalid configuration: " ++ part.name ++ ".roots must not be empty"

def CopyrightSettings.template? (s : CopyrightSettings) : Except TemplateError HeaderTemplate :=
  HeaderTemplate.ofText? s.header s.copyrightLine ⟨s.lead, s.requireYear⟩

def CoverageSettings.thresholds (s : CoverageSettings) : CoverageThresholds :=
  ⟨s.lines, s.functions, s.mode⟩

def CoverageSettings.rows (s : CoverageSettings) : SummaryRows := ⟨s.linesRow, s.functionsRow⟩

/-- From nought to a hundred; no NaN is. -/
def Binary64.isPercentage (x : Binary64) : Bool := .zero false ≤ x && x ≤ .hundred

/-- The first reason why no run could use the settings. -/
def Settings.validate (s : Settings) : Except SettingsError Unit :=
  match s.copyright.template? with
  | .error e => .error (.template e)
  | .ok _ =>
    if !s.coverage.lines.isPercentage then
      .error (.thresholdOutOfRange .lines s.coverage.lines)
    else if !s.coverage.functions.isPercentage then
      .error (.thresholdOutOfRange .functions s.coverage.functions)
    else if s.coverage.linesRow = s.coverage.functionsRow then
      .error (.sameRow s.coverage.linesRow)
    else .ok ()

/-- What settings need in order to be used. -/
structure Settings.Usable (s : Settings) : Prop where
  template : ∃ t, s.copyright.template? = .ok t
  lines : s.coverage.lines.isPercentage = true
  functions : s.coverage.functions.isPercentage = true
  rows : s.coverage.linesRow ≠ s.coverage.functionsRow

/-! ## Lemmas -/

theorem Settings.validate_eq_ok_iff {s : Settings} : s.validate = .ok () ↔ s.Usable := by
  unfold Settings.validate
  constructor
  · intro h
    split at h
    · cases h
    · next t ht =>
      split at h
      · cases h
      · next hl =>
        split at h
        · cases h
        · next hf =>
          split at h
          · cases h
          · next hr => exact ⟨⟨t, ht⟩, by simpa using hl, by simpa using hf, hr⟩
  · rintro ⟨⟨t, ht⟩, hl, hf, hr⟩
    simp [ht, hl, hf, hr]

end SourceAudit
