import SourceAudit.CommandLine.Request
import SourceAudit.Proofs.Settings
import SourceAudit.Proofs.Settings.Validation

/-!
# Flags over settings

The command line puts the mode and the two thresholds in the place of those of the settings and
leaves everything else as it is. Settings that were usable stay so just when the thresholds given
are numbers from 0 to 100; otherwise the first that is not is the error, lines before functions.
What the same arguments make of the new settings is the same request.

    a.request cores s = .ok r → a.Overrides s r.settings ∧ a.request cores r.settings = .ok r
                                                                  (request_overrides_what_is_given)
-/

namespace SourceAudit

/-! ## The rule -/

/-- If a flag gives a threshold, this is a number from 0 to 100. -/
def IsWithinHundredIfGiven (flag : Option Binary64) : Prop :=
  ∀ x, flag = some x → x.IsWithinHundred

/-- The mode and the thresholds are those of the flags where these are given. All other settings are
the old ones. -/
structure Arguments.Overrides (a : Arguments) (s t : Settings) : Prop where
  mode : t.coverage.mode = a.mode.getD s.coverage.mode
  lines : t.coverage.lines = a.lineThreshold.getD s.coverage.lines
  functions : t.coverage.functions = a.functionThreshold.getD s.coverage.functions
  rows : t.coverage.rows = s.coverage.rows
  copyright : t.copyright = s.copyright
  guards : t.guards = s.guards

/-- Does a command ask for checks of this kind? -/
def Command.Asks (c : Command) : CheckKind → Prop
  | .copyright => c = .headers ∨ ∃ report, c = .check report
  | .guards => c = .guards ∨ ∃ report, c = .check report
  | .coverage => ∃ report, c = .check (some report) ∨ c = .coverage report

/-- The kinds are those that the command asks for, in the order of the report, and the coverage
summary is the one that the command names. -/
structure RunRequest.Serves (r : RunRequest) (c : Command) : Prop where
  mem_kinds : ∀ kind, kind ∈ r.kinds ↔ c.Asks kind
  kinds_sublist : r.kinds.Sublist CheckKind.all
  report : ∀ path, r.coverageReport = some path ↔
    ∃ name, (c = .check (some name) ∨ c = .coverage name) ∧ Utf8.encode name = path
  coverage_mem : .coverage ∈ r.kinds ↔ r.coverageReport.isSome = true

/-! ## Thresholds -/

theorem isPercentage_getD_iff {flag : Option Binary64} {old : Binary64}
    (h : old.isPercentage = true) :
    (flag.getD old).isPercentage = true ↔ IsWithinHundredIfGiven flag := by
  cases flag with
  | none => exact iff_of_true h nofun
  | some x =>
    rw [Option.getD_some, Binary64.isPercentage_iff]
    constructor
    · rintro hx y hy
      cases hy
      exact hx
    · exact fun hgiven => hgiven x rfl

/-- Where a flag takes the place of a percentage and leaves none, the flag is to blame. -/
theorem thresholdOutOfRange_eq_iff {metric : Metric} {flag : Option Binary64} {old : Binary64}
    {e : SettingsError} (h : old.isPercentage = true)
    (hflag : ¬ (flag.getD old).isPercentage = true) :
    .thresholdOutOfRange metric (flag.getD old) = e ↔
      ∃ x, flag = some x ∧ ¬ x.IsWithinHundred ∧ e = .thresholdOutOfRange metric x := by
  cases flag with
  | none => exact absurd h hflag
  | some new =>
    rw [Option.getD_some, Binary64.isPercentage_iff] at hflag
    constructor
    · rintro rfl
      exact ⟨new, rfl, hflag, rfl⟩
    · rintro ⟨x, hx, -, rfl⟩
      rw [Option.some.inj hx, Option.getD_some]

/-! ## Requests -/

/-- With a template and rows that differ only the thresholds are left to look at. -/
theorem Settings.validate_eq_of_template {s : Settings} {template : HeaderTemplate}
    (h : s.copyright.template? = .ok template)
    (hrows : s.coverage.linesRow ≠ s.coverage.functionsRow) :
    s.validate =
      if s.coverage.lines.isPercentage = true then
        if s.coverage.functions.isPercentage = true then .ok ()
        else .error (.thresholdOutOfRange .functions s.coverage.functions)
      else .error (.thresholdOutOfRange .lines s.coverage.lines) := by
  unfold Settings.validate
  rw [h]
  dsimp only
  rw [if_neg hrows]
  cases s.coverage.lines.isPercentage <;> cases s.coverage.functions.isPercentage <;> rfl

namespace Command

variable {c : Command}

theorem mem_kinds_iff {kind : CheckKind} : kind ∈ c.kinds ↔ c.Asks kind := by
  cases c with
  | check report => cases report <;> cases kind <;> simp [kinds, Asks, CheckKind.all]
  | _ => cases kind <;> simp [kinds, Asks]

theorem kinds_sublist (c : Command) : c.kinds.Sublist CheckKind.all := by
  cases c with
  | check report => cases report <;> exact List.isSublist_iff_sublist.1 rfl
  | _ => exact List.isSublist_iff_sublist.1 rfl

theorem coverageReport_eq_some_iff {name : Text} :
    c.coverageReport = some name ↔ c = .check (some name) ∨ c = .coverage name := by
  cases c <;> simp [coverageReport]

theorem coverage_mem_kinds_iff : .coverage ∈ c.kinds ↔ c.coverageReport.isSome = true := by
  cases c with
  | check report => cases report <;> simp [kinds, coverageReport, CheckKind.all]
  | _ => simp [kinds, coverageReport]

end Command

namespace Arguments

variable {a : Arguments} {s : Settings}

theorem overrides_override (a : Arguments) (s : Settings) : a.Overrides s (a.override s) :=
  ⟨rfl, rfl, rfl, rfl, rfl, rfl⟩

theorem override_override (a : Arguments) (s : Settings) :
    a.override (a.override s) = a.override s := by
  unfold override
  cases a.mode <;> cases a.lineThreshold <;> cases a.functionThreshold <;> rfl

theorem serves_requestWith (a : Arguments) (cores : Option Nat) (s : Settings) :
    (a.requestWith cores s).Serves a.action where
  mem_kinds _ := Command.mem_kinds_iff
  kinds_sublist := a.action.kinds_sublist
  report path := by
    rw [requestWith, Option.map_eq_some_iff]
    simp only [Command.coverageReport_eq_some_iff]
  coverage_mem := by
    rw [requestWith, Option.isSome_map]
    exact Command.coverage_mem_kinds_iff

/-- Of settings that were usable only a threshold can be wrong afterwards, and it is one of those
given. -/
theorem validate_override_eq_error_iff (h : s.Usable) {e : SettingsError} :
    (a.override s).validate = .error e ↔
      (∃ x, a.lineThreshold = some x ∧ ¬ x.IsWithinHundred ∧
        e = .thresholdOutOfRange .lines x) ∨
      (IsWithinHundredIfGiven a.lineThreshold ∧ ∃ x, a.functionThreshold = some x ∧
        ¬ x.IsWithinHundred ∧ e = .thresholdOutOfRange .functions x) := by
  obtain ⟨template, htemplate⟩ := h.template
  have hvalidate := Settings.validate_eq_of_template (s := a.override s) htemplate h.rows
  rw [hvalidate]
  by_cases hlines : (a.override s).coverage.lines.isPercentage = true
  · have hgiven := (isPercentage_getD_iff h.lines).1 hlines
    rw [if_pos hlines, or_iff_right fun ⟨x, hx, hout, _⟩ => hout (hgiven x hx),
      and_iff_right hgiven]
    by_cases hfunctions : (a.override s).coverage.functions.isPercentage = true
    · rw [if_pos hfunctions]
      refine iff_of_false nofun fun ⟨x, hx, hout, _⟩ => hout ?_
      exact (isPercentage_getD_iff h.functions).1 hfunctions x hx
    · rw [if_neg hfunctions, Except.error.injEq]
      exact thresholdOutOfRange_eq_iff h.functions hfunctions
  · have hgiven := mt (isPercentage_getD_iff h.lines).2 hlines
    rw [if_neg hlines, Except.error.injEq, or_iff_left fun hor => hgiven hor.1]
    exact thresholdOutOfRange_eq_iff h.lines hlines

theorem validate_override_eq_ok_iff (h : s.Usable) :
    (a.override s).validate = .ok () ↔
      IsWithinHundredIfGiven a.lineThreshold ∧ IsWithinHundredIfGiven a.functionThreshold := by
  rw [Settings.validate_eq_ok_iff, ← isPercentage_getD_iff h.lines,
    ← isPercentage_getD_iff h.functions]
  constructor
  · rintro ⟨-, hlines, hfunctions, -⟩
    exact ⟨hlines, hfunctions⟩
  · rintro ⟨hlines, hfunctions⟩
    exact ⟨h.template, hlines, hfunctions, h.rows⟩

end Arguments

/-! ## Top theorem -/

/-- Arguments and usable settings make a request just when every threshold given is a number from 0
to 100. The request has the settings with what is given in its place, they are usable again, and it
is what the command asks for; with its settings the arguments make it once more. Otherwise the error
is the first threshold that is no such number. -/
theorem request_overrides_what_is_given (a : Arguments) (cores : Option Nat) (s : Settings)
    (h : s.validate = .ok ()) :
    ((∃ r, a.request cores s = .ok r) ↔
      IsWithinHundredIfGiven a.lineThreshold ∧ IsWithinHundredIfGiven a.functionThreshold) ∧
    (∀ r, a.request cores s = .ok r →
      a.Overrides s r.settings ∧ r.settings.validate = .ok () ∧ r.Serves a.action ∧
        a.request cores r.settings = .ok r) ∧
    ∀ e, a.request cores s = .error e ↔
      (∃ x, a.lineThreshold = some x ∧ ¬ x.IsWithinHundred ∧
        e = .thresholdOutOfRange .lines x) ∨
      (IsWithinHundredIfGiven a.lineThreshold ∧ ∃ x, a.functionThreshold = some x ∧
        ¬ x.IsWithinHundred ∧ e = .thresholdOutOfRange .functions x) := by
  have hu := Settings.validate_eq_ok_iff.1 h
  refine ⟨?_, ?_, fun e => ?_⟩
  · rw [← Arguments.validate_override_eq_ok_iff hu]
    constructor
    · rintro ⟨r, hr⟩
      exact (Arguments.request_eq_ok_iff.1 hr).1
    · exact fun hvalid => ⟨_, Arguments.request_eq_ok_iff.2 ⟨hvalid, rfl⟩⟩
  · intro r hr
    obtain ⟨hvalid, rfl⟩ := Arguments.request_eq_ok_iff.1 hr
    refine ⟨a.overrides_override s, hvalid, a.serves_requestWith cores _, ?_⟩
    refine Arguments.request_eq_ok_iff.2 ⟨?_, ?_⟩
    · exact (congrArg Settings.validate (a.override_override s)).trans hvalid
    · exact congrArg (a.requestWith cores) (a.override_override s).symm
  · rw [Arguments.request_eq_error_iff, Arguments.validate_override_eq_error_iff hu]

/-- Both thresholds and the other mode are given, and a coverage summary is to be checked. -/
def thresholdArguments (lines functions : Binary64) : Arguments where
  command := some (.check (some "cov.txt"))
  directory := "."
  config := none
  format := .text
  quiet := false
  verbose := false
  noColor := false
  parallel := false
  jobs := none
  failFast := false
  mode := some .above
  lineThreshold := some lines
  functionThreshold := some functions

/-- The zero with a sign is a number from 0 to 100 and takes its place in the settings. Where both
thresholds are none the lines are named. -/
theorem request_overrides_what_is_given_signedZero :
    ((oneLineSettings "// (C) ").validate = .ok () ∧ (Binary64.zero true).IsWithinHundred ∧
      ¬ Binary64.nan.IsWithinHundred ∧ ¬ (Binary64.infinity false).IsWithinHundred) ∧
    (∃ r, (thresholdArguments (.zero true) .hundred).request none (oneLineSettings "// (C) ") =
        .ok r ∧
      r.settings.coverage.lines = .zero true ∧ r.settings.validate = .ok () ∧
      .coverage ∈ r.kinds ∧
      (thresholdArguments (.zero true) .hundred).request none r.settings = .ok r) ∧
    (thresholdArguments .nan (.infinity false)).request none (oneLineSettings "// (C) ") =
      .error (.thresholdOutOfRange .lines .nan) := by
  have hvalid := validate_oneLineSettings "// (C) "
  have hzero : (Binary64.zero true).IsWithinHundred :=
    Binary64.isPercentage_iff.1 (by decide +kernel)
  have hhundred : Binary64.hundred.IsWithinHundred :=
    Binary64.isPercentage_iff.1 isPercentage_hundred
  have hnan : ¬ Binary64.nan.IsWithinHundred := fun hx => Nat.lt_irrefl _ hx.finite
  have hinfinity : ¬ (Binary64.infinity false).IsWithinHundred := fun hx =>
    Nat.lt_irrefl _ hx.finite
  obtain ⟨hok, hrequest, -⟩ := request_overrides_what_is_given
    (thresholdArguments (.zero true) .hundred) none _ hvalid
  obtain ⟨-, -, herror⟩ := request_overrides_what_is_given
    (thresholdArguments .nan (.infinity false)) none _ hvalid
  refine ⟨⟨hvalid, hzero, hnan, hinfinity⟩, ?_, ?_⟩
  · obtain ⟨r, hr⟩ := hok.2 ⟨fun x hx => Option.some.inj hx ▸ hzero,
      fun x hx => Option.some.inj hx ▸ hhundred⟩
    obtain ⟨hoverrides, hagain, hserves, hsame⟩ := hrequest r hr
    exact ⟨r, hr, hoverrides.lines, hagain,
      (hserves.mem_kinds .coverage).2 ⟨"cov.txt", Or.inl rfl⟩, hsame⟩
  · exact (herror _).2 (Or.inl ⟨.nan, rfl, hnan, rfl⟩)

end SourceAudit
