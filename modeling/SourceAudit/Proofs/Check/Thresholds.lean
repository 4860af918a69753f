import SourceAudit.Check.Coverage
import SourceAudit.Proofs.Check.Verdict

/-!
# Easier thresholds

Higher values, lower thresholds and the mode that admits equality keep a verdict that passes. Equal
is meant as for doubles: the two zeros are equal, and a NaN is neither equal to a number nor in any
order with one, so with a NaN on either side nothing passes.

    t'.Eases t → s passes t → s passes t'                                        (passes_of_eases)
    the two modes differ just where a value equals its threshold
                                                             (passed_atLeast_and_not_above_iff)
    a file that passes is read and its summary passes, and the other way round
                                                                (inspectCoverage_eq_pass_iff)
-/

namespace SourceAudit

/-! ## The rule -/

/-- Equal as doubles are compared. -/
def Binary64.SameNumber (x y : Binary64) : Prop :=
  x.isNaN = false ∧ y.isNaN = false ∧ x.value = y.value

/-- Does a summary pass some thresholds? -/
def CoverageSummary.Passes (s : CoverageSummary) (t : CoverageThresholds) : Prop :=
  (s.evaluate t).passed = true

/-- No threshold is higher than before, and equality is admitted if it was. -/
structure CoverageThresholds.Eases (new old : CoverageThresholds) : Prop where
  lines : new.lines = old.lines ∨ new.lines ≤ old.lines
  functions : new.functions = old.functions ∨ new.functions ≤ old.functions
  mode : new.mode = old.mode ∨ new.mode = .atLeast

/-! ## One metric -/

namespace Binary64

variable {x y : Binary64}

theorem le_refl (h : x.isNaN = false) : x ≤ x := ⟨h, h, Int.le_refl _⟩

theorem le_iff_lt_or_sameNumber : x ≤ y ↔ x < y ∨ y.SameNumber x := by
  rw [le_iff, lt_iff, SameNumber, Int.le_iff_lt_or_eq]
  constructor
  · rintro ⟨hx, hy, hlt | heq⟩
    · exact Or.inl ⟨hx, hy, hlt⟩
    · exact Or.inr ⟨hy, hx, heq.symm⟩
  · rintro (⟨hx, hy, hlt⟩ | ⟨hy, hx, heq⟩)
    · exact ⟨hx, hy, Or.inl hlt⟩
    · exact ⟨hx, hy, Or.inr heq.symm⟩

theorem SameNumber.not_lt (h : y.SameNumber x) : ¬ x < y := by
  intro hlt
  have heq : y.value = x.value := h.2.2
  have hvalue : x.value < y.value := hlt.2.2
  omega

end Binary64

namespace ThresholdMode

variable {mode : ThresholdMode} {value threshold : Binary64}

theorem meets_atLeast_iff : meets .atLeast value threshold = true ↔ threshold ≤ value :=
  decide_eq_true_iff

theorem meets_above_iff : meets .above value threshold = true ↔ threshold < value :=
  decide_eq_true_iff

theorem not_isNaN_of_meets (h : mode.meets value threshold = true) :
    value.isNaN = false ∧ threshold.isNaN = false := by
  cases mode with
  | atLeast =>
    rw [meets_atLeast_iff] at h
    exact ⟨h.2.1, h.1⟩
  | above =>
    rw [meets_above_iff] at h
    exact ⟨h.2.1, h.1⟩

theorem meets_atLeast_of_meets (h : mode.meets value threshold = true) :
    meets .atLeast value threshold = true := by
  cases mode with
  | atLeast => exact h
  | above => exact meets_atLeast_iff.2 (Binary64.le_of_lt (meets_above_iff.1 h))

/-- A metric that is met stays so at a threshold no higher, in a mode no stricter. -/
theorem meets_of_eased {newMode : ThresholdMode} {new : Binary64}
    (h : mode.meets value threshold = true) (hnew : new = threshold ∨ new ≤ threshold)
    (hmode : newMode = mode ∨ newMode = .atLeast) : newMode.meets value new = true := by
  obtain ⟨hvalue, hthreshold⟩ := not_isNaN_of_meets h
  have hle : new ≤ threshold := by
    rcases hnew with rfl | hle
    · exact Binary64.le_refl hthreshold
    · exact hle
  have hnewMode : newMode.meets value threshold = true := by
    rcases hmode with rfl | rfl
    · exact h
    · exact meets_atLeast_of_meets h
  exact meets_of_le_of_le hnewMode (Binary64.le_refl hvalue) hle

end ThresholdMode

/-! ## Both metrics -/

section

variable {s s' : CoverageSummary} {t t' : CoverageThresholds}

theorem passes_iff : s.Passes t ↔
    t.mode.meets s.lines t.lines = true ∧ t.mode.meets s.functions t.functions = true :=
  Bool.and_eq_true_iff

theorem passes_of_le (h : s.Passes t) (hlines : s.lines ≤ s'.lines)
    (hfunctions : s.functions ≤ s'.functions) : s'.Passes t := by
  rw [passes_iff] at h ⊢
  obtain ⟨-, hlinesNumber⟩ := ThresholdMode.not_isNaN_of_meets h.1
  obtain ⟨-, hfunctionsNumber⟩ := ThresholdMode.not_isNaN_of_meets h.2
  exact ⟨ThresholdMode.meets_of_le_of_le h.1 hlines (Binary64.le_refl hlinesNumber),
    ThresholdMode.meets_of_le_of_le h.2 hfunctions (Binary64.le_refl hfunctionsNumber)⟩

theorem passes_of_eases (h : s.Passes t) (heases : t'.Eases t) : s.Passes t' := by
  rw [passes_iff] at h ⊢
  exact ⟨ThresholdMode.meets_of_eased h.1 heases.lines heases.mode,
    ThresholdMode.meets_of_eased h.2 heases.functions heases.mode⟩

theorem not_isNaN_of_passes (h : s.Passes t) :
    s.lines.isNaN = false ∧ s.functions.isNaN = false ∧
      t.lines.isNaN = false ∧ t.functions.isNaN = false := by
  rw [passes_iff] at h
  obtain ⟨hlines, hlinesThreshold⟩ := ThresholdMode.not_isNaN_of_meets h.1
  obtain ⟨hfunctions, hfunctionsThreshold⟩ := ThresholdMode.not_isNaN_of_meets h.2
  exact ⟨hlines, hfunctions, hlinesThreshold, hfunctionsThreshold⟩

/-- What passes with equality admitted and not without has a metric right at its threshold. -/
theorem passes_atLeast_and_not_above_iff :
    s.Passes { t with mode := .atLeast } ∧ ¬ s.Passes { t with mode := .above } ↔
      t.lines ≤ s.lines ∧ t.functions ≤ s.functions ∧
        (s.lines.SameNumber t.lines ∨ s.functions.SameNumber t.functions) := by
  simp only [passes_iff, ThresholdMode.meets_atLeast_iff, ThresholdMode.meets_above_iff]
  constructor
  · rintro ⟨⟨hlines, hfunctions⟩, habove⟩
    refine ⟨hlines, hfunctions, ?_⟩
    rcases Binary64.le_iff_lt_or_sameNumber.1 hlines with hlt | heq
    · rcases Binary64.le_iff_lt_or_sameNumber.1 hfunctions with hlt' | heq'
      · exact absurd ⟨hlt, hlt'⟩ habove
      · exact Or.inr heq'
    · exact Or.inl heq
  · rintro ⟨hlines, hfunctions, heq⟩
    refine ⟨⟨hlines, hfunctions⟩, ?_⟩
    rintro ⟨hlt, hlt'⟩
    rcases heq with heq | heq
    · exact heq.not_lt hlt
    · exact heq.not_lt hlt'

end

/-! ## Files -/

section

variable {rows : SummaryRows} {t t' : CoverageThresholds} {tree : FileTree} {target : Target}

/-- A file passes if it is text, the text is a summary, and the summary passes. -/
theorem inspectCoverage_eq_pass_iff {message : Text} {time : UInt64} :
    inspectCoverage rows t tree target = .pass message time ↔
      ∃ summary, (tree.Holds target.path fun text =>
          CoverageSummary.ofText? text rows = .ok summary) ∧
        summary.Passes t ∧ (summary.evaluate t).text = message ∧ 0 = time := by
  unfold inspectCoverage Target.judge FileTree.Holds CoverageSummary.Passes
  simp only [← FileTree.readText_eq_ok_iff]
  cases tree.readText target.path with
  | error e => simp
  | ok text =>
    cases hsummary : CoverageSummary.ofText? text rows with
    | error e => simp [hsummary, Target.coverageOutcome]
    | ok summary =>
      simp only [hsummary, Except.ok.injEq, exists_eq_left', Target.coverageOutcome]
      cases (summary.evaluate t).passed <;> simp

theorem inspectCoverage_passes_of_eases (heases : t'.Eases t) {message : Text} {time : UInt64}
    (h : inspectCoverage rows t tree target = .pass message time) :
    ∃ message', inspectCoverage rows t' tree target = .pass message' 0 := by
  obtain ⟨summary, hfile, hpasses, -, -⟩ := inspectCoverage_eq_pass_iff.1 h
  exact ⟨_, inspectCoverage_eq_pass_iff.2
    ⟨summary, hfile, passes_of_eases hpasses heases, rfl, rfl⟩⟩

end

/-! ## Top theorem -/

/-- A verdict that passes stays so with higher values, with lower thresholds, and with equality
admitted; admitting it makes a difference just where both thresholds are reached and one exactly;
with a NaN nothing passes. So a file that passes does so with thresholds that ask for no more. -/
theorem coverage_verdict_monotone :
    (∀ (s s' : CoverageSummary) (t : CoverageThresholds), s.Passes t →
      s.lines ≤ s'.lines → s.functions ≤ s'.functions → s'.Passes t) ∧
    (∀ (s : CoverageSummary) (t t' : CoverageThresholds), s.Passes t → t'.mode = t.mode →
      t'.lines ≤ t.lines → t'.functions ≤ t.functions → s.Passes t') ∧
    (∀ (s : CoverageSummary) (t : CoverageThresholds),
      s.Passes { t with mode := .above } → s.Passes { t with mode := .atLeast }) ∧
    (∀ (s : CoverageSummary) (t : CoverageThresholds),
      s.Passes { t with mode := .atLeast } ∧ ¬ s.Passes { t with mode := .above } ↔
        t.lines ≤ s.lines ∧ t.functions ≤ s.functions ∧
          (s.lines.SameNumber t.lines ∨ s.functions.SameNumber t.functions)) ∧
    (∀ (s : CoverageSummary) (t : CoverageThresholds),
      (s.lines.isNaN || s.functions.isNaN || t.lines.isNaN || t.functions.isNaN) = true →
        ¬ s.Passes t) ∧
    ∀ (rows : SummaryRows) (t t' : CoverageThresholds) (tree : FileTree) (target : Target),
      t'.Eases t → ∀ message time, inspectCoverage rows t tree target = .pass message time →
        ∃ message', inspectCoverage rows t' tree target = .pass message' 0 := by
  refine ⟨?_, ?_, ?_, ?_, ?_, ?_⟩
  · intro s s' t h hlines hfunctions
    exact passes_of_le h hlines hfunctions
  · intro s t t' h hmode hlines hfunctions
    exact passes_of_eases h ⟨Or.inr hlines, Or.inr hfunctions, Or.inl hmode⟩
  · intro s t h
    exact passes_of_eases h ⟨Or.inl rfl, Or.inl rfl, Or.inr rfl⟩
  · intro s t
    exact passes_atLeast_and_not_above_iff
  · intro s t hnan h
    obtain ⟨hlines, hfunctions, hlinesThreshold, hfunctionsThreshold⟩ := not_isNaN_of_passes h
    rw [hlines, hfunctions, hlinesThreshold, hfunctionsThreshold] at hnan
    cases hnan
  · intro rows t t' tree target heases message time h
    exact inspectCoverage_passes_of_eases heases h

/-! A summary with a metric right at its threshold, and a file that gives it. -/

def exactSummary : CoverageSummary := ⟨.ofNat 96, .ofNat 85⟩

def exactThresholds (mode : ThresholdMode) : CoverageThresholds := ⟨.ofNat 96, .ofNat 80, mode⟩

def summaryTree : FileTree where
  top := [(⟨"summary", by decide⟩, .file (Utf8.encode "lines: 96%\nfunctions: 85%\n"))]
  home := []

theorem coverage_verdict_monotone_exact :
    exactSummary.Passes (exactThresholds .atLeast) ∧
      ¬ exactSummary.Passes (exactThresholds .above) ∧
      CoverageSummary.Passes ⟨.hundred, .hundred⟩ (exactThresholds .atLeast) ∧
      exactSummary.Passes ⟨.ofNat 95, .zero true, .atLeast⟩ ∧
      CoverageSummary.Passes ⟨.hundred, .ofNat 85⟩ (exactThresholds .above) ∧
      CoverageSummary.Passes ⟨.hundred, .ofNat 85⟩ (exactThresholds .atLeast) ∧
      ¬ exactSummary.Passes ⟨.nan, .ofNat 80, .atLeast⟩ ∧
      inspectCoverage ⟨0, 1⟩ ⟨.ofNat 95, .ofNat 80, .above⟩ summaryTree (.named "summary") =
        .pass ("lines coverage 96.0% (required > 95.0%); " ++
          "functions coverage 85.0% (required > 80.0%)") 0 ∧
      ∃ message, inspectCoverage ⟨0, 1⟩ ⟨.ofNat 90, .ofNat 80, .atLeast⟩ summaryTree
        (.named "summary") = .pass message 0 := by
  obtain ⟨hvalues, hthresholds, hmode, hexact, hnan, hfile⟩ := coverage_verdict_monotone
  have hpasses : exactSummary.Passes (exactThresholds .atLeast) ∧
      ¬ exactSummary.Passes (exactThresholds .above) :=
    (hexact exactSummary (exactThresholds .atLeast)).2 ⟨by decide +kernel, by decide +kernel,
      Or.inl ⟨by decide +kernel, by decide +kernel, rfl⟩⟩
  have habove : CoverageSummary.Passes ⟨.hundred, .ofNat 85⟩ (exactThresholds .above) :=
    passes_iff.2 ⟨by decide +kernel, by decide +kernel⟩
  have hread : inspectCoverage ⟨0, 1⟩ ⟨.ofNat 95, .ofNat 80, .above⟩ summaryTree
      (.named "summary") =
      .pass ("lines coverage 96.0% (required > 95.0%); " ++
        "functions coverage 85.0% (required > 80.0%)") 0 := by decide +kernel
  refine ⟨hpasses.1, hpasses.2, ?_, ?_, habove, ?_, ?_, hread, ?_⟩
  · exact hvalues exactSummary _ _ hpasses.1 (by decide +kernel) (by decide +kernel)
  · exact hthresholds exactSummary _ _ hpasses.1 rfl (by decide +kernel) (by decide +kernel)
  · exact hmode _ (exactThresholds .atLeast) habove
  · exact hnan exactSummary ⟨.nan, .ofNat 80, .atLeast⟩ (by decide +kernel)
  · exact hfile _ _ _ _ _ ⟨Or.inr (by decide +kernel), Or.inr (by decide +kernel), Or.inr rfl⟩ _ _
      hread

end SourceAudit
