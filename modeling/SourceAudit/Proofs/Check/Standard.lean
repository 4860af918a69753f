import SourceAudit.Proofs.Check.Template
import SourceAudit.Proofs.Settings

/-!
# The standard header

The standard template is in normal form. The settings that hold without a settings file carry its
lines as a text, so they make the standard template and pass validation.

    CopyrightSettings.default.template? = .ok .standard                      (template?_default)
    Settings.default.validate = .ok ()                                       (validate_default)
-/

namespace SourceAudit

/-! ## The default settings -/

/-- A line of the standard header is the beginning of a comment or goes on with it. -/
theorem standardLines_shape : ∀ line ∈ standardLines, '\n' ∉ line ∧ Text.trimEnd line = line ∧
    (line.head? = some '/' ∨ line.head? = some ' ') := by
  decide +kernel

theorem normal_standard : HeaderTemplate.standard.Normal := by
  apply HeaderTemplate.normal_of_linesTrimmed
  · intro line hl
    obtain ⟨hnewline, htrim, -⟩ := standardLines_shape line hl
    exact ⟨hnewline, htrim⟩
  · intro hempty
    obtain ⟨-, -, hhead⟩ := standardLines_shape [] (List.mem_of_getLast? hempty)
    rcases hhead with h | h <;> cases h

theorem template?_default : CopyrightSettings.default.template? = .ok .standard :=
  normal_standard.ofText?_unlines

theorem validate_default : Settings.default.validate = .ok () := by
  have hrows : CoverageSettings.default.linesRow ≠ CoverageSettings.default.functionsRow := by
    decide
  exact Settings.validate_eq_ok_iff.2
    ⟨⟨_, template?_default⟩, isPercentage_hundred, isPercentage_hundred, hrows⟩

end SourceAudit
