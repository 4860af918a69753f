import SourceAudit.Proofs.Check.Satisfiable
import SourceAudit.Settings.Basic

/-!
# Settings that a run can satisfy

Settings can be satisfied when some text opens with the header and, for every plain path, some text
has the guard. Validation asks for a template and for percentages, and it does not look at the two
leads: of the settings it accepts just those can be satisfied whose leads have no newline.

    s.validate = .ok () → (s.Satisfiable ↔ '\n' ∉ s.copyright.lead ∧ '\n' ∉ s.guards.lead)
                                                                       (satisfiable_of_validate)
-/

namespace SourceAudit

/-- The template can be made, and some text opens with it. -/
def CopyrightSettings.Satisfiable (s : CopyrightSettings) : Prop :=
  ∃ template, s.template? = .ok template ∧ ∃ content, template.check content = .ok ()

/-- Some text has the guard of the path. -/
def GuardSettings.SatisfiableAt (s : GuardSettings) (p : Text) : Prop :=
  ∃ content, checkGuard content (guardSymbol (Utf8.encode p) s.lead) = .ok ()

def Settings.Satisfiable (s : Settings) : Prop :=
  s.copyright.Satisfiable ∧ ∀ p : Text, Path.IsPlain p → s.guards.SatisfiableAt p

/-! ## Lemmas -/

theorem isPercentage_hundred : Binary64.hundred.isPercentage = true := by
  have hlow : Binary64.zero false ≤ .hundred := ⟨rfl, rfl, Int.natCast_nonneg _⟩
  have hhigh : Binary64.hundred ≤ .hundred := ⟨rfl, rfl, Int.le_refl _⟩
  rw [Binary64.isPercentage, decide_eq_true hlow, decide_eq_true hhigh]
  rfl

theorem CopyrightSettings.satisfiable_iff {s : CopyrightSettings} {template : HeaderTemplate}
    (h : s.template? = .ok template) : s.Satisfiable ↔ '\n' ∉ s.lead := by
  have hrule : template.rule.lead = s.lead := by
    rw [(HeaderTemplate.ofText?_eq_ok_iff.1 h).2.2.1]
  rw [← hrule, ← HeaderTemplate.exists_check_iff (HeaderTemplate.linesTrimmed_of_ofText? h)]
  constructor
  · rintro ⟨other, hother, hcheck⟩
    rw [h] at hother
    cases hother
    exact hcheck
  · exact fun hcheck => ⟨template, h, hcheck⟩

/-- Settings for a header of one line, which is the copyright line. -/
def oneLineSettings (lead : Text) : Settings :=
  { Settings.default with copyright := ⟨["src"], [], "// (C)", 0, lead, false⟩ }

theorem template?_oneLineSettings (lead : Text) :
    (oneLineSettings lead).copyright.template? =
      .ok ⟨["// (C)".toList], 0, ⟨lead, false⟩, by decide⟩ := by
  have hlines : ["// (C)".toList] =
      (Text.splitOn '\n' (Text.trimEnd "// (C)")).map Text.trimEnd := by decide
  exact HeaderTemplate.ofText?_eq_ok_iff.2 ⟨List.cons_ne_nil _ _, rfl, rfl, hlines⟩

theorem validate_oneLineSettings (lead : Text) : (oneLineSettings lead).validate = .ok () := by
  have hrows : Settings.default.coverage.linesRow ≠ Settings.default.coverage.functionsRow := by
    decide
  exact Settings.validate_eq_ok_iff.2
    ⟨⟨_, template?_oneLineSettings lead⟩, isPercentage_hundred, isPercentage_hundred, hrows⟩

/-! ## Top theorem -/

/-- Accepted settings can be satisfied part by part when the lead of the part has no newline, and
otherwise by no text at all. -/
theorem satisfiable_of_validate (s : Settings) (h : s.validate = .ok ()) :
    (s.copyright.Satisfiable ↔ '\n' ∉ s.copyright.lead) ∧
      (∀ p : Text, Path.IsPlain p → (s.guards.SatisfiableAt p ↔ '\n' ∉ s.guards.lead)) ∧
      (s.Satisfiable ↔ '\n' ∉ s.copyright.lead ∧ '\n' ∉ s.guards.lead) := by
  obtain ⟨template, htemplate⟩ := (Settings.validate_eq_ok_iff.1 h).template
  have hcopyright := CopyrightSettings.satisfiable_iff htemplate
  have hguards : ∀ p : Text, Path.IsPlain p → (s.guards.SatisfiableAt p ↔ '\n' ∉ s.guards.lead) :=
    fun p hp => exists_checkGuard_iff hp
  refine ⟨hcopyright, hguards, and_congr hcopyright ⟨fun hall => ?_, fun hlead p hp => ?_⟩⟩
  · have hplain : Path.IsPlain "a" := ⟨by decide, 'a', rfl, by decide⟩
    exact (hguards "a" hplain).1 (hall "a" hplain)
  · exact (hguards p hp).2 hlead

/-- Settings without a newline in a lead. -/
theorem satisfiable_of_validate_oneLine :
    (oneLineSettings "// (C) ").validate = .ok () ∧ (oneLineSettings "// (C) ").Satisfiable ∧
      (oneLineSettings "// (C) ").guards.SatisfiableAt "scl/util/hash.h" := by
  have hvalid := validate_oneLineSettings "// (C) "
  obtain ⟨-, hguards, hall⟩ := satisfiable_of_validate _ hvalid
  have hplain : Path.IsPlain "scl/util/hash.h" := ⟨by decide, 'h', rfl, by decide⟩
  exact ⟨hvalid, hall.2 (by decide), (hguards _ hplain).2 (by decide)⟩

/-- Settings that validation accepts and that no text satisfies: their copyright line would have to
go on behind a newline. -/
theorem not_satisfiable_of_newline :
    (oneLineSettings "// (C)\nby ").validate = .ok () ∧
      ¬ (oneLineSettings "// (C)\nby ").copyright.Satisfiable ∧
      ¬ ∀ s : Settings, s.validate = .ok () → s.Satisfiable := by
  have hvalid := validate_oneLineSettings "// (C)\nby "
  have hbroken : ¬ (oneLineSettings "// (C)\nby ").copyright.Satisfiable := by
    rw [CopyrightSettings.satisfiable_iff (template?_oneLineSettings _)]
    decide
  exact ⟨hvalid, hbroken, fun hall => hbroken (hall _ hvalid).1⟩

end SourceAudit
