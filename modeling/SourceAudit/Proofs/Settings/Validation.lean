import SourceAudit.Proofs.Number.Nearest
import SourceAudit.Settings.Basic

/-!
# Validation

Validation looks at the template, then at the thresholds, lines first, then at the rows, and reports
the first fault. It takes a double for a threshold when it compares as one between two others,
nought and a hundred. These are the finite doubles whose exact values lie there: the infinities and
the NaNs are as far out as no finite double is.

    x.isPercentage = true ↔ x.IsWithinHundred                                (isPercentage_iff)
    s.validate = .error e ↔ s.FirstFault e                               (validate_eq_error_iff)
-/

namespace SourceAudit

/-! ## The rule -/

/-- A number from 0 to 100. No infinity is one, and no NaN. -/
structure Binary64.IsWithinHundred (x : Binary64) : Prop where
  finite : x.IsFinite
  nonneg : 0 ≤ x.value
  le_hundred : x.value ≤ (100 * twoTo 1074 : Nat)

/-- What is wrong with settings first: their template, then the thresholds, then the rows. -/
inductive Settings.FirstFault (s : Settings) : SettingsError → Prop
  | template {cause : TemplateError} (h : s.copyright.template? = .error cause) :
    FirstFault s (.template cause)
  | lines {template : HeaderTemplate} (htemplate : s.copyright.template? = .ok template)
    (h : ¬ s.coverage.lines.IsWithinHundred) :
    FirstFault s (.thresholdOutOfRange .lines s.coverage.lines)
  | functions {template : HeaderTemplate} (htemplate : s.copyright.template? = .ok template)
    (hlines : s.coverage.lines.IsWithinHundred) (h : ¬ s.coverage.functions.IsWithinHundred) :
    FirstFault s (.thresholdOutOfRange .functions s.coverage.functions)
  | rows {template : HeaderTemplate} (htemplate : s.copyright.template? = .ok template)
    (hlines : s.coverage.lines.IsWithinHundred) (hfunctions : s.coverage.functions.IsWithinHundred)
    (h : s.coverage.linesRow = s.coverage.functionsRow) :
    FirstFault s (.sameRow s.coverage.linesRow)

/-! ## Thresholds -/

theorem Binary64.value_hundred : Binary64.hundred.value = (100 * twoTo 1074 : Nat) := by
  have hsplit : twoTo 1074 = twoTo 1028 * twoTo 46 := twoTo_add 1028 46
  have hsmall : twoTo 46 = 0x400000000000 := rfl
  have hexponent : hundred.exponent.val = 1029 := rfl
  have hfraction : hundred.fraction.val = 0x9000000000000 := rfl
  have hmagnitude : hundred.magnitude = 0x19000000000000 * twoTo 1028 := by
    rw [magnitude, hexponent, hfraction, if_neg (by decide)]
  rw [value, if_neg (by decide), hmagnitude, hsplit, hsmall]
  generalize twoTo 1028 = unit
  omega

/-- The magnitude of an infinity or a NaN is far above a hundred. -/
theorem Binary64.hundred_lt_magnitude {x : Binary64} (h : ¬ x.IsFinite) :
    100 * twoTo 1074 < x.magnitude := by
  have hexponent : x.exponent.val = 2047 := by
    have hlt := x.exponent.isLt
    unfold IsFinite at h
    omega
  have hunits : twoTo 1074 * twoTo 7 ≤ twoTo 2046 := by
    rw [← twoTo_add]
    exact twoTo_le (by decide)
  have hpos : 0 < twoTo 1074 := twoTo_pos 1074
  have hsmall : twoTo 7 = 128 := rfl
  rw [hsmall] at hunits
  have hmagnitude : x.magnitude = (0x10000000000000 + x.fraction.val) * twoTo 2046 := by
    rw [magnitude, hexponent]
    rfl
  have hone : 1 * twoTo 2046 ≤ (0x10000000000000 + x.fraction.val) * twoTo 2046 :=
    Nat.mul_le_mul_right _ (by omega)
  rw [hmagnitude]
  generalize twoTo 1074 = unit at *
  generalize (0x10000000000000 + x.fraction.val) * twoTo 2046 = magnitude at *
  generalize twoTo 2046 = most at *
  omega

theorem Binary64.isPercentage_iff {x : Binary64} :
    x.isPercentage = true ↔ x.IsWithinHundred := by
  rw [isPercentage, Bool.and_eq_true, decide_eq_true_iff, decide_eq_true_iff, le_iff, le_iff,
    value_hundred]
  constructor
  · rintro ⟨⟨-, -, hnonneg⟩, -, -, hhundred⟩
    refine ⟨Classical.byContradiction fun hfinite => ?_, hnonneg, hhundred⟩
    have hlarge := hundred_lt_magnitude hfinite
    have hvalue : 0 ≤ x.value := hnonneg
    rw [value] at hvalue hhundred
    by_cases hsign : x.negative = true
    · rw [if_pos hsign] at hvalue
      omega
    · rw [if_neg hsign] at hhundred
      omega
  · rintro ⟨hfinite, hnonneg, hhundred⟩
    have hnan := hfinite.isNaN_eq
    exact ⟨⟨rfl, hnan, hnonneg⟩, hnan, rfl, hhundred⟩

theorem Binary64.isPercentage_eq_false {x : Binary64} (h : ¬ x.IsWithinHundred) :
    x.isPercentage = false := by
  rwa [← Bool.not_eq_true, isPercentage_iff]

namespace Settings

variable {s : Settings} {e : SettingsError}

/-! ## Faults -/

theorem FirstFault.validate_eq (h : s.FirstFault e) : s.validate = .error e := by
  unfold validate
  cases h with
  | template h => rw [h]
  | lines htemplate h =>
    rw [htemplate, Binary64.isPercentage_eq_false h]
    rfl
  | functions htemplate hlines h =>
    rw [htemplate, Binary64.isPercentage_iff.2 hlines, Binary64.isPercentage_eq_false h]
    rfl
  | rows htemplate hlines hfunctions h =>
    rw [htemplate, Binary64.isPercentage_iff.2 hlines, Binary64.isPercentage_iff.2 hfunctions]
    exact if_pos h

/-- Settings that are not usable have a fault. -/
theorem exists_firstFault (h : ¬ s.Usable) : ∃ e, s.FirstFault e := by
  cases htemplate : s.copyright.template? with
  | error cause => exact ⟨_, .template htemplate⟩
  | ok template =>
    by_cases hlines : s.coverage.lines.IsWithinHundred
    · by_cases hfunctions : s.coverage.functions.IsWithinHundred
      · by_cases hrows : s.coverage.linesRow = s.coverage.functionsRow
        · exact ⟨_, .rows htemplate hlines hfunctions hrows⟩
        · exact absurd ⟨⟨template, htemplate⟩, Binary64.isPercentage_iff.2 hlines,
            Binary64.isPercentage_iff.2 hfunctions, hrows⟩ h
      · exact ⟨_, .functions htemplate hlines hfunctions⟩
    · exact ⟨_, .lines htemplate hlines⟩

theorem validate_eq_error_iff : s.validate = .error e ↔ s.FirstFault e := by
  refine ⟨fun h => ?_, FirstFault.validate_eq⟩
  have hunusable : ¬ s.Usable := by
    intro husable
    rw [validate_eq_ok_iff.2 husable] at h
    cases h
  obtain ⟨e', hfault⟩ := exists_firstFault hunusable
  rw [hfault.validate_eq] at h
  exact Except.error.inj h ▸ hfault

end Settings

end SourceAudit
