import SourceAudit.Proofs.Markup.Grammar
import SourceAudit.Report.Junit

/-!
# Reports as well-formed documents

The document of a report is written in the grammar, whatever its findings say. Their texts are not
looked at for characters that no document may have, and just those keep it from being well-formed.

    WellFormed r.junit ↔ ∀ f ∈ r.findings, ∀ t ∈ f.texts, Allowed t        (wellFormed_junit_iff)
-/

namespace SourceAudit

open Markup

/-! ## Names -/

theorem Outcome.named_element (o : Outcome) : o.element.Named := by
  cases o with
  | pass message time => exact .leaf (.of_names [] rfl (by decide))
  | warn message details => exact .leaf (.of_names [] rfl (by decide))
  | fail message details time => exact .leaf (.of_names ["message"] rfl (by decide))
  | skip reason => exact .void (.of_names ["message"] rfl (by decide))

theorem Finding.named_testCase (f : Finding) : f.testCase.Named := by
  refine .group (.of_names ["name", "classname", "time"] rfl (by decide)) ?_
  rw [List.forall_mem_singleton]
  exact f.outcome.named_element

theorem named_testSuite (kind : CheckKind) (findings : List Finding) :
    (testSuite kind findings).Named := by
  refine .group (.of_names ["name", "tests", "failures", "errors", "skipped", "time"] rfl
    (by decide)) ?_
  rw [List.forall_mem_map]
  exact fun f _ => f.named_testCase

theorem Report.named_junitElement (r : Report) : r.junitElement.Named := by
  refine .group (.of_names ["tests", "failures", "errors", "skipped", "time"] rfl (by decide)) ?_
  rw [Report.testSuites, List.forall_mem_map]
  exact fun kind _ => named_testSuite kind _

/-! ## Characters -/

def Outcome.texts : Outcome → List Text
  | .pass message _ => [message]
  | .warn message details => [message, details]
  | .fail message details _ => [message, details]
  | .skip reason => [reason]

/-- The texts of a finding that a document shows. -/
def Finding.texts (f : Finding) : List Text := f.target :: f.outcome.texts

theorem allowed_ofNat (n : Nat) : Allowed (Text.ofNat n) := by
  refine allowed_iff.2 fun c hc => ?_
  have hdigit : c.isDigit = true := Nat.isDigit_of_mem_toDigits (by decide) (by decide) hc
  refine isAllowed_of_isNameChar ?_
  simp only [Char.isDigit, ge_iff_le, Bool.and_eq_true, decide_eq_true_eq, UInt32.le_iff_toNat_le]
    at hdigit
  simp only [isNameChar, isWithin, List.any_cons, Bool.or_eq_true, Bool.and_eq_true,
    decide_eq_true_eq]
  exact Or.inr (Or.inr (Or.inl hdigit))

theorem allowed_padStart (width n : Nat) : Allowed (Text.padStart width '0' (Text.ofNat n)) := by
  rw [Text.padStart, allowed_append]
  refine ⟨allowed_iff.2 fun c hc => ?_, allowed_ofNat n⟩
  rw [List.eq_of_mem_replicate hc]
  decide

theorem allowed_placed (digits places : Nat) : Allowed (Binary64.placed digits places) := by
  have hpadded := allowed_padStart (places + 1) digits
  rw [Binary64.placed]
  split
  · exact hpadded
  · rw [allowed_append, allowed_cons]
    rw [allowed_iff] at hpadded
    exact ⟨allowed_iff.2 fun c hc => hpadded c (List.mem_of_mem_take hc), by decide,
      allowed_iff.2 fun c hc => hpadded c (List.mem_of_mem_drop hc)⟩

theorem allowed_signed (x : Binary64) {digits : Text} (h : Allowed digits) :
    Allowed (Binary64.signed x digits) := by
  have hnan : Allowed "NaN" := by decide
  have hinf : Allowed "inf" := by decide
  have hminus : Allowed ['-'] := by decide
  have hnone : Allowed [] := by decide
  rw [Binary64.signed]
  split
  · exact hnan
  · rw [allowed_append]
    constructor
    · split
      · exact hminus
      · exact hnone
    · split
      · exact hinf
      · exact h

theorem allowed_secondsText (places : Nat) (time : UInt64) : Allowed (secondsText places time) :=
  allowed_signed _ (allowed_placed _ _)

theorem allowed_id (kind : CheckKind) : Allowed kind.id := by
  cases kind <;> decide

/-- Numbers and what is shown for every report are of allowed characters. -/
theorem allowed_countAttributes (tests failures skipped : Nat) (time : UInt64) :
    ∀ t ∈ (countAttributes tests failures skipped time).map Attribute.value, Allowed t := by
  have hzero : Allowed "0" := by decide
  simp only [countAttributes, List.map_cons, List.map_nil, List.forall_mem_cons, allowed_ofNat,
    allowed_secondsText, hzero, true_and, List.not_mem_nil, false_imp_iff, implies_true]

theorem Outcome.allowed_texts_element_iff (o : Outcome) :
    (∀ t ∈ o.element.texts, Allowed t) ↔ ∀ t ∈ o.texts, Allowed t := by
  have hwarning : Allowed "WARNING: " := by decide
  have hdash : Allowed " - " := by decide
  cases o with
  | pass message time => exact Iff.rfl
  | warn message details =>
    simp only [Outcome.element, Element.texts, Outcome.texts, List.map_nil, List.nil_append,
      List.forall_mem_cons, allowed_append, hwarning, hdash, true_and, and_true,
      List.not_mem_nil, false_imp_iff, implies_true]
  | fail message details time => exact Iff.rfl
  | skip reason => exact Iff.rfl

theorem Finding.allowed_texts_testCase_iff (f : Finding) :
    (∀ t ∈ f.testCase.texts, Allowed t) ↔ ∀ t ∈ f.texts, Allowed t := by
  have hclass : Allowed ("scl-lint.".toList ++ f.kind.id) := by
    rw [allowed_append]
    exact ⟨by decide, allowed_id f.kind⟩
  rw [Finding.testCase, Element.texts, List.forall_mem_append, forall_mem_textsOf,
    List.forall_mem_singleton, f.outcome.allowed_texts_element_iff, Finding.texts,
    List.forall_mem_cons]
  simp only [List.map_cons, List.map_nil, List.forall_mem_cons, hclass, allowed_secondsText,
    and_true, List.not_mem_nil, false_imp_iff, implies_true]

theorem allowed_texts_testSuite_iff (kind : CheckKind) (findings : List Finding) :
    (∀ t ∈ (testSuite kind findings).texts, Allowed t) ↔
      ∀ f ∈ findings, ∀ t ∈ f.texts, Allowed t := by
  rw [testSuite, Element.texts, List.forall_mem_append, forall_mem_textsOf, List.map_cons,
    List.forall_mem_cons, and_iff_right ⟨allowed_id kind, allowed_countAttributes _ _ _ _⟩,
    List.forall_mem_map]
  exact forall₂_congr fun f _ => f.allowed_texts_testCase_iff

theorem Report.mem_testSuites {r : Report} {suite : Element} :
    suite ∈ r.testSuites ↔
      ∃ f ∈ r.findings, suite = testSuite f.kind (r.byKind f.kind) := by
  rw [Report.testSuites, List.mem_map]
  constructor
  · rintro ⟨kind, hkind, rfl⟩
    rw [List.mem_filter, Bool.not_eq_true', List.isEmpty_eq_false_iff_exists_mem] at hkind
    obtain ⟨-, f, hf⟩ := hkind
    rw [Report.byKind, List.mem_filter, decide_eq_true_eq] at hf
    exact ⟨f, hf.1, by rw [hf.2]⟩
  · rintro ⟨f, hf, rfl⟩
    refine ⟨f.kind, List.mem_filter.2 ⟨by cases f.kind <;> decide, ?_⟩, rfl⟩
    rw [Bool.not_eq_true', List.isEmpty_eq_false_iff_exists_mem]
    exact ⟨f, List.mem_filter.2 ⟨hf, decide_eq_true rfl⟩⟩

theorem Report.allowed_junit_iff (r : Report) :
    Allowed r.junit ↔ ∀ f ∈ r.findings, ∀ t ∈ f.texts, Allowed t := by
  rw [Report.junit, allowed_document_iff r.named_junitElement, Report.junitElement, Element.texts,
    List.forall_mem_append, forall_mem_textsOf]
  constructor
  · rintro ⟨-, hsuites⟩ f hf
    have hsuite := hsuites _ (Report.mem_testSuites.2 ⟨f, hf, rfl⟩)
    rw [allowed_texts_testSuite_iff] at hsuite
    exact hsuite f (List.mem_filter.2 ⟨hf, decide_eq_true rfl⟩)
  · intro hall
    refine ⟨allowed_countAttributes _ _ _ _, fun suite hsuite => ?_⟩
    obtain ⟨f, -, rfl⟩ := Report.mem_testSuites.1 hsuite
    rw [allowed_texts_testSuite_iff]
    exact fun other hother => hall other ((List.mem_filter.1 hother).1)

/-- The document of any report is written in the grammar, and it is well-formed just when the
findings have none but allowed characters. -/
theorem wellFormed_junit_iff (r : Report) :
    DocumentText r.junit ∧
      (WellFormed r.junit ↔ ∀ f ∈ r.findings, ∀ t ∈ f.texts, Allowed t) := by
  have hmarkup : DocumentText r.junit := documentText_document r.named_junitElement
  refine ⟨hmarkup, ?_⟩
  rw [← r.allowed_junit_iff]
  exact ⟨WellFormed.characters, fun hallowed => ⟨hmarkup, hallowed⟩⟩

/-- A finding for a file with a control character in its name. -/
def controlReport : Report := ⟨".", [⟨.copyright, "a\x01.h", .pass "m" 0⟩], 0⟩

theorem not_wellFormed_junit_of_control :
    ¬ WellFormed controlReport.junit ∧ ¬ ∀ r : Report, WellFormed r.junit := by
  have hcontrol : ¬ WellFormed controlReport.junit := by
    intro h
    have hall := controlReport.allowed_junit_iff.1 h.characters
    exact absurd (hall _ List.mem_cons_self "a\x01.h" List.mem_cons_self) (by decide)
  exact ⟨hcontrol, fun hall => hcontrol (hall controlReport)⟩

end SourceAudit
