import SourceAudit.Proofs.Markup.Reading
import SourceAudit.Proofs.Report.Junit
import SourceAudit.Number.Decimal
import Mathlib.Data.List.Forall2

/-!
# What a test runner is told

A reader of a JUnit document gets back what the report says, whatever its texts are: a suite for
each kind of check with findings, in it a case for each finding, and in that one element that tells
the outcome. The counts of a suite are the counts of its cases. The counts of the document are those
of the report, and as long as a counter can hold them they are the sums over the suites.

    ∃ root, document? r.junit = some root ∧ r.ToldBy root                   (junit_tells_report)
-/

namespace SourceAudit

open Markup

namespace Markup.Item

/-- The number in an attribute. -/
def count? (name : Text) (item : Item) : Option Nat :=
  (item.attribute? name).bind Decimal.readNat?

/-- How many elements of a name are in the elements of an item. -/
def countInside (name : Text) (item : Item) : Nat :=
  (item.elements.flatMap elements).countP fun inner => inner.name? = some name

/-- The numbers in an attribute of several items together. -/
def sumOf (name : Text) (items : List Item) : Nat :=
  items.foldr (fun item total => (item.count? name).getD 0 + total) 0

end Markup.Item

/-- An element that tells an outcome and nothing else. -/
def Outcome.ToldBy : Outcome → Item → Prop
  | .pass message _, item =>
    item.name? = some "system-out".toList ∧ item.text? = some message
  | .warn message details, item =>
    item.name? = some "system-out".toList ∧
      item.text? = some ("WARNING: " ++ message ++ " - " ++ details)
  | .fail message details _, item =>
    item.name? = some "failure".toList ∧ item.attribute? "message" = some message ∧
      item.text? = some details
  | .skip reason, item =>
    item.name? = some "skipped".toList ∧ item.attribute? "message" = some reason ∧
      item.inside = []

structure Finding.ToldBy (f : Finding) (item : Item) : Prop where
  name : item.name? = some "testcase".toList
  target : item.attribute? "name" = some f.target
  outcome : ∃ inner, item.elements = [inner] ∧ f.outcome.ToldBy inner
  layout : item.HoldsElements

/-- A suite that tells the findings of one kind. -/
structure CheckKind.ToldBy (kind : CheckKind) (findings : List Finding) (suite : Item) : Prop where
  name : suite.name? = some "testsuite".toList
  kind : suite.attribute? "name" = some kind.id
  cases : List.Forall₂ Finding.ToldBy findings suite.elements
  layout : suite.HoldsElements
  tests : suite.count? "tests" = some suite.elements.length
  failures : suite.count? "failures" = some (suite.countInside "failure")
  skipped : suite.count? "skipped" = some (suite.countInside "skipped")

/-- The kinds of check that have a finding. -/
def Report.kinds (r : Report) : List CheckKind :=
  CheckKind.all.filter fun kind => !(r.byKind kind).isEmpty

/-- A document that tells a report. Its counts are counters of the report, and what the suites count
together is the same in a counter. -/
structure Report.ToldBy (r : Report) (root : Item) : Prop where
  name : root.name? = some "testsuites".toList
  suites : List.Forall₂ (fun kind suite => kind.ToldBy (r.byKind kind) suite) r.kinds root.elements
  layout : root.HoldsElements
  tests : root.count? "tests" = some r.summary.total.toNat ∧
    r.summary.total = .ofNat (Item.sumOf "tests" root.elements)
  failures : root.count? "failures" = some r.summary.failed.toNat ∧
    r.summary.failed = .ofNat (Item.sumOf "failures" root.elements)
  skipped : root.count? "skipped" = some r.summary.skipped.toNat ∧
    r.summary.skipped = .ofNat (Item.sumOf "skipped" root.elements)

/-! ## Outcomes and findings -/

theorem Outcome.toldBy_item (o : Outcome) (depth : Nat) : o.ToldBy (o.element.item depth) := by
  cases o with
  | pass message time => exact ⟨rfl, congrArg some (decode_encode _)⟩
  | warn message details => exact ⟨rfl, congrArg some (decode_encode _)⟩
  | fail message details time =>
    have hmessage := (Outcome.fail message details time).named_element.attribute?_item depth
      List.mem_cons_self
    exact ⟨rfl, hmessage, congrArg some (decode_encode _)⟩
  | skip reason =>
    have hreason := (Outcome.skip reason).named_element.attribute?_item depth List.mem_cons_self
    exact ⟨rfl, hreason, rfl⟩

theorem Finding.toldBy_item (f : Finding) (depth : Nat) : f.ToldBy (f.testCase.item depth) where
  name := rfl
  target := f.named_testCase.attribute?_item depth List.mem_cons_self
  outcome := ⟨_, elements_item_group depth _ _ _, f.outcome.toldBy_item _⟩
  layout := holdsElements_item_group depth _ _ _

/-! ## Counts -/

theorem count?_item {e : Element} (h : e.Named) (depth : Nat) {name : Text} {n : Nat}
    (ha : ⟨name, Text.ofNat n⟩ ∈ e.attributes) : (e.item depth).count? name = some n := by
  have hvalue : (e.item depth).attribute? name = some (Text.ofNat n) := h.attribute?_item depth ha
  rw [Item.count?, hvalue, Option.bind_some, Decimal.readNat?_ofNat]

theorem elements_item_testSuite (kind : CheckKind) (findings : List Finding) (depth : Nat) :
    ((testSuite kind findings).item depth).elements =
      findings.map fun f => f.testCase.item (depth + 1) := by
  rw [testSuite, elements_item_group, List.map_map]
  rfl

/-- The elements that tell outcomes are counted by what they tell. -/
theorem countInside_item_testSuite (kind : CheckKind) (findings : List Finding) (depth : Nat)
    {name : Text} {p : Finding → Bool}
    (h : ∀ f : Finding, ∀ d, (f.outcome.element.item d).name? = some name ↔ p f = true) :
    ((testSuite kind findings).item depth).countInside name = findings.countP p := by
  have hinside : ((testSuite kind findings).item depth).elements.flatMap Item.elements =
      findings.map fun f => f.outcome.element.item (depth + 2) := by
    rw [elements_item_testSuite, List.flatMap_map, List.map_eq_flatMap]
    exact List.flatMap_congr fun f _ => elements_item_group (depth + 1) _ _ [f.outcome.element]
  rw [Item.countInside, hinside, List.countP_map]
  refine List.countP_congr fun f _ => ?_
  rw [Function.comp_apply, decide_eq_true_eq]
  exact h f (depth + 2)

theorem Outcome.name?_item_failure (o : Outcome) (depth : Nat) :
    (o.element.item depth).name? = some "failure".toList ↔ o.isFailure = true := by
  have hsystem : "system-out".toList ≠ "failure".toList := by decide
  have hskipped : "skipped".toList ≠ "failure".toList := by decide
  cases o with
  | pass message time => exact iff_of_false (hsystem ∘ Option.some.inj) Bool.false_ne_true
  | warn message details => exact iff_of_false (hsystem ∘ Option.some.inj) Bool.false_ne_true
  | fail message details time => exact iff_of_true rfl rfl
  | skip reason => exact iff_of_false (hskipped ∘ Option.some.inj) Bool.false_ne_true

theorem Outcome.name?_item_skipped (o : Outcome) (depth : Nat) :
    (o.element.item depth).name? = some "skipped".toList ↔ o.isSkip = true := by
  have hsystem : "system-out".toList ≠ "skipped".toList := by decide
  have hfailure : "failure".toList ≠ "skipped".toList := by decide
  cases o with
  | pass message time => exact iff_of_false (hsystem ∘ Option.some.inj) Bool.false_ne_true
  | warn message details => exact iff_of_false (hsystem ∘ Option.some.inj) Bool.false_ne_true
  | fail message details time => exact iff_of_false (hfailure ∘ Option.some.inj) Bool.false_ne_true
  | skip reason => exact iff_of_true rfl rfl

theorem count?_tests_item (kind : CheckKind) (findings : List Finding) (depth : Nat) :
    ((testSuite kind findings).item depth).count? "tests" =
      some (findings.countP fun _ => true) := by
  rw [List.countP_true]
  exact count?_item (named_testSuite kind findings) depth (.tail _ (.head _))

theorem count?_failures_item (kind : CheckKind) (findings : List Finding) (depth : Nat) :
    ((testSuite kind findings).item depth).count? "failures" =
      some (findings.countP (·.outcome.isFailure)) :=
  count?_item (named_testSuite kind findings) depth (.tail _ (.tail _ (.head _)))

theorem count?_skipped_item (kind : CheckKind) (findings : List Finding) (depth : Nat) :
    ((testSuite kind findings).item depth).count? "skipped" =
      some (findings.countP (·.outcome.isSkip)) :=
  count?_item (named_testSuite kind findings) depth
    (.tail _ (.tail _ (.tail _ (.tail _ (.head _)))))

theorem toldBy_item_testSuite (kind : CheckKind) (findings : List Finding) (depth : Nat) :
    kind.ToldBy findings ((testSuite kind findings).item depth) := by
  have hnamed := named_testSuite kind findings
  have hcases := elements_item_testSuite kind findings depth
  constructor
  · rfl
  · exact hnamed.attribute?_item depth List.mem_cons_self
  · rw [hcases, List.forall₂_map_right_iff, List.forall₂_same]
    exact fun f _ => f.toldBy_item (depth + 1)
  · exact holdsElements_item_group depth _ _ _
  · rw [hcases, List.length_map, count?_tests_item, List.countP_true]
  · rw [countInside_item_testSuite kind findings depth fun f d => f.outcome.name?_item_failure d]
    exact count?_failures_item kind findings depth
  · rw [countInside_item_testSuite kind findings depth fun f d => f.outcome.name?_item_skipped d]
    exact count?_skipped_item kind findings depth

/-! ## Sums -/

/-- Every finding counts for its kind and for no other. -/
theorem Report.countP_eq_foldr (r : Report) (p : Finding → Bool) :
    CheckKind.all.foldr (fun kind total => (r.byKind kind).countP p + total) 0 =
      r.findings.countP p := by
  simp only [CheckKind.all, List.foldr_cons, List.foldr_nil, Report.byKind]
  induction r.findings with
  | nil => rfl
  | cons f rest ih =>
    rw [List.countP_cons, ← ih]
    cases hkind : f.kind <;> simp [hkind, List.countP_cons] <;> omega

theorem Report.countP_eq_foldr_kinds (r : Report) (p : Finding → Bool) :
    r.kinds.foldr (fun kind total => (r.byKind kind).countP p + total) 0 =
      r.findings.countP p := by
  rw [← r.countP_eq_foldr p, Report.kinds]
  induction CheckKind.all with
  | nil => rfl
  | cons kind rest ih =>
    by_cases hnone : r.byKind kind = []
    · rw [List.filter_cons_of_neg (by simp [hnone]), ih, List.foldr_cons, hnone, List.countP_nil,
        Nat.zero_add]
    · rw [List.filter_cons_of_pos (by simp [hnone]), List.foldr_cons, List.foldr_cons, ih]

theorem Report.elements_item (r : Report) (depth : Nat) :
    (r.junitElement.item depth).elements =
      r.kinds.map fun kind => (testSuite kind (r.byKind kind)).item (depth + 1) := by
  rw [Report.junitElement, elements_item_group, Report.testSuites, List.map_map]
  rfl

/-- What every suite counts of its findings adds up to the same count of all findings. -/
theorem Report.sumOf_elements (r : Report) (depth : Nat) {name : Text} {p : Finding → Bool}
    (h : ∀ kind findings d, ((testSuite kind findings).item d).count? name =
      some (findings.countP p)) :
    Item.sumOf name (r.junitElement.item depth).elements = r.findings.countP p := by
  rw [← r.countP_eq_foldr_kinds p, r.elements_item, Item.sumOf, List.foldr_map]
  congr 1
  funext kind total
  rw [h, Option.getD_some]

theorem Report.toldBy_item (r : Report) : r.ToldBy (r.junitElement.item 0) := by
  have hnamed := r.named_junitElement
  constructor
  · rfl
  · rw [r.elements_item, List.forall₂_map_right_iff, List.forall₂_same]
    exact fun kind _ => toldBy_item_testSuite kind _ _
  · exact holdsElements_item_group 0 _ _ _
  · refine ⟨count?_item hnamed 0 (.head _), ?_⟩
    rw [r.sumOf_elements 0 count?_tests_item, List.countP_true, Report.summary,
      Summary.ofFindings_eq]
  · refine ⟨count?_item hnamed 0 (.tail _ (.head _)), ?_⟩
    rw [r.sumOf_elements 0 count?_failures_item, Report.summary, Summary.ofFindings_eq]
  · refine ⟨count?_item hnamed 0 (.tail _ (.tail _ (.tail _ (.head _)))), ?_⟩
    rw [r.sumOf_elements 0 count?_skipped_item, Report.summary, Summary.ofFindings_eq]

/-- As long as a counter can hold it, a count of the document is the sum over the suites. -/
theorem Report.count?_junitElement (r : Report) (h : r.findings.length < UInt32.size)
    {name : Text} (hname : name ∈ ["tests".toList, "failures".toList, "skipped".toList]) :
    (r.junitElement.item 0).count? name =
      some (Item.sumOf name (r.junitElement.item 0).elements) := by
  have htold := r.toldBy_item
  have hsum {counted : Text} {p : Finding → Bool}
      (hcount : ∀ kind findings d, ((testSuite kind findings).item d).count? counted =
        some (findings.countP p)) :
      (UInt32.ofNat (Item.sumOf counted (r.junitElement.item 0).elements)).toNat =
        Item.sumOf counted (r.junitElement.item 0).elements := by
    rw [r.sumOf_elements 0 hcount]
    exact UInt32.toNat_ofNat_of_lt' (Nat.lt_of_le_of_lt List.countP_le_length h)
  simp only [List.mem_cons, List.not_mem_nil, or_false] at hname
  rcases hname with rfl | rfl | rfl
  · rw [htold.tests.1, htold.tests.2, hsum count?_tests_item]
  · rw [htold.failures.1, htold.failures.2, hsum count?_failures_item]
  · rw [htold.skipped.1, htold.skipped.2, hsum count?_skipped_item]

/-! ## Top theorem -/

/-- Escaped text has no character that ends a text or a tag, and gives the text back; and so a
reader of the document is told the report, whatever texts are in it. As long as a counter can hold
them, the counts of the document are the sums over its suites. -/
theorem junit_tells_report (r : Report) :
    (∀ t : Text,
      (∀ c ∈ encode t, c ≠ '<' ∧ c ≠ '>' ∧ c ≠ '"' ∧ c ≠ '\'') ∧
      (∀ before after, encode t = before ++ '&' :: after →
        ∃ entity ∈ predefined, entity <+: '&' :: after) ∧
      decode (encode t) = t) ∧
    ∃ root, document? r.junit = some root ∧ r.ToldBy root ∧
      (r.findings.length < UInt32.size →
        ∀ name ∈ ["tests".toList, "failures".toList, "skipped".toList],
          root.count? name = some (Item.sumOf name root.elements)) := by
  refine ⟨fun t => ⟨fun c hc => ?_, fun before after h => exists_entity_of_encode_eq h,
    decode_encode t⟩, r.junitElement.item 0, document?_document r.named_junitElement, r.toldBy_item,
    fun h _ hname => r.count?_junitElement h hname⟩
  have hplain := isPlain_of_mem_encode hc
  simp only [isPlain, Bool.and_eq_true, bne_iff_ne] at hplain
  exact ⟨hplain.1.1.1, hplain.1.1.2, hplain.1.2, hplain.2⟩

end SourceAudit
