import SourceAudit.Proofs.Check.Thresholds
import SourceAudit.Proofs.Number.Fixed

/-!
# What a verdict says of itself

The sentence about a metric shows its value and its threshold with one decimal place, the operator
between them, and a mark if the threshold is not met. The mark goes by the exact numbers. As
rounding keeps their order, mark and numerals agree wherever the numerals differ. Where both numbers
are rounded to the same numeral they agree unless the exact ones differ in the one direction that
the numerals no longer show: a value below its threshold where equality is enough, or above it where
it is not.

    a sentence is consistent ↔ its numerals differ, or the exact numbers do not differ the way
      that decides                                                  (verdict_text_consistent_iff)
-/

namespace SourceAudit

/-! ## The rule -/

/-- The parts of what is said about a metric. -/
structure Sentence where
  metric : Text
  value : Text
  operator : Text
  threshold : Text
  /-- Does it say that the threshold is not met? -/
  marked : Bool

namespace Sentence

def text (s : Sentence) : Text :=
  s.metric ++ " coverage " ++ s.value ++ "% (required " ++ s.operator ++ " " ++ s.threshold ++
    "%)" ++ (if s.marked then (" not met" : Text) else [])

/-- The numbers that the two numerals write. -/
def Shows (s : Sentence) (p q : ℚ) : Prop :=
  Decimal.number? s.value = some p ∧ Decimal.number? s.threshold = some q

/-- Do two numbers stand in the order that an operator asks for? -/
def Compares (operator : Text) (p q : ℚ) : Prop :=
  operator = (">=" : Text) ∧ q ≤ p ∨ operator = (">" : Text) ∧ q < p

/-- The numbers shown are in the order that is shown just if nothing says that they are not. -/
def Consistent (s : Sentence) : Prop :=
  ∃ p q, s.Shows p q ∧ (Compares s.operator p q ↔ s.marked = false)

end Sentence

def MetricVerdict.sentence (m : MetricVerdict) (mode : ThresholdMode) : Sentence where
  metric := m.metric.name
  value := m.value.fixed 1
  operator := mode.operator
  threshold := m.threshold.fixed 1
  marked := !m.met

def CoverageVerdict.sentences (v : CoverageVerdict) : List Sentence :=
  [v.lines.sentence v.mode, v.functions.sentence v.mode]

def CoverageSummary.IsFinite (s : CoverageSummary) : Prop :=
  s.lines.IsFinite ∧ s.functions.IsFinite

instance (s : CoverageSummary) : Decidable s.IsFinite :=
  inferInstanceAs (Decidable (_ ∧ _))

def CoverageThresholds.IsFinite (t : CoverageThresholds) : Prop :=
  t.lines.IsFinite ∧ t.functions.IsFinite

instance (t : CoverageThresholds) : Decidable t.IsFinite :=
  inferInstanceAs (Decidable (_ ∧ _))

/-- The difference between a value and its threshold that two equal numerals hide. -/
def ThresholdMode.Hides (mode : ThresholdMode) (value threshold : Binary64) : Prop :=
  match mode with
  | .atLeast => value < threshold
  | .above => threshold < value

/-! ## Sentences -/

theorem MetricVerdict.text_sentence (m : MetricVerdict) (mode : ThresholdMode) :
    (m.sentence mode).text = m.text mode := by
  unfold MetricVerdict.sentence Sentence.text MetricVerdict.text
  cases m.met <;> rfl

theorem CoverageVerdict.text_sentences (v : CoverageVerdict) :
    List.intercalate ("; " : Text) (v.sentences.map Sentence.text) = v.text := by
  unfold CoverageVerdict.sentences CoverageVerdict.text
  rw [List.map_cons, List.map_singleton, MetricVerdict.text_sentence, MetricVerdict.text_sentence]

theorem Sentence.compares_operator {mode : ThresholdMode} {p q : ℚ} :
    Compares mode.operator p q ↔
      match mode with
      | .atLeast => q ≤ p
      | .above => q < p := by
  cases mode with
  | atLeast => simp [Compares, ThresholdMode.operator]
  | above => simp [Compares, ThresholdMode.operator]

theorem Sentence.Shows.unique {s : Sentence} {p q p' q' : ℚ} (h : s.Shows p q)
    (h' : s.Shows p' q') : p = p' ∧ q = q' :=
  ⟨Option.some.inj (h.1.symm.trans h'.1), Option.some.inj (h.2.symm.trans h'.2)⟩

theorem Sentence.Shows.consistent_iff {s : Sentence} {p q : ℚ} (h : s.Shows p q) :
    s.Consistent ↔ (Compares s.operator p q ↔ s.marked = false) := by
  constructor
  · rintro ⟨p', q', h', hagrees⟩
    obtain ⟨rfl, rfl⟩ := h.unique h'
    exact hagrees
  · exact fun hagrees => ⟨p, q, h, hagrees⟩

/-! ## One metric -/

theorem Binary64.not_lt_iff {x y : Binary64} (hx : x.IsFinite) (hy : y.IsFinite) :
    ¬ x < y ↔ y ≤ x := by
  rw [Binary64.lt_iff, Binary64.le_iff]
  simp [hx.isNaN_eq, hy.isNaN_eq]

theorem MetricVerdict.shows_sentence {m : MetricVerdict} (mode : ThresholdMode)
    (hvalue : m.value.IsFinite) (hthreshold : m.threshold.IsFinite) :
    (m.sentence mode).Shows (m.value.inPlaces 1 / 10) (m.threshold.inPlaces 1 / 10) := by
  have hten : (10 : ℚ) ^ 1 = 10 := pow_one 10
  refine ⟨?_, ?_⟩
  · rw [← hten]
    exact Binary64.number?_fixed Nat.one_pos hvalue
  · rw [← hten]
    exact Binary64.number?_fixed Nat.one_pos hthreshold

/-- The order of the exact numbers is the order of the numerals, and where these are the same the
verdict shows what it should not just if it goes by the difference that they hide. -/
theorem MetricVerdict.consistent_sentence_iff {m : MetricVerdict} {mode : ThresholdMode}
    (hvalue : m.value.IsFinite) (hthreshold : m.threshold.IsFinite)
    (hmet : m.met = mode.meets m.value m.threshold) :
    (m.sentence mode).Consistent ↔
      ¬ (m.value.inPlaces 1 = m.threshold.inPlaces 1 ∧ mode.Hides m.value m.threshold) := by
  have hten : (0 : ℚ) < 10 := by decide
  have hup : m.value ≤ m.threshold → m.value.inPlaces 1 ≤ m.threshold.inPlaces 1 :=
    fun h => Binary64.inPlaces_le 1 h.2.2
  have hdown : m.threshold ≤ m.value → m.threshold.inPlaces 1 ≤ m.value.inPlaces 1 :=
    fun h => Binary64.inPlaces_le 1 h.2.2
  have hmarked : (m.sentence mode).marked = false ↔ mode.meets m.value m.threshold = true := by
    rw [← hmet, MetricVerdict.sentence, Bool.not_eq_false']
  rw [(MetricVerdict.shows_sentence mode hvalue hthreshold).consistent_iff, hmarked,
    MetricVerdict.sentence, Sentence.compares_operator]
  cases mode with
  | atLeast =>
    dsimp only
    rw [ThresholdMode.meets_atLeast_iff, ThresholdMode.Hides, div_le_div_iff_of_pos_right hten,
      Int.cast_le]
    by_cases hlt : m.value < m.threshold
    · have hle := hup (Binary64.le_of_lt hlt)
      have hnot : ¬ m.threshold ≤ m.value :=
        fun h => (Binary64.not_lt_iff hvalue hthreshold).2 h hlt
      simp only [hlt, hnot, and_true, iff_false, Int.not_le]
      omega
    · have hge := (Binary64.not_lt_iff hvalue hthreshold).1 hlt
      simp only [hlt, hge, hdown hge, and_false, not_false_eq_true]
  | above =>
    dsimp only
    rw [ThresholdMode.meets_above_iff, ThresholdMode.Hides, div_lt_div_iff_of_pos_right hten,
      Int.cast_lt]
    by_cases hlt : m.threshold < m.value
    · have hle := hdown (Binary64.le_of_lt hlt)
      simp only [hlt, and_true, iff_true]
      omega
    · have hge := hup ((Binary64.not_lt_iff hthreshold hvalue).1 hlt)
      simp only [hlt, and_false, not_false_eq_true, iff_true, iff_false, Int.not_lt]
      exact hge

/-- A metric of a verdict puts a number of the summary against its threshold. -/
theorem CoverageSummary.metric_of_mem_evaluate {s : CoverageSummary} {t : CoverageThresholds}
    {m : MetricVerdict} (hs : s.IsFinite) (ht : t.IsFinite)
    (hm : m ∈ [(s.evaluate t).lines, (s.evaluate t).functions]) :
    m.value.IsFinite ∧ m.threshold.IsFinite ∧ m.met = t.mode.meets m.value m.threshold := by
  rw [List.mem_pair] at hm
  rcases hm with rfl | rfl
  · exact ⟨hs.1, ht.1, rfl⟩
  · exact ⟨hs.2, ht.2, rfl⟩

/-! ## Top theorem -/

/-- The text of a verdict is made of a sentence for each metric. Its numerals write the value and
the threshold to a tenth, and it is consistent unless these are the same number while the exact ones
differ the way that decides. -/
theorem verdict_text_consistent_iff (s : CoverageSummary) (t : CoverageThresholds)
    (hs : s.IsFinite) (ht : t.IsFinite) :
    (s.evaluate t).text =
        List.intercalate ("; " : Text) ((s.evaluate t).sentences.map Sentence.text) ∧
      (s.evaluate t).sentences =
        [(s.evaluate t).lines, (s.evaluate t).functions].map (·.sentence t.mode) ∧
      ∀ m ∈ [(s.evaluate t).lines, (s.evaluate t).functions],
        (m.sentence t.mode).Shows (m.value.inPlaces 1 / 10) (m.threshold.inPlaces 1 / 10) ∧
          ((m.sentence t.mode).Consistent ↔
            ¬ (m.value.inPlaces 1 = m.threshold.inPlaces 1 ∧
              t.mode.Hides m.value m.threshold)) := by
  refine ⟨(CoverageVerdict.text_sentences _).symm, rfl, fun m hm => ?_⟩
  obtain ⟨hvalue, hthreshold, hmet⟩ := CoverageSummary.metric_of_mem_evaluate hs ht hm
  exact ⟨MetricVerdict.shows_sentence t.mode hvalue hthreshold,
    MetricVerdict.consistent_sentence_iff hvalue hthreshold hmet⟩

/-! Values that are rounded to their thresholds: one above, and one below. -/

def justOver : CoverageSummary := ⟨.ofDecimal false 8004 (-2), .ofNat 85⟩

def nearMiss : CoverageSummary := ⟨.ofDecimal false 7996 (-2), .ofNat 90⟩

def eighties (mode : ThresholdMode) : CoverageThresholds := ⟨.ofNat 80, .ofNat 80, mode⟩

theorem verdict_text_consistent_iff_justOver :
    justOver.IsFinite ∧ (eighties .above).IsFinite ∧
      (justOver.evaluate (eighties .above)).text =
        ("lines coverage 80.0% (required > 80.0%); functions coverage 85.0% (required > 80.0%)" :
          Text) ∧
      ¬ ((justOver.evaluate (eighties .above)).lines.sentence .above).Consistent ∧
      ((justOver.evaluate (eighties .above)).functions.sentence .above).Consistent := by
  have hs : justOver.IsFinite := by decide +kernel
  have ht : (eighties .above).IsFinite := by decide +kernel
  obtain ⟨-, -, hmetrics⟩ := verdict_text_consistent_iff justOver (eighties .above) hs ht
  obtain ⟨-, hlines⟩ := hmetrics _ List.mem_cons_self
  obtain ⟨-, hfunctions⟩ := hmetrics _ (List.mem_cons_of_mem _ List.mem_cons_self)
  refine ⟨hs, ht, by decide +kernel, fun h => hlines.1 h ⟨?_, ?_⟩, hfunctions.2 fun h => ?_⟩
  · decide +kernel
  · show justOver.lines > (eighties .above).lines
    decide +kernel
  · exact absurd h.1 (by decide +kernel)

/-- A near miss is said to be a value of 80.0 that is not at least 80.0. -/
theorem near_miss_inconsistent :
    nearMiss.IsFinite ∧ (eighties .atLeast).IsFinite ∧
      (nearMiss.evaluate (eighties .atLeast)).text =
        ("lines coverage 80.0% (required >= 80.0%) not met; " ++
          "functions coverage 90.0% (required >= 80.0%)" : Text) ∧
      ¬ ∀ sentence ∈ (nearMiss.evaluate (eighties .atLeast)).sentences, sentence.Consistent := by
  have hs : nearMiss.IsFinite := by decide +kernel
  have ht : (eighties .atLeast).IsFinite := by decide +kernel
  obtain ⟨hvalue, hthreshold, hmet⟩ := CoverageSummary.metric_of_mem_evaluate hs ht
    List.mem_cons_self
  refine ⟨hs, ht, by decide +kernel, fun h => ?_⟩
  have hlines := h _ List.mem_cons_self
  refine (MetricVerdict.consistent_sentence_iff hvalue hthreshold hmet).1 hlines ⟨?_, ?_⟩
  · decide +kernel
  · show nearMiss.lines < (eighties .atLeast).lines
    decide +kernel

end SourceAudit
