import SourceAudit.Proofs.Check.Coverage
import SourceAudit.Proofs.Text.Letter
import SourceAudit.Proofs.Text.Lines
import SourceAudit.Settings.Basic

/-!
# Rows of a coverage summary

A row of a summary is the label of its metric, a percentage with its sign, and a tail. The label has
no sign in it and ends in a space, which no percentage has: so the percentage is the first one of
the row and goes back to the label, whatever the tail says. The row of functions with its counts has
no `l` in it, in capitals or not, so that it never passes for the row of lines.

    rows[i]? = some (metric.row rate) → rate.token denotes x → row `i` gives `x`   (extracts_row)
    rate.tail counts functions → lower (Metric.row .functions rate) does not name lines
                                                                            (not_named_of_counts)
-/

namespace SourceAudit

/-! ## The rule -/

/-- How the row of a metric begins. -/
def Metric.label : Metric → Text
  | .lines => "  lines......: "
  | .functions => "  functions..: "

/-- A percentage in ASCII digits, and what the row says behind its sign. -/
structure Rate where
  token : Text
  tail : Text
  percentage : IsPercentage token
  ascii : IsAscii token
  one_line : '\n' ∉ tail

def Metric.row (metric : Metric) (rate : Rate) : Text :=
  metric.label ++ (rate.token ++ '%' :: rate.tail)

/-- A tail that counts functions. -/
def countsText (hit total : Text) : Text := " (" ++ hit ++ " of " ++ total ++ " functions)"

/-- The text of four lines and of whatever follows them. -/
def fourLines (first second third fourth rest : Text) : Text :=
  Text.unlines [first, second, third] ++ (fourth ++ rest)

/-! ## The characters of a row -/

namespace Metric

variable (metric : Metric) (rate : Rate)

theorem sign_not_mem_label : '%' ∉ metric.label := by
  cases metric <;> decide

theorem exists_label_eq : ∃ front, metric.label = front ++ [' '] := by
  cases metric with
  | lines => exact ⟨"  lines......:", rfl⟩
  | functions => exact ⟨"  functions..:", rfl⟩

theorem newline_not_mem_row : '\n' ∉ metric.row rate := by
  have hlabel : '\n' ∉ metric.label := by
    cases metric <;> decide
  have htoken : '\n' ∉ rate.token := rate.percentage.not_mem (by decide) (by decide)
  simp only [row, List.mem_append, List.mem_cons, not_or]
  exact ⟨hlabel, htoken, by decide, rate.one_line⟩

/-- A row in small letters still names its metric. -/
theorem named_row : metric.name <:+: Text.lower (metric.row rate) := by
  have hname : metric.name <:+: Text.lower metric.label := by
    cases metric with
    | lines => exact ⟨"  ", "......: ", by decide⟩
    | functions => exact ⟨"  ", "..: ", by decide⟩
  rw [row, Text.lower_append]
  exact hname.trans (List.prefix_append _ _).isInfix

/-! ## The percentage of a row -/

theorem firstSign_row : FirstSign (metric.row rate) (metric.label ++ rate.token) := by
  have hrow : metric.row rate = metric.label ++ rate.token ++ '%' :: rate.tail :=
    (List.append_assoc _ _ _).symm
  refine ⟨⟨rate.percentage.endsInDigit.append _, rate.tail, ?_⟩, fun other hother => ?_⟩
  · rw [hrow, List.append_assoc _ ['%']]
    rfl
  · -- an earlier sign would stand in the label or in the percentage
    refine Nat.le_of_not_lt fun hlt => ?_
    have hprefix : other ++ ['%'] <+: metric.label ++ rate.token := by
      refine List.prefix_of_prefix_length_le hother.2 ?_ ?_
      · rw [hrow]
        exact List.prefix_append _ _
      · rw [List.length_append, List.length_singleton]
        exact hlt
    have hmem : '%' ∈ metric.label ++ rate.token :=
      hprefix.subset (List.mem_append_right other (List.mem_singleton.2 rfl))
    rcases List.mem_append.1 hmem with hmem | hmem
    · exact metric.sign_not_mem_label hmem
    · exact rate.percentage.sign_not_mem hmem

/-- A longer percentage would have the space of the label in it. -/
theorem isLongestEnd_row :
    IsLongestEnd IsPercentage (metric.label ++ rate.token) rate.token := by
  refine ⟨rate.percentage, List.suffix_append _ _, fun other hother hsuffix => ?_⟩
  refine Nat.le_of_not_lt fun hlt => ?_
  obtain ⟨front, hfront⟩ := metric.exists_label_eq
  have hspaced : ' ' :: rate.token <:+ metric.label ++ rate.token :=
    ⟨front, by rw [hfront, List.append_assoc]; rfl⟩
  have hlonger : ' ' :: rate.token <:+ other :=
    List.suffix_of_suffix_length_le hspaced hsuffix hlt
  have hspace : ' ' ∉ other := hother.not_mem (by decide) (by decide)
  exact hspace (hlonger.subset List.mem_cons_self)

theorem extracts_row {rows : List Text} {i : Nat} (hline : rows[i]? = some (metric.row rate))
    {x : Binary64} (hx : Decimal.Denotes rate.token x) : Extracts rows i metric (.ok x) :=
  .number hline (metric.named_row rate) (metric.firstSign_row rate) (metric.isLongestEnd_row rate)
    rate.ascii hx

/-- Without the carriage return that ends it a row is still one of the same percentage. -/
theorem exists_withoutReturn_row_eq :
    ∃ other : Rate, other.token = rate.token ∧
      Text.withoutReturn (metric.row rate) = metric.row other := by
  have hlast : (metric.label ++ (rate.token ++ ['%'])).getLast? ≠ some '\r' := by
    rw [← List.append_assoc, List.getLast?_concat]
    decide
  have htail : '\n' ∉ Text.withoutReturn rate.tail := fun hmem =>
    rate.one_line ((Text.isPrefix_withoutReturn rate.tail).subset hmem)
  refine ⟨⟨rate.token, Text.withoutReturn rate.tail, rate.percentage, rate.ascii, htail⟩, rfl, ?_⟩
  have hrow : metric.row rate = metric.label ++ (rate.token ++ ['%']) ++ rate.tail := by
    simp [row]
  rw [hrow, Text.withoutReturn_append hlast]
  simp [row]

/-- A row of functions with its counts has the characters of its label and of its counts in it, and
digits. -/
theorem not_mem_row_of_counts {rate : Rate} {hit total : Text}
    (hhit : ∀ d ∈ hit, Text.isDecimalDigit d = true)
    (htotal : ∀ d ∈ total, Text.isDecimalDigit d = true)
    (htail : rate.tail = countsText hit total) {c : Char} (hdigit : Text.isDecimalDigit c = false)
    (hfixed : c ∉ label .functions ++ '%' :: countsText [] []) : c ∉ row .functions rate := by
  have hnone : ∀ {t : Text}, (∀ d ∈ t, Text.isDecimalDigit d = true) → c ∉ t := fun ht hmem => by
    rw [ht c hmem] at hdigit
    cases hdigit
  have hdot : c ≠ '.' := fun hc => hfixed (hc ▸ by decide)
  have htoken : c ∉ rate.token := rate.percentage.not_mem hdigit hdot
  rw [row, htail, countsText]
  simp only [countsText, List.mem_append, List.mem_cons, List.not_mem_nil, not_or, or_false]
    at hfixed ⊢
  obtain ⟨hlabel, hsign, ⟨hopen, hof⟩, hclose⟩ := hfixed
  exact ⟨hlabel, htoken, hsign, ⟨⟨⟨hopen, hnone hhit⟩, hof⟩, hnone htotal⟩, hclose⟩

theorem not_named_of_counts {rate : Rate} {hit total : Text}
    (hhit : ∀ d ∈ hit, Text.isDecimalDigit d = true)
    (htotal : ∀ d ∈ total, Text.isDecimalDigit d = true)
    (htail : rate.tail = countsText hit total) :
    ¬ name .lines <:+: Text.lower (row .functions rate) := by
  intro hnamed
  have hmem : 'l' ∈ Text.lower (row .functions rate) := hnamed.subset List.mem_cons_self
  rcases Text.of_l_mem_lower hmem with hsmall | hcapital
  · exact not_mem_row_of_counts hhit htotal htail (by decide) (by decide) hsmall
  · exact not_mem_row_of_counts hhit htotal htail (by decide) (by decide) hcapital

end Metric

/-! ## The lines of a summary -/

theorem lines_fourLines {first second third fourth rest : Text} (hfirst : '\n' ∉ first)
    (hsecond : '\n' ∉ second) (hthird : '\n' ∉ third) :
    Text.lines (fourLines first second third fourth rest) =
      Text.withoutReturn first :: Text.withoutReturn second :: Text.withoutReturn third ::
        Text.lines (fourth ++ rest) := by
  have hlines : ∀ line ∈ [first, second, third], '\n' ∉ line :=
    List.forall_mem_cons.2 ⟨hfirst, List.forall_mem_cons.2
      ⟨hsecond, List.forall_mem_singleton.2 hthird⟩⟩
  exact Text.lines_unlines_append hlines (fourth ++ rest)

namespace Metric

/-- At the end of a text or in front of a newline a row is the first line that is left. -/
theorem exists_lines_row_append (metric : Metric) (rate : Rate) {rest : Text}
    (hrest : rest = [] ∨ ∃ more, rest = '\n' :: more) :
    ∃ (other : Rate) (more : List Text), other.token = rate.token ∧
      Text.lines (metric.row rate ++ rest) = metric.row other :: more := by
  have hrow := metric.newline_not_mem_row rate
  rcases hrest with rfl | ⟨more, rfl⟩
  · have hne : metric.row rate ≠ [] := by
      cases metric <;> exact List.cons_ne_nil _ _
    rw [List.append_nil, Text.lines_of_not_mem hrow hne]
    exact ⟨rate, [], rfl, rfl⟩
  · obtain ⟨other, htoken, hother⟩ := metric.exists_withoutReturn_row_eq rate
    rw [Text.lines_append_newline hrow, hother]
    exact ⟨other, _, htoken, rfl⟩

theorem withoutReturn_row_of_counts {metric : Metric} {rate : Rate} {hit total : Text}
    (htail : rate.tail = countsText hit total) :
    Text.withoutReturn (metric.row rate) = metric.row rate := by
  have hlast : metric.row rate = metric.label ++ (rate.token ++ '%' :: (" (" ++ hit ++ " of " ++
      total ++ " functions")) ++ [')'] := by
    rw [row, htail, countsText]
    simp
  rw [hlast]
  exact Text.withoutReturn_concat (by decide) _

end Metric

/-! ## Top theorem -/

/-- A summary whose third and fourth rows are those of lines and functions gives the numbers that
stand in them, whatever the first two lines, the tails and the rest of the text say. With the rows
in the wrong order and counts of functions in the third, that row is none of lines. -/
theorem lcovSummary_read (first second rest : Text) (a b : Rate) (hfirst : '\n' ∉ first)
    (hsecond : '\n' ∉ second) (hrest : rest = [] ∨ ∃ more, rest = '\n' :: more) :
    (∃ summary, CoverageSummary.ofText?
        (fourLines first second (Metric.row .lines a) (Metric.row .functions b) rest)
        CoverageSettings.default.rows = .ok summary ∧
      Decimal.Denotes a.token summary.lines ∧ Decimal.Denotes b.token summary.functions) ∧
    ∀ hit total, (∀ c ∈ hit, Text.isDecimalDigit c = true) →
      (∀ c ∈ total, Text.isDecimalDigit c = true) → b.tail = countsText hit total →
      CoverageSummary.ofText?
          (fourLines first second (Metric.row .functions b) (Metric.row .lines a) rest)
          CoverageSettings.default.rows =
        .error (.unexpectedRow 2 .lines (Metric.row .functions b)) := by
  have ha := Metric.newline_not_mem_row .lines a
  have hb := Metric.newline_not_mem_row .functions b
  constructor
  · obtain ⟨x, -, hx⟩ := a.percentage.exists_readBinary64?_eq a.ascii
    obtain ⟨y, -, hy⟩ := b.percentage.exists_readBinary64?_eq b.ascii
    obtain ⟨third, hthird, hthirdRow⟩ := Metric.exists_withoutReturn_row_eq .lines a
    obtain ⟨fourth, more, hfourth, hmore⟩ := Metric.exists_lines_row_append .functions b hrest
    rw [← hthird] at hx
    rw [← hfourth] at hy
    refine ⟨⟨x, y⟩, ?_, hthird ▸ hx, hfourth ▸ hy⟩
    rw [CoverageSummary.ofText?_eq_ok_iff, lines_fourLines hfirst hsecond ha, hthirdRow, hmore]
    exact ⟨extract_eq_iff.2 (Metric.extracts_row .lines third rfl hx),
      extract_eq_iff.2 (Metric.extracts_row .functions fourth rfl hy)⟩
  · intro hit total hhit htotal htail
    rw [CoverageSummary.ofText?_eq_error_iff, lines_fourLines hfirst hsecond hb,
      Metric.withoutReturn_row_of_counts htail]
    exact Or.inl (extract_eq_iff.2
      (.unexpected rfl (Metric.not_named_of_counts hhit htotal htail)))

theorem isDigits_of_all {t : Text} (hne : t ≠ []) (h : t.all Text.isDecimalDigit = true) :
    IsDigits t :=
  ⟨hne, List.all_eq_true.1 h⟩

theorem isAscii_of_all {t : Text} (h : (t.all fun c => decide (c.toNat < 128)) = true) :
    IsAscii t :=
  fun c hc => of_decide_eq_true (List.all_eq_true.1 h c hc)

/-- A row with its counts, and with another percentage behind them. -/
def lcovLines : Rate where
  token := "100.0"
  tail := " (812 of 812 lines) 3% functions"
  percentage := ⟨"100", isDigits_of_all (by decide) (by decide), by decide,
    Or.inr ⟨"0", isDigits_of_all (by decide) (by decide), rfl⟩⟩
  ascii := isAscii_of_all (by decide)
  one_line := by decide

def lcovFunctions : Rate where
  token := "98.7"
  tail := countsText "150" "152"
  percentage := ⟨"98", isDigits_of_all (by decide) (by decide), by decide,
    Or.inr ⟨"7", isDigits_of_all (by decide) (by decide), rfl⟩⟩
  ascii := isAscii_of_all (by decide)
  one_line := by decide

/-- The two rows of a summary in both orders, with another percentage behind the first and a row of
branches below. -/
theorem lcovSummary_read_branches :
    ('\n' ∉ ("Reading tracefile x.info" : Text) ∧ '\n' ∉ ("Summary coverage rate:" : Text)) ∧
    (∃ summary, CoverageSummary.ofText?
        (fourLines "Reading tracefile x.info" "Summary coverage rate:"
          "  lines......: 100.0% (812 of 812 lines) 3% functions"
          "  functions..: 98.7% (150 of 152 functions)" "\n  branches...: no data found\n")
        CoverageSettings.default.rows = .ok summary ∧
      Decimal.Denotes "100.0" summary.lines ∧ Decimal.Denotes "98.7" summary.functions) ∧
    CoverageSummary.ofText?
        (fourLines "Reading tracefile x.info" "Summary coverage rate:"
          "  functions..: 98.7% (150 of 152 functions)"
          "  lines......: 100.0% (812 of 812 lines) 3% functions"
          "\n  branches...: no data found\n")
        CoverageSettings.default.rows =
      .error (.unexpectedRow 2 .lines "  functions..: 98.7% (150 of 152 functions)") := by
  have hfirst : '\n' ∉ ("Reading tracefile x.info" : Text) := by decide
  have hsecond : '\n' ∉ ("Summary coverage rate:" : Text) := by decide
  have hlines : Metric.row .lines lcovLines =
      "  lines......: 100.0% (812 of 812 lines) 3% functions" := rfl
  have hfunctions : Metric.row .functions lcovFunctions =
      "  functions..: 98.7% (150 of 152 functions)" := rfl
  obtain ⟨hread, hswapped⟩ := lcovSummary_read _ _ "\n  branches...: no data found\n" lcovLines
    lcovFunctions hfirst hsecond (Or.inr ⟨_, rfl⟩)
  rw [hlines, hfunctions] at hread hswapped
  have hdigits : ∀ {t : Text}, t.all Text.isDecimalDigit = true →
      ∀ c ∈ t, Text.isDecimalDigit c = true := List.all_eq_true.1
  exact ⟨⟨hfirst, hsecond⟩, hread,
    hswapped "150" "152" (hdigits (by decide)) (hdigits (by decide)) rfl⟩

end SourceAudit
