import SourceAudit.Proofs.Check.Percentage

/-!
# What a coverage summary gives

The row of a metric gives the number before its first percent sign with a digit before it, in the
longest writing that ends there, or the first of the things that can be wrong with the row. A
summary is read from two such rows and from nothing else.

    extract rows row metric = result ↔ Extracts rows row metric result
    ofText? text rows = .ok summary ↔ both rows give their percentages
    ofText? text rows = .error e ↔ the row of lines gives e, or it gives a percentage and the row
      of functions gives e                                        (coverage_read_by_reference)
-/

namespace SourceAudit

/-! ## The rule -/

/-- What the row of a metric gives. -/
inductive Extracts (rows : List Text) (row : Nat) (metric : Metric) :
    Except CoverageError Binary64 → Prop
  | missing (h : rows.length ≤ row) : Extracts rows row metric (.error (.missingRow row metric))
  | unexpected {line : Text} (hline : rows[row]? = some line)
      (h : ¬ metric.name <:+: Text.lower line) :
      Extracts rows row metric (.error (.unexpectedRow row metric line))
  | unsigned {line : Text} (hline : rows[row]? = some line)
      (hname : metric.name <:+: Text.lower line) (h : ∀ before, ¬ SignAt line before) :
      Extracts rows row metric (.error (.noPercentage row metric line))
  | foreign {line before token : Text} (hline : rows[row]? = some line)
      (hname : metric.name <:+: Text.lower line) (hsign : FirstSign line before)
      (htoken : IsLongestEnd IsPercentage before token) (h : ¬ IsAscii token) :
      Extracts rows row metric (.error (.noPercentage row metric line))
  | number {line before token : Text} {x : Binary64} (hline : rows[row]? = some line)
      (hname : metric.name <:+: Text.lower line) (hsign : FirstSign line before)
      (htoken : IsLongestEnd IsPercentage before token) (hascii : IsAscii token)
      (h : Decimal.Denotes token x) : Extracts rows row metric (.ok x)

/-! ## Lemmas -/

variable {rows : List Text} {row : Nat} {metric : Metric}

/-- The number that a row is read as, if there is one. -/
def readPercentage? (line : Text) : Option Binary64 :=
  (firstPercentage? line).bind fun found => Decimal.readBinary64? found.token

theorem extract_of_named {line : Text} (hline : rows[row]? = some line)
    (hname : metric.name <:+: Text.lower line) :
    extract rows row metric =
      (readPercentage? line).elim (.error (.noPercentage row metric line)) .ok := by
  unfold extract
  rw [hline]
  dsimp only
  rw [if_pos (Text.mentions_iff.2 hname), ← readPercentage?]
  cases readPercentage? line <;> rfl

theorem extract_congr {other : List Text} (h : other[row]? = rows[row]?) :
    extract other row metric = extract rows row metric := by
  unfold extract
  rw [h]

theorem firstPercentage?_of_firstSign {line before token : Text} (hsign : FirstSign line before)
    (htoken : IsLongestEnd IsPercentage before token) :
    ∃ found, firstPercentage? line = some found ∧ found.token = token := by
  obtain ⟨front, rfl⟩ := htoken.suffix
  obtain ⟨rest, hrest⟩ := hsign.sign.2
  refine ⟨⟨front, token, '%' :: rest⟩, firstPercentage?_eq_some_iff.2 ⟨hsign, htoken, ?_⟩, rfl⟩
  simpa using hrest.symm

theorem extract_of_extracts {result : Except CoverageError Binary64}
    (h : Extracts rows row metric result) : extract rows row metric = result := by
  cases h with
  | missing h =>
    unfold extract
    rw [List.getElem?_eq_none_iff.2 h]
  | unexpected hline h =>
    unfold extract
    rw [hline]
    exact if_neg fun hmentions => h (Text.mentions_iff.1 hmentions)
  | unsigned hline hname h =>
    rw [extract_of_named hline hname, readPercentage?, firstPercentage?_eq_none_iff.2 h]
    rfl
  | foreign hline hname hsign htoken h =>
    obtain ⟨found, hfind, rfl⟩ := firstPercentage?_of_firstSign hsign htoken
    rw [extract_of_named hline hname, readPercentage?, hfind, Option.bind_some,
      htoken.shaped.readBinary64?_eq_none_iff.2 h]
    rfl
  | number hline hname hsign htoken hascii h =>
    obtain ⟨found, hfind, rfl⟩ := firstPercentage?_of_firstSign hsign htoken
    rw [extract_of_named hline hname, readPercentage?, hfind, Option.bind_some,
      htoken.shaped.readBinary64?_eq_some_iff.2 ⟨hascii, h⟩]
    rfl

theorem exists_extracts (rows : List Text) (row : Nat) (metric : Metric) :
    ∃ result, Extracts rows row metric result := by
  cases hline : rows[row]? with
  | none => exact ⟨_, .missing (List.getElem?_eq_none_iff.1 hline)⟩
  | some line =>
    by_cases hname : metric.name <:+: Text.lower line
    · cases hfind : firstPercentage? line with
      | none => exact ⟨_, .unsigned hline hname (firstPercentage?_eq_none_iff.1 hfind)⟩
      | some found =>
        obtain ⟨hsign, htoken, -⟩ := firstPercentage?_eq_some_iff.1 hfind
        by_cases hascii : IsAscii found.token
        · obtain ⟨x, -, hx⟩ := htoken.shaped.exists_readBinary64?_eq hascii
          exact ⟨_, .number hline hname hsign htoken hascii hx⟩
        · exact ⟨_, .foreign hline hname hsign htoken hascii⟩
    · exact ⟨_, .unexpected hline hname⟩

theorem extract_eq_iff {result : Except CoverageError Binary64} :
    extract rows row metric = result ↔ Extracts rows row metric result := by
  constructor
  · rintro rfl
    obtain ⟨result, h⟩ := exists_extracts rows row metric
    rwa [extract_of_extracts h]
  · exact extract_of_extracts

theorem CoverageSummary.ofText?_eq_ok_iff {text : Text} {rows : SummaryRows}
    {summary : CoverageSummary} :
    CoverageSummary.ofText? text rows = .ok summary ↔
      extract (Text.lines text) rows.lines .lines = .ok summary.lines ∧
        extract (Text.lines text) rows.functions .functions = .ok summary.functions := by
  obtain ⟨lines, functions⟩ := summary
  unfold CoverageSummary.ofText?
  dsimp only
  cases extract (Text.lines text) rows.lines .lines with
  | error e => simp [bind, Except.bind]
  | ok x =>
    cases extract (Text.lines text) rows.functions .functions with
    | error e => simp [bind, Except.bind]
    | ok y => simp [bind, Except.bind, pure, Except.pure]

theorem CoverageSummary.ofText?_eq_error_iff {text : Text} {rows : SummaryRows}
    {e : CoverageError} :
    CoverageSummary.ofText? text rows = .error e ↔
      extract (Text.lines text) rows.lines .lines = .error e ∨
        (∃ x, extract (Text.lines text) rows.lines .lines = .ok x) ∧
          extract (Text.lines text) rows.functions .functions = .error e := by
  unfold CoverageSummary.ofText?
  dsimp only
  cases extract (Text.lines text) rows.lines .lines with
  | error e => simp [bind, Except.bind]
  | ok x =>
    cases extract (Text.lines text) rows.functions .functions with
    | error e => simp [bind, Except.bind]
    | ok y => simp [bind, Except.bind, pure, Except.pure]

/-! ## Top theorem -/

/-- The row of a metric gives what the rule says, and a summary is read from its two rows: it is
read iff both give a percentage, the row of lines is the first to fail, and no other line of the
text counts. -/
theorem coverage_read_by_reference :
    (∀ (rows : List Text) (row : Nat) (metric : Metric)
      (result : Except CoverageError Binary64),
      extract rows row metric = result ↔ Extracts rows row metric result) ∧
    ∀ (text : Text) (rows : SummaryRows),
      (∀ summary, CoverageSummary.ofText? text rows = .ok summary ↔
        Extracts (Text.lines text) rows.lines .lines (.ok summary.lines) ∧
          Extracts (Text.lines text) rows.functions .functions (.ok summary.functions)) ∧
      (∀ e, CoverageSummary.ofText? text rows = .error e ↔
        Extracts (Text.lines text) rows.lines .lines (.error e) ∨
          (∃ x, Extracts (Text.lines text) rows.lines .lines (.ok x)) ∧
            Extracts (Text.lines text) rows.functions .functions (.error e)) ∧
      ∀ other, (Text.lines other)[rows.lines]? = (Text.lines text)[rows.lines]? →
        (Text.lines other)[rows.functions]? = (Text.lines text)[rows.functions]? →
        CoverageSummary.ofText? other rows = CoverageSummary.ofText? text rows := by
  refine ⟨fun rows row metric result => extract_eq_iff, fun text rows => ⟨?_, ?_, ?_⟩⟩
  · intro summary
    simp only [CoverageSummary.ofText?_eq_ok_iff, extract_eq_iff]
  · intro e
    simp only [CoverageSummary.ofText?_eq_error_iff, extract_eq_iff]
  · intro other hlines hfunctions
    unfold CoverageSummary.ofText?
    dsimp only
    rw [extract_congr hlines, extract_congr hfunctions]

/-- Two summaries with other lines around the same two rows. -/
theorem coverage_read_by_reference_sameRows :
    (Text.lines "1%\n2%\nLines: 96.4%\nFunctions: 85%\n3%")[2]? =
        (Text.lines "a\nb\nLines: 96.4%\nFunctions: 85%")[2]? ∧
      (Text.lines "1%\n2%\nLines: 96.4%\nFunctions: 85%\n3%")[3]? =
        (Text.lines "a\nb\nLines: 96.4%\nFunctions: 85%")[3]? ∧
      CoverageSummary.ofText? "1%\n2%\nLines: 96.4%\nFunctions: 85%\n3%" ⟨2, 3⟩ =
        CoverageSummary.ofText? "a\nb\nLines: 96.4%\nFunctions: 85%" ⟨2, 3⟩ := by
  have hlines : (Text.lines "1%\n2%\nLines: 96.4%\nFunctions: 85%\n3%")[2]? =
      (Text.lines "a\nb\nLines: 96.4%\nFunctions: 85%")[2]? := by decide +kernel
  have hfunctions : (Text.lines "1%\n2%\nLines: 96.4%\nFunctions: 85%\n3%")[3]? =
      (Text.lines "a\nb\nLines: 96.4%\nFunctions: 85%")[3]? := by decide +kernel
  exact ⟨hlines, hfunctions, (coverage_read_by_reference.2 _ ⟨2, 3⟩).2.2 _ hlines hfunctions⟩

end SourceAudit
