import SourceAudit.Proofs.Check.Header

/-!
# The first deviation of a header

The check of a header names the first line that is not what the template asks for, and says what is
wrong there: that it is missing, that it is no copyright line, that it is not blank, or that it
differs. It reads no line beyond the one behind the template.

    t.check content = .error v ↔ t deviates first at a line i and v = t.violationAt content i
                                                                    (check_tells_first_deviation)
-/

namespace SourceAudit

/-! ## The rule -/

/-- What is wrong where line `i` of a text is not what the template asks for. -/
def HeaderTemplate.violationAt (t : HeaderTemplate) (content : Text) (i : Nat) : HeaderViolation :=
  if i = (Text.lines content).length then .tooShort i
  else if i = t.slot then .badCopyright i
  else if i = t.lines.length then .missingBlankLine i
  else .mismatch i

/-- Line `i` is not what the template asks for, and each line before it is. -/
def HeaderTemplate.DeviatesAt (t : HeaderTemplate) (content : Text) (i : Nat) : Prop :=
  i ≤ t.lines.length ∧ ¬ t.Meets content i ∧ ∀ j, j < i → t.Meets content j

/-! ## Lemmas -/

variable {slot : Nat} {rule : CopyrightRule}

/-- What `checkFrom` asks of line `i` of what is left of a text, at line `n`. -/
def MeetsFrom (slot : Nat) (rule : CopyrightRule) (n : Nat) (expected content : List Text)
    (i : Nat) : Prop :=
  ∃ line, content[i]? = some line ∧ rule.Meets (n + i = slot) expected[i]? line

/-- What is wrong at line `i` of what is left of a text, at line `n`. -/
def violationFrom (slot n : Nat) (expected content : List Text) (i : Nat) : HeaderViolation :=
  if i = content.length then .tooShort (n + i)
  else if n + i = slot then .badCopyright (n + i)
  else if i = expected.length then .missingBlankLine (n + i)
  else .mismatch (n + i)

/-- A line of what is left of a text is the first that fails, and `v` says what is wrong there. -/
def TellsFirst (slot : Nat) (rule : CopyrightRule) (n : Nat) (expected content : List Text)
    (v : HeaderViolation) : Prop :=
  ∃ i, i ≤ expected.length ∧ ¬ MeetsFrom slot rule n expected content i ∧
    (∀ j, j < i → MeetsFrom slot rule n expected content j) ∧
    v = violationFrom slot n expected content i

theorem meetsFrom_cons_zero {n : Nat} {expected rest : List Text} {line : Text} :
    MeetsFrom slot rule n expected (line :: rest) 0 ↔ rule.Meets (n = slot) expected[0]? line := by
  rw [MeetsFrom, exists_getElem?_cons_zero, Nat.add_zero]

theorem meetsFrom_cons_succ {n i : Nat} {e line : Text} {more rest : List Text} :
    MeetsFrom slot rule n (e :: more) (line :: rest) (i + 1) ↔
      MeetsFrom slot rule (n + 1) more rest i := by
  simp only [MeetsFrom, List.getElem?_cons_succ, Nat.add_assoc, Nat.add_comm 1]

theorem violationFrom_cons_succ {n i : Nat} {e line : Text} {more rest : List Text} :
    violationFrom slot n (e :: more) (line :: rest) (i + 1) =
      violationFrom slot (n + 1) more rest i := by
  simp only [violationFrom, List.length_cons, Nat.add_right_cancel_iff, Nat.add_assoc,
    Nat.add_comm 1]

theorem TellsFirst.here {n : Nat} {expected rest : List Text} {line : Text} {v : HeaderViolation}
    (hfails : ¬ rule.Meets (n = slot) expected[0]? line)
    (hv : v = violationFrom slot n expected (line :: rest) 0) :
    TellsFirst slot rule n expected (line :: rest) v :=
  ⟨0, Nat.zero_le _, fun hm => hfails (meetsFrom_cons_zero.1 hm),
    fun j hj => absurd hj (Nat.not_lt_zero j), hv⟩

theorem TellsFirst.later {n : Nat} {e line : Text} {more rest : List Text} {v : HeaderViolation}
    (hfirst : rule.Meets (n = slot) (some e) line)
    (h : TellsFirst slot rule (n + 1) more rest v) :
    TellsFirst slot rule n (e :: more) (line :: rest) v := by
  obtain ⟨i, hi, hfails, hbefore, hv⟩ := h
  refine ⟨i + 1, Nat.succ_le_succ hi, fun hm => hfails (meetsFrom_cons_succ.1 hm), ?_,
    hv.trans violationFrom_cons_succ.symm⟩
  intro j hj
  cases j with
  | zero => exact meetsFrom_cons_zero.2 hfirst
  | succ j => exact meetsFrom_cons_succ.2 (hbefore j (Nat.lt_of_succ_lt_succ hj))

/-- What is reported is the first line that fails. The slot is no line behind the template, so where
the template has ended nothing is reported as a copyright line. -/
theorem tellsFirst_of_checkFrom {n : Nat} {expected content : List Text} {v : HeaderViolation}
    (hslot : slot < n + expected.length)
    (h : HeaderTemplate.checkFrom slot rule n expected content = .error v) :
    TellsFirst slot rule n expected content v := by
  fun_induction HeaderTemplate.checkFrom slot rule n expected content with
  | case1 n expected =>
    injection h with h
    refine ⟨0, Nat.zero_le _, ?_, fun j hj => absurd hj (Nat.not_lt_zero j), h.symm⟩
    rintro ⟨line, hline, -⟩
    cases hline
  | case2 => cases h
  | case3 n line rest hblank =>
    injection h with h
    have hn : n ≠ slot := by
      intro hn
      rw [List.length_nil] at hslot
      omega
    refine .here (fun hm => hblank (Text.trimEnd_eq_nil_iff.2 hm)) ?_
    simp [← h, violationFrom, hn]
  | case4 e more line rest haccepts ih =>
    rw [List.length_cons] at hslot
    have hline : rule.Meets (slot = slot) (some e) line :=
      ⟨fun _ => CopyrightRule.accepts_iff.1 haccepts, fun hne => absurd rfl hne⟩
    exact .later hline (ih (by omega) h)
  | case5 e more line rest haccepts =>
    injection h with h
    refine .here (fun hm => haccepts (CopyrightRule.accepts_iff.2 (hm.1 rfl))) ?_
    simp [← h, violationFrom]
  | case6 n more line rest hn ih =>
    rw [List.length_cons] at hslot
    have hline : rule.Meets (n = slot) (some (Text.trimEnd line)) line :=
      ⟨fun hs => absurd hs hn, fun _ => rfl⟩
    exact .later hline (ih (by omega) h)
  | case7 n e more line rest hn hline =>
    injection h with h
    refine .here (fun hm => hline (hm.2 hn)) ?_
    simp [← h, violationFrom, hn]

/-- The check reads one line more than the template has, and no other. -/
theorem checkFrom_take {n : Nat} (expected content : List Text) :
    HeaderTemplate.checkFrom slot rule n expected (content.take (expected.length + 1)) =
      HeaderTemplate.checkFrom slot rule n expected content := by
  induction expected generalizing n content with
  | nil => cases content <;> rfl
  | cons e more ih =>
    cases content with
    | nil => rfl
    | cons line rest =>
      rw [List.length_cons, List.take_succ_cons, HeaderTemplate.checkFrom,
        HeaderTemplate.checkFrom, ih]

namespace HeaderTemplate

theorem exists_deviatesAt_of_check {t : HeaderTemplate} {content : Text} {v : HeaderViolation}
    (h : t.check content = .error v) :
    ∃ i, t.DeviatesAt content i ∧ v = t.violationAt content i := by
  obtain ⟨i, hi, hfails, hbefore, hv⟩ :=
    tellsFirst_of_checkFrom (by rw [Nat.zero_add]; exact t.slot_lt) h
  simp only [MeetsFrom, violationFrom, Nat.zero_add] at hfails hbefore hv
  exact ⟨i, ⟨hi, hfails, hbefore⟩, hv⟩

/-- A text deviates first at one line only. -/
theorem DeviatesAt.unique {t : HeaderTemplate} {content : Text} {i j : Nat}
    (hi : t.DeviatesAt content i) (hj : t.DeviatesAt content j) : i = j := by
  rcases Nat.lt_trichotomy i j with h | h | h
  · exact absurd (hj.2.2 i h) hi.2.1
  · exact h
  · exact absurd (hi.2.2 j h) hj.2.1

end HeaderTemplate

/-! ## Top theorem -/

/-- A text is accepted when every line of it is what the template asks for. Otherwise the violation
is that of the first line that is not, and lines beyond the one behind the template do not
matter. -/
theorem check_tells_first_deviation (t : HeaderTemplate) (content : Text) :
    (t.check content = .ok () ↔ ∀ i, i ≤ t.lines.length → t.Meets content i) ∧
    (∀ v, t.check content = .error v ↔
      ∃ i, t.DeviatesAt content i ∧ v = t.violationAt content i) ∧
    ∀ other, (Text.lines other).take (t.lines.length + 1) =
        (Text.lines content).take (t.lines.length + 1) →
      t.check other = t.check content := by
  refine ⟨HeaderTemplate.check_eq_ok_iff, fun v => ⟨HeaderTemplate.exists_deviatesAt_of_check, ?_⟩,
    fun other h => ?_⟩
  · rintro ⟨i, hi, rfl⟩
    cases hcheck : t.check content with
    | ok _ => exact absurd (HeaderTemplate.check_eq_ok_iff.1 hcheck i hi.1) hi.2.1
    | error v =>
      obtain ⟨j, hj, rfl⟩ := HeaderTemplate.exists_deviatesAt_of_check hcheck
      rw [hi.unique hj]
  · rw [HeaderTemplate.check, HeaderTemplate.check, ← checkFrom_take t.lines (Text.lines other), h,
      checkFrom_take]

/-- Two lines, the second of them for the copyright notice. -/
def noticeTemplate : HeaderTemplate where
  lines := ["// kept", "//"]
  slot := 1
  rule := ⟨"// (C) ", true⟩
  slot_lt := by decide

/-- A year of five digits comes before the line that is not blank, and what follows that line does
not matter. -/
theorem check_tells_first_deviation_fiveDigits :
    (Text.lines "// kept \n// (C) 20245 x\nint x;\n").take 3 =
      (Text.lines "// kept \n// (C) 20245 x\nint x;").take 3 ∧
    (∃ i, noticeTemplate.DeviatesAt "// kept \n// (C) 20245 x\nint x;" i ∧
      .badCopyright 1 = noticeTemplate.violationAt "// kept \n// (C) 20245 x\nint x;" i) ∧
    noticeTemplate.check "// kept \n// (C) 20245 x\nint x;\n" =
      noticeTemplate.check "// kept \n// (C) 20245 x\nint x;" := by
  have hlines : (Text.lines "// kept \n// (C) 20245 x\nint x;\n").take 3 =
      (Text.lines "// kept \n// (C) 20245 x\nint x;").take 3 := by decide +kernel
  obtain ⟨-, htells, hother⟩ :=
    check_tells_first_deviation noticeTemplate "// kept \n// (C) 20245 x\nint x;"
  exact ⟨hlines, (htells (.badCopyright 1)).1 rfl, hother _ hlines⟩

end SourceAudit
