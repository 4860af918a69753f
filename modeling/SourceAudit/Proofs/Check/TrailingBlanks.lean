import SourceAudit.Proofs.Check.Deviation
import SourceAudit.Proofs.Check.Guard
import SourceAudit.Proofs.Text.Lines
import Mathlib.Data.List.Forall2

/-!
# Blanks at the ends of lines

Blanks behind the lines of a text change nothing for guards, and nothing for headers that need a
year. The copyright line is the one line that a header compares with its blanks: where no year is
needed, blanks behind it can complete the lead, so a line that was refused may be accepted. A line
that was accepted stays so, and every other violation stays the same.

    checkGuard (unlines (padded ls pads)) symbol = checkGuard (unlines ls) symbol
    t.check (unlines (padded ls pads)) = t.check (unlines ls) unless no year is needed and the
      latter is .error (.badCopyright t.slot)                        (check_ignores_trailing_blanks)
-/

namespace SourceAudit

/-! ## The rule -/

/-- Every line with the blanks that stand at its place. Where there are none left the lines stay. -/
def Text.padded : List Text → List Text → List Text
  | line :: ls, blanks :: pads => (line ++ blanks) :: padded ls pads
  | ls, _ => ls

/-- A line, and one that is longer by blanks. -/
def Text.Widened (line wide : Text) : Prop :=
  line <+: wide ∧ Text.trimEnd wide = Text.trimEnd line

/-! ## Lines -/

namespace Text

variable {ls pads : List Text}

theorem widened_withoutReturn {blanks : Text} (h : ∀ c ∈ blanks, isBlank c = true) (line : Text) :
    Widened (withoutReturn line) (withoutReturn (line ++ blanks)) := by
  refine ⟨isPrefix_withoutReturn_append line blanks, ?_⟩
  rw [trimEnd_withoutReturn, trimEnd_withoutReturn, trimEnd_append_blank h]

theorem newline_not_mem_padded (hlines : ∀ line ∈ ls, '\n' ∉ line)
    (hpads : ∀ blanks ∈ pads, '\n' ∉ blanks) : ∀ line ∈ padded ls pads, '\n' ∉ line := by
  fun_induction padded ls pads with
  | case1 line ls blanks pads ih =>
    rw [List.forall_mem_cons] at hlines hpads ⊢
    refine ⟨fun hmem => ?_, ih hlines.2 hpads.2⟩
    rcases List.mem_append.1 hmem with hmem | hmem
    · exact hlines.1 hmem
    · exact hpads.1 hmem
  | case2 => exact hlines

theorem forall₂_widened_map (hpads : ∀ blanks ∈ pads, ∀ c ∈ blanks, isBlank c = true) :
    List.Forall₂ Widened (ls.map withoutReturn) ((padded ls pads).map withoutReturn) := by
  fun_induction padded ls pads with
  | case1 line ls blanks pads ih =>
    rw [List.forall_mem_cons] at hpads
    exact List.Forall₂.cons (widened_withoutReturn hpads.1 line) (ih hpads.2)
  | case2 => exact List.forall₂_same.2 fun line _ => ⟨List.prefix_rfl, rfl⟩

/-- Line by line the padded text reads as the text, with more blanks. -/
theorem forall₂_widened_lines (hlines : ∀ line ∈ ls, '\n' ∉ line)
    (hpads : ∀ blanks ∈ pads, '\n' ∉ blanks ∧ ∀ c ∈ blanks, isBlank c = true) :
    List.Forall₂ Widened (lines (unlines ls)) (lines (unlines (padded ls pads))) := by
  rw [lines_unlines hlines,
    lines_unlines (newline_not_mem_padded hlines fun blanks hb => (hpads blanks hb).1)]
  exact forall₂_widened_map fun blanks hb => (hpads blanks hb).2

theorem map_trimEnd_of_widened {content wide : List Text}
    (h : List.Forall₂ Widened content wide) : wide.map trimEnd = content.map trimEnd := by
  induction h with
  | nil => rfl
  | cons hline _ ih => rw [List.map_cons, List.map_cons, hline.2, ih]

end Text

/-! ## The copyright line -/

namespace CopyrightRule

variable {rule : CopyrightRule}

/-- Digits are no blanks, so a year ends at the same place with and without them. -/
theorem allows_trimEnd_iff (h : rule.requireYear = true) {line : Text} :
    rule.Allows (Text.trimEnd line) ↔ rule.Allows line := by
  constructor
  · rintro ⟨rest, hline, hyear⟩
    obtain ⟨year, more, rfl, hlength, hdigits, hmore⟩ := hyear h
    obtain ⟨blanks, hsplit, hblanks⟩ := Text.exists_eq_trimEnd_append line
    rw [hline, List.append_assoc, List.append_assoc] at hsplit
    refine ⟨year ++ (more ++ blanks), hsplit, fun _ =>
      ⟨year, more ++ blanks, rfl, hlength, hdigits, fun c hc => ?_⟩⟩
    cases more with
    | nil =>
      have hblank := hblanks c (List.mem_of_head? hc)
      refine Bool.eq_false_iff.2 fun hdigit => ?_
      rw [Text.isBlank_of_isDigit hdigit] at hblank
      cases hblank
    | cons d more => exact hmore c hc
  · rintro ⟨rest, rfl, hyear⟩
    obtain ⟨year, more, rfl, hlength, hdigits, hmore⟩ := hyear h
    have hne : year ≠ [] := List.ne_nil_of_length_eq_add_one hlength
    have hlast := hdigits _ (List.getLast_mem hne)
    have hfront : Text.trimEnd (rule.lead ++ year) = rule.lead ++ year := by
      rw [← List.dropLast_concat_getLast hne, ← List.append_assoc]
      exact Text.trimEnd_concat (Text.isBlank_of_isDigit hlast) _
    have hline : Text.trimEnd (rule.lead ++ (year ++ more)) =
        rule.lead ++ (year ++ Text.trimEnd more) := by
      rw [← List.append_assoc, Text.trimEnd_append hfront, List.append_assoc]
    refine ⟨year ++ Text.trimEnd more, hline, fun _ =>
      ⟨year, Text.trimEnd more, rfl, hlength, hdigits, fun c hc => hmore c ?_⟩⟩
    obtain ⟨blanks, hmoreEq⟩ := Text.isPrefix_trimEnd more
    rw [← hmoreEq, List.head?_append, hc]
    rfl

/-- Without a year only the start of a line counts. -/
theorem allows_of_isPrefix (h : rule.requireYear = false) {line wide : Text} (hwide : line <+: wide)
    (hline : rule.Allows line) : rule.Allows wide := by
  obtain ⟨more, rfl⟩ := hwide
  obtain ⟨rest, rfl, -⟩ := hline
  exact ⟨rest ++ more, List.append_assoc .., fun hyear => absurd hyear (by simp [h])⟩

theorem accepts_widened (rule : CopyrightRule) {line wide : Text} (h : Text.Widened line wide) :
    rule.accepts wide = rule.accepts line ∨
      rule.requireYear = false ∧ rule.accepts line = false := by
  cases hyear : rule.requireYear with
  | true =>
    refine Or.inl (Bool.eq_iff_iff.2 ?_)
    rw [accepts_iff, accepts_iff, ← allows_trimEnd_iff hyear, h.2, allows_trimEnd_iff hyear]
  | false =>
    cases hline : rule.accepts line with
    | true =>
      exact Or.inl (accepts_iff.2 (allows_of_isPrefix hyear h.1 (accepts_iff.1 hline)))
    | false => exact Or.inr ⟨rfl, rfl⟩

end CopyrightRule

/-! ## Headers -/

/-- Both texts pass the same lines, up to a copyright line that only the wide text may pass. -/
theorem checkFrom_widened {slot n : Nat} {rule : CopyrightRule} {expected content wide : List Text}
    (h : List.Forall₂ Text.Widened content wide) :
    HeaderTemplate.checkFrom slot rule n expected wide =
        HeaderTemplate.checkFrom slot rule n expected content ∨
      rule.requireYear = false ∧
        HeaderTemplate.checkFrom slot rule n expected content = .error (.badCopyright slot) := by
  induction expected generalizing n content wide with
  | nil =>
    cases h with
    | nil => exact Or.inl rfl
    | cons hline _ =>
      refine Or.inl ?_
      rw [HeaderTemplate.checkFrom, HeaderTemplate.checkFrom, hline.2]
  | cons e more ih =>
    cases h with
    | nil => exact Or.inl rfl
    | cons hline hrest =>
      rw [HeaderTemplate.checkFrom, HeaderTemplate.checkFrom, hline.2]
      by_cases hslot : n = slot
      · rw [if_pos hslot, if_pos hslot]
        rcases CopyrightRule.accepts_widened rule hline with haccepts | ⟨hyear, hrefused⟩
        · rw [haccepts]
          split
          · exact ih hrest
          · exact Or.inl rfl
        · rw [hrefused, if_neg Bool.false_ne_true, hslot]
          exact Or.inr ⟨hyear, rfl⟩
      · rw [if_neg hslot, if_neg hslot]
        split
        · exact ih hrest
        · exact Or.inl rfl

/-! ## Top theorem -/

/-- Blanks behind the lines of a text leave the verdict on a guard as it is, with the lines found.
For headers too, unless no year is needed and the copyright line was refused without them. -/
theorem check_ignores_trailing_blanks (ls pads : List Text) (hlines : ∀ line ∈ ls, '\n' ∉ line)
    (hpads : ∀ blanks ∈ pads, '\n' ∉ blanks ∧ ∀ c ∈ blanks, Text.isBlank c = true) :
    (∀ symbol, checkGuard (Text.unlines (Text.padded ls pads)) symbol =
      checkGuard (Text.unlines ls) symbol) ∧
    ∀ t : HeaderTemplate,
      (t.rule.requireYear = true →
        t.check (Text.unlines (Text.padded ls pads)) = t.check (Text.unlines ls)) ∧
      (t.rule.requireYear = false →
        t.check (Text.unlines (Text.padded ls pads)) = t.check (Text.unlines ls) ∨
          t.check (Text.unlines ls) = .error (.badCopyright t.slot)) := by
  have hwide := Text.forall₂_widened_lines hlines hpads
  refine ⟨fun symbol => ?_, fun t => ⟨fun hyear => ?_, fun hyear => ?_⟩⟩
  · unfold checkGuard
    rw [Text.map_trimEnd_of_widened hwide]
  · refine (checkFrom_widened hwide).resolve_right fun hno => ?_
    rw [hyear] at hno
    cases hno.1
  · exact (checkFrom_widened hwide).imp_right And.right

/-- A header and a guard. -/
def guardedNotice : List Text :=
  ["// kept\r", "// (C) 2024", "", "#ifndef A", "#define A ", "#endif  // A"]

/-- Blanks of several kinds, for all of these lines but the last two. -/
def wideBlanks : List Text := ["\t ", "\u3000\r", " ", "\r"]

theorem check_ignores_trailing_blanks_guardedNotice :
    ((∀ line ∈ guardedNotice, '\n' ∉ line) ∧
      ∀ blanks ∈ wideBlanks, '\n' ∉ blanks ∧ ∀ c ∈ blanks, Text.isBlank c = true) ∧
    checkGuard (Text.unlines (Text.padded guardedNotice wideBlanks)) "A" = .ok () ∧
    noticeTemplate.check (Text.unlines (Text.padded guardedNotice wideBlanks)) = .ok () := by
  have hlines : ∀ line ∈ guardedNotice, '\n' ∉ line := by decide +kernel
  have hblanks : wideBlanks.all (fun blanks => blanks.all Text.isBlank) = true := by
    decide +kernel
  have hnewline : ∀ blanks ∈ wideBlanks, '\n' ∉ blanks := by decide +kernel
  have hpads : ∀ blanks ∈ wideBlanks, '\n' ∉ blanks ∧ ∀ c ∈ blanks, Text.isBlank c = true :=
    fun blanks hb =>
      ⟨hnewline blanks hb, List.all_eq_true.1 (List.all_eq_true.1 hblanks blanks hb)⟩
  have hguard : checkGuard (Text.unlines guardedNotice) "A" = .ok () := by decide +kernel
  have hheader : noticeTemplate.check (Text.unlines guardedNotice) = .ok () := by decide +kernel
  obtain ⟨hguards, hheaders⟩ :=
    check_ignores_trailing_blanks guardedNotice wideBlanks hlines hpads
  exact ⟨⟨hlines, hpads⟩, (hguards "A").trans hguard,
    ((hheaders noticeTemplate).1 rfl).trans hheader⟩

/-- Without a year the blank that the lead ends in can come from behind the line. -/
example :
    let t : HeaderTemplate := { noticeTemplate with rule := ⟨"// (C) ", false⟩ }
    t.check (Text.unlines ["// kept", "// (C)", ""]) = .error (.badCopyright 1) ∧
      t.check (Text.unlines (Text.padded ["// kept", "// (C)", ""] ["", " "])) = .ok () := by
  decide +kernel

end SourceAudit
