import SourceAudit.Proofs.Check.Standard

/-!
# Generated headers

A header as a generator would write it: the standard license with a year and a holder in the slot,
an empty line, and a guard around lines that can be anything, made from the place of the header.
Both checks accept every such text, whether or not its last line ends in a newline.

    HeaderTemplate.standard.Opens f.text                                          (opens_text)
    GuardedBy f.symbol f.text                                                 (guardedBy_text)
-/

namespace SourceAudit

/-! ## The texts -/

structure GeneratedHeader where
  /-- Where the header is, from the root down. -/
  place : List Name
  year : Text
  holder : Text
  body : List Text
  newlineAtEnd : Bool
  named : ∃ name ∈ place.getLast?, ∃ stem, stem ≠ [] ∧ name.bytes = stem ++ Utf8.encode ".h"
  place_newline : ∀ name ∈ place, 0x0a ∉ name.bytes
  year_length : year.length = 4
  year_digits : ∀ c ∈ year, c.isDigit = true
  holder_newline : '\n' ∉ holder
  holder_head : ∀ c ∈ holder.head?, c.isDigit = false
  body_newline : ∀ line ∈ body, '\n' ∉ line

namespace GeneratedHeader

/-- The path of the header below its root. -/
def relative (f : GeneratedHeader) : Path := Path.relativePath f.place

def symbol (f : GeneratedHeader) : Text := guardSymbol f.relative "_"

def copyright (f : GeneratedHeader) : Text := " * Copyright (C) " ++ (f.year ++ f.holder)

def license (f : GeneratedHeader) : List Text := standardLines.set 1 f.copyright

def opening (f : GeneratedHeader) : Text := "#ifndef " ++ f.symbol

def definition (f : GeneratedHeader) : Text := "#define " ++ f.symbol

def closing (f : GeneratedHeader) : Text := "#endif  // " ++ f.symbol

/-- All lines but the last. -/
def front (f : GeneratedHeader) : List Text :=
  f.license ++ [] :: f.opening :: f.definition :: f.body

def text (f : GeneratedHeader) : Text :=
  Text.unlines f.front ++ f.closing ++ if f.newlineAtEnd then ['\n'] else []

/-! ## Lines -/

variable (f : GeneratedHeader)

theorem expected_symbol :
    GuardLines.expected f.symbol = ⟨f.opening, f.definition, f.closing⟩ := rfl

/-- The lines of the guard could stand in a file, for the symbol ends in a capital. -/
theorem trimmed_guard : ('\n' ∉ f.opening ∧ Text.trimEnd f.opening = f.opening) ∧
    ('\n' ∉ f.definition ∧ Text.trimEnd f.definition = f.definition) ∧
    '\n' ∉ f.closing ∧ Text.trimEnd f.closing = f.closing := by
  obtain ⟨name, hname, stem, -, htext⟩ := f.named
  obtain ⟨front, hfront⟩ := List.getLast?_eq_some_iff.1 hname
  have hnames : Path.names f.relative =
      front.map Name.bytes ++ [stem ++ [Path.dot] ++ [.ofNat ('h' : Char).toNat]] := by
    rw [relative, Path.names_relativePath, hfront, List.map_append, List.map_singleton, htext,
      List.append_assoc]
    rfl
  have hnewline : ∀ n ∈ Path.names f.relative, 0x0a ∉ n := by
    intro n hn
    rw [relative, Path.names_relativePath] at hn
    obtain ⟨m, hm, rfl⟩ := List.mem_map.1 hn
    exact f.place_newline m hm
  obtain ⟨symbol, d, hsymbol, hd, hiff⟩ :=
    exists_guardSymbol_eq_of_names hnames (by decide) hnewline "_"
  have hlead : '\n' ∉ symbol ++ [d] := mt hiff.1 (by decide)
  have htrimmed := GuardLines.forall_mem_lines.1 (GuardLines.trimmed_expected hd hlead)
  rwa [← hsymbol] at htrimmed

theorem newline_not_mem_copyright : '\n' ∉ f.copyright := by
  intro h
  rcases List.mem_append.1 h with h | h
  · revert h
    decide +kernel
  · rcases List.mem_append.1 h with h | h
    · exact absurd (f.year_digits _ h) (by decide)
    · exact f.holder_newline h

/-- No line of the license is a directive. -/
theorem license_shape {line : Text} (h : line ∈ f.license) :
    '\n' ∉ line ∧ (line.head? = some '/' ∨ line.head? = some ' ') := by
  rw [license] at h
  rcases List.mem_or_eq_of_mem_set h with h | h
  · obtain ⟨hnewline, -, hhead⟩ := standardLines_shape line h
    exact ⟨hnewline, hhead⟩
  · rw [h]
    exact ⟨f.newline_not_mem_copyright, Or.inr rfl⟩

theorem newline_not_mem_front {line : Text} (h : line ∈ f.front) : '\n' ∉ line := by
  obtain ⟨hopening, hdefinition, -⟩ := f.trimmed_guard
  rcases List.mem_append.1 h with h | h
  · exact (f.license_shape h).1
  · simp only [List.mem_cons] at h
    rcases h with rfl | rfl | rfl | h
    · exact List.not_mem_nil
    · exact hopening.1
    · exact hdefinition.1
    · exact f.body_newline line h

/-- The newline at the end makes no difference to the lines. -/
theorem lines_text : Text.lines f.text = f.front.map Text.withoutReturn ++ [f.closing] := by
  obtain ⟨-, -, hnewline, htrim⟩ := f.trimmed_guard
  have hlast : Text.lines (f.closing ++ if f.newlineAtEnd then ['\n'] else []) = [f.closing] := by
    cases f.newlineAtEnd with
    | true =>
      rw [if_pos rfl, Text.lines_append_newline hnewline, Text.withoutReturn_of_trimEnd_eq htrim]
      rfl
    | false =>
      have hne : f.closing ≠ [] := List.append_ne_nil_of_left_ne_nil (by decide +kernel) _
      rw [if_neg Bool.false_ne_true, List.append_nil, Text.lines_of_not_mem hnewline hne]
  rw [text, List.append_assoc, Text.lines_unlines_append fun line => f.newline_not_mem_front, hlast]

/-! ## Both checks -/

theorem allows_copyright : standardRule.Allows (Text.withoutReturn f.copyright) := by
  have hyear : f.year.getLast? ≠ some '\r' := by
    intro hlast
    exact absurd (f.year_digits _ (List.mem_of_getLast? hlast)) (by decide)
  have hlead : standardRule.lead.getLast? ≠ some '\r' := by decide +kernel
  have hcopyright : f.copyright = standardRule.lead ++ (f.year ++ f.holder) := rfl
  refine ⟨f.year ++ Text.withoutReturn f.holder, ?_, fun _ => ?_⟩
  · rw [hcopyright, Text.withoutReturn_append hlead, Text.withoutReturn_append hyear]
  · refine ⟨f.year, _, rfl, f.year_length, f.year_digits, ?_⟩
    intro c hc
    obtain ⟨rest, hrest⟩ := Text.isPrefix_withoutReturn f.holder
    apply f.holder_head
    rw [← hrest, List.head?_append, Option.mem_def.1 hc]
    rfl

theorem opens_text : HeaderTemplate.standard.Opens f.text := by
  have htrimmed : HeaderTemplate.standard.LinesTrimmed :=
    HeaderTemplate.linesTrimmed_of_ofText? template?_default
  have hlicense : f.license.map Text.withoutReturn =
      standardLines.set 1 (Text.withoutReturn f.copyright) := by
    have hkept : standardLines.map Text.withoutReturn = standardLines := by
      refine (List.map_congr_left fun line hline => ?_).trans (List.map_id _)
      exact Text.withoutReturn_of_trimEnd_eq (standardLines_shape line hline).2.1
    rw [license, List.map_set, hkept]
  have hlines : Text.lines f.text = standardLines.set 1 (Text.withoutReturn f.copyright) ++ [] ::
      ((f.opening :: f.definition :: f.body).map Text.withoutReturn ++ [f.closing]) := by
    rw [lines_text, front, List.map_append, hlicense, List.append_assoc]
    rfl
  exact HeaderTemplate.opens_of_lines htrimmed f.allows_copyright hlines

theorem guardedBy_text : GuardedBy f.symbol f.text := by
  obtain ⟨⟨-, hopening⟩, ⟨-, hdefinition⟩, -, hclosing⟩ := f.trimmed_guard
  have hlines : guardedLines f.text = (f.license.map Text.trimEnd ++ [[]]) ++
      f.opening :: f.definition :: (f.body.map Text.trimEnd ++ [f.closing]) := by
    have htrim : Text.trimEnd ∘ Text.withoutReturn = Text.trimEnd :=
      funext Text.trimEnd_withoutReturn
    rw [guardedLines, lines_text, List.map_append, List.map_map, htrim, List.map_singleton,
      hclosing, front, List.map_append, List.map_cons, List.map_cons, List.map_cons, hopening,
      hdefinition]
    simp [Text.trimEnd]
  rw [GuardedBy, expected_symbol, hlines]
  refine ⟨⟨_, _, rfl, ?_⟩, ?_⟩
  · intro hmem
    rcases List.mem_append.1 hmem with hmem | hmem
    · -- a line of the license would have to begin with a hash
      obtain ⟨line, hline, htrim⟩ := List.mem_map.1 hmem
      obtain ⟨rest, hrest⟩ := Text.isPrefix_trimEnd line
      have hhead : line.head? = some '#' := by
        rw [← hrest, htrim]
        rfl
      rcases (f.license_shape hline).2 with h | h
      · rw [hhead] at h
        cases h
      · rw [hhead] at h
        cases h
    · have hne : f.opening ≠ [] := List.append_ne_nil_of_left_ne_nil (by decide +kernel) _
      exact hne (List.mem_singleton.1 hmem)
  · rw [← List.cons_append, ← List.cons_append, ← List.append_assoc, List.getLast?_concat]

end GeneratedHeader

end SourceAudit
