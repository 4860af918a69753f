import SourceAudit.Text.Basic

/-!
# Lines

A line ends at a newline, and a carriage return right before the newline belongs to the line end.
What follows the last newline is a line only when it is not empty, and there a carriage return
stays.

    '\n' ∉ l → lines (l ++ '\n' :: t) = withoutReturn l :: lines t            (lines_append_newline)
-/

namespace SourceAudit.Text

/-! ## Algorithm -/

/-- The lines of a text. -/
def lines : Text → List Text
  | [] => []
  | '\n' :: rest => [] :: lines rest
  | '\r' :: '\n' :: rest => [] :: lines rest
  | c :: rest =>
    match lines rest with
    | [] => [[c]]
    | line :: more => (c :: line) :: more

/-- A line without the carriage return that ends it. -/
def withoutReturn (line : Text) : Text :=
  if line.getLast? = some '\r' then line.dropLast else line

/-! ## Lemmas -/

@[simp] theorem lines_nil : lines [] = [] := rfl

@[simp] theorem lines_newline (rest : Text) : lines ('\n' :: rest) = [] :: lines rest := by
  rw [lines]

@[simp] theorem lines_return_newline (rest : Text) :
    lines ('\r' :: '\n' :: rest) = [] :: lines rest := by
  rw [lines]

theorem lines_cons {c : Char} {rest : Text} (hc : c ≠ '\n')
    (hr : c = '\r' → rest.head? ≠ some '\n') :
    lines (c :: rest) =
      match lines rest with
      | [] => [[c]]
      | line :: more => (c :: line) :: more := by
  rw [lines.eq_def]
  split
  · simp_all
  · simp_all
  · simp_all
  · simp_all

theorem lines_append_newline {l t : Text} (h : '\n' ∉ l) :
    lines (l ++ '\n' :: t) = withoutReturn l :: lines t := by
  induction l with
  | nil => simp [withoutReturn]
  | cons c rest ih =>
    simp only [List.mem_cons, not_or] at h
    have hc : c ≠ '\n' := fun e => h.1 e.symm
    cases rest with
    | nil =>
      by_cases hr : c = '\r'
      · subst hr
        simp [withoutReturn]
      · rw [List.cons_append, lines_cons hc (fun e => absurd e hr)]
        simp [withoutReturn, hr]
    | cons d more =>
      have hd : d ≠ '\n' := by
        intro e
        exact h.2 (by simp [e])
      rw [List.cons_append, lines_cons hc (by simp [hd]), ih h.2]
      by_cases hlast : (d :: more).getLast? = some '\r'
      · simp [withoutReturn, hlast, List.getLast?_cons_cons]
      · simp [withoutReturn, hlast, List.getLast?_cons_cons]

end SourceAudit.Text
