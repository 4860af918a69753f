import SourceAudit.Text.Blank
import SourceAudit.Text.Lines

/-!
# Lines of texts that are put together

No line holds a newline, and lines that hold none come back from the text that joins them. A line
without blanks at its end comes back as it is, for a carriage return is a blank.

    l ∈ lines t → '\n' ∉ l                                           (newline_not_mem_of_mem_lines)
    lines (unlines ls ++ t) = ls.map withoutReturn ++ lines t                (lines_unlines_append)
    trimEnd (t ++ [c]) = t ++ [c]   for a `c` that is no blank                     (trimEnd_concat)
    trimEnd t = t → trimEnd (t ++ s) = t ++ trimEnd s                              (trimEnd_append)
-/

namespace SourceAudit.Text

/-- Lines as a text, each with its newline. -/
def unlines (ls : List Text) : Text := ls.flatMap (· ++ ['\n'])

/-! ## Lines -/

theorem newline_not_mem_of_mem_lines {t l : Text} (h : l ∈ lines t) : '\n' ∉ l := by
  fun_induction lines t generalizing l with
  | case1 => cases h
  | case2 rest ih =>
    rcases List.mem_cons.1 h with rfl | h
    · exact List.not_mem_nil
    · exact ih h
  | case3 rest ih =>
    rcases List.mem_cons.1 h with rfl | h
    · exact List.not_mem_nil
    · exact ih h
  | case4 c rest hc _ hrest =>
    obtain rfl := List.mem_singleton.1 h
    exact fun hmem => hc (List.mem_singleton.1 hmem).symm
  | case5 c rest hc _ line more hrest ih =>
    rw [hrest] at ih
    rcases List.mem_cons.1 h with rfl | h
    · intro hmem
      rcases List.mem_cons.1 hmem with hmem | hmem
      · exact hc hmem.symm
      · exact ih List.mem_cons_self hmem
    · exact ih (List.mem_cons_of_mem _ h)

theorem subset_of_mem_lines {t l : Text} (h : l ∈ lines t) : l ⊆ t := by
  fun_induction lines t generalizing l with
  | case1 => cases h
  | case2 rest ih =>
    rcases List.mem_cons.1 h with rfl | h
    · exact List.nil_subset _
    · exact List.subset_cons_of_subset _ (ih h)
  | case3 rest ih =>
    rcases List.mem_cons.1 h with rfl | h
    · exact List.nil_subset _
    · exact List.subset_cons_of_subset _ (List.subset_cons_of_subset _ (ih h))
  | case4 c rest _ _ _ =>
    obtain rfl := List.mem_singleton.1 h
    exact List.cons_subset_cons c (List.nil_subset rest)
  | case5 c rest _ _ line more hrest ih =>
    rw [hrest] at ih
    rcases List.mem_cons.1 h with rfl | h
    · exact List.cons_subset_cons c (ih List.mem_cons_self)
    · exact List.subset_cons_of_subset c (ih (List.mem_cons_of_mem line h))

theorem unlines_cons (l : Text) (ls : List Text) : unlines (l :: ls) = l ++ '\n' :: unlines ls := by
  rw [unlines, List.flatMap_cons, List.append_assoc]
  rfl

/-- Lines with a newline each are the lines with newlines between them, and one more. -/
theorem unlines_eq_intercalate_append {ls : List Text} (h : ls ≠ []) :
    unlines ls = List.intercalate ['\n'] ls ++ ['\n'] := by
  induction ls with
  | nil => exact absurd rfl h
  | cons l ls ih =>
    rw [unlines_cons]
    cases ls with
    | nil => rw [List.intercalate_singleton]; rfl
    | cons next ls =>
      rw [List.intercalate_cons_cons, ih (List.cons_ne_nil _ _), List.append_assoc,
        List.append_assoc]
      rfl

/-- Behind lines that are joined a text has its own lines. -/
theorem lines_unlines_append {ls : List Text} (h : ∀ l ∈ ls, '\n' ∉ l) (t : Text) :
    lines (unlines ls ++ t) = ls.map withoutReturn ++ lines t := by
  induction ls with
  | nil => rfl
  | cons l ls ih =>
    rw [unlines_cons, List.append_assoc, List.cons_append,
      lines_append_newline (h l List.mem_cons_self),
      ih fun m hm => h m (List.mem_cons_of_mem l hm), List.map_cons, List.cons_append]

theorem lines_unlines {ls : List Text} (h : ∀ l ∈ ls, '\n' ∉ l) :
    lines (unlines ls) = ls.map withoutReturn := by
  have happend := lines_unlines_append h []
  rwa [List.append_nil, lines_nil, List.append_nil] at happend

/-- A line that nothing ends is a line if it is not empty. -/
theorem lines_of_not_mem {l : Text} (h : '\n' ∉ l) (hne : l ≠ []) : lines l = [l] := by
  induction l with
  | nil => exact absurd rfl hne
  | cons c rest ih =>
    simp only [List.mem_cons, not_or] at h
    have hrest : rest.head? ≠ some '\n' := by
      intro hhead
      exact h.2 (List.mem_of_head? hhead)
    rw [lines_cons (Ne.symm h.1) fun _ => hrest]
    by_cases hnil : rest = []
    · rw [hnil, lines_nil]
    · rw [ih h.2 hnil]

/-! ## The ends of lines -/

theorem isPrefix_trimEnd (t : Text) : trimEnd t <+: t := by
  induction t with
  | nil => exact List.prefix_rfl
  | cons c rest ih =>
    rw [trimEnd_cons]
    split
    · exact List.nil_prefix
    · exact (List.prefix_cons_inj c).2 ih

theorem exists_eq_trimEnd_append (t : Text) :
    ∃ blanks, t = trimEnd t ++ blanks ∧ ∀ c ∈ blanks, isBlank c = true := by
  induction t with
  | nil => exact ⟨[], rfl, nofun⟩
  | cons c rest ih =>
    obtain ⟨blanks, hrest, hblanks⟩ := ih
    rw [trimEnd_cons]
    split
    · next h => exact ⟨c :: rest, rfl, trimEnd_eq_nil_iff.1 (by rw [trimEnd_cons, if_pos h])⟩
    · exact ⟨blanks, congrArg (c :: ·) hrest, hblanks⟩

/-- What has no blank at its end stays in front of whatever follows it. -/
theorem trimEnd_append {t : Text} (h : trimEnd t = t) (s : Text) :
    trimEnd (t ++ s) = t ++ trimEnd s := by
  induction t with
  | nil => rfl
  | cons c rest ih =>
    rw [trimEnd_cons] at h
    split at h
    · cases h
    · next hc =>
      have hrest : trimEnd rest = rest := List.tail_eq_of_cons_eq h
      rw [List.cons_append, trimEnd_cons, ih hrest, if_neg, List.cons_append]
      rintro ⟨hnil, hblank⟩
      exact hc ⟨hrest.trans (List.append_eq_nil_iff.1 hnil).1, hblank⟩

theorem isBlank_of_isDigit {c : Char} (h : c.isDigit = true) : isBlank c = false := by
  have hrange : 48 ≤ c.toNat ∧ c.toNat ≤ 57 := by
    simpa [Char.isDigit, UInt32.le_iff_toNat_le] using h
  simp only [isBlank, Bool.or_eq_false_iff, Bool.and_eq_false_iff, decide_eq_false_iff_not,
    beq_eq_false_iff_ne]
  omega

theorem trimEnd_concat {c : Char} (h : isBlank c = false) (t : Text) :
    trimEnd (t ++ [c]) = t ++ [c] := by
  induction t with
  | nil =>
    rw [List.nil_append, trimEnd_cons, h, if_neg (fun hc => Bool.false_ne_true hc.2), trimEnd]
  | cons d rest ih =>
    rw [List.cons_append, trimEnd_cons, ih, if_neg]
    exact fun hnil => List.append_ne_nil_of_right_ne_nil rest (List.cons_ne_nil c []) hnil.1

theorem isBlank_getLast?_trimEnd {t : Text} {c : Char} (h : (trimEnd t).getLast? = some c) :
    isBlank c = false := by
  induction t with
  | nil => cases h
  | cons d rest ih =>
    rw [trimEnd_cons] at h
    split at h
    · cases h
    · next hd =>
      cases hrest : trimEnd rest with
      | nil =>
        rw [hrest] at h hd
        obtain rfl : d = c := by simpa using h
        simpa using hd
      | cons e more =>
        rw [hrest, List.getLast?_cons_cons] at h
        exact ih (hrest ▸ h)

/-- Only a blank at the end is taken off. -/
theorem trimEnd_eq_self_iff {t : Text} :
    trimEnd t = t ↔ ∀ c, t.getLast? = some c → isBlank c = false := by
  constructor
  · intro h c hc
    exact isBlank_getLast?_trimEnd (h.symm ▸ hc)
  · intro h
    cases hlast : t.getLast? with
    | none =>
      rw [List.getLast?_eq_none_iff.1 hlast]
      rfl
    | some c =>
      obtain ⟨front, rfl⟩ := List.getLast?_eq_some_iff.1 hlast
      exact trimEnd_concat (h c hlast) front

theorem withoutReturn_concat {c : Char} (h : c ≠ '\r') (t : Text) :
    withoutReturn (t ++ [c]) = t ++ [c] := by
  rw [withoutReturn, List.getLast?_concat, if_neg]
  exact fun hc => h (Option.some.inj hc)

theorem withoutReturn_of_trimEnd_eq {t : Text} (h : trimEnd t = t) : withoutReturn t = t := by
  rw [withoutReturn, if_neg]
  intro hlast
  have hblank := trimEnd_eq_self_iff.1 h _ hlast
  revert hblank
  decide

/-- The carriage return at the end of a line is one of its blanks. -/
theorem trimEnd_withoutReturn (l : Text) : trimEnd (withoutReturn l) = trimEnd l := by
  unfold withoutReturn
  split
  · next hlast =>
    obtain ⟨t, rfl⟩ := List.getLast?_eq_some_iff.1 hlast
    rw [List.dropLast_concat, trimEnd_append_blank (List.forall_mem_singleton.2 rfl)]
  · rfl

theorem isPrefix_withoutReturn (l : Text) : withoutReturn l <+: l := by
  unfold withoutReturn
  split
  · exact List.dropLast_prefix l
  · exact List.prefix_rfl

/-- Whatever follows a line, the line end that is taken off is never within the line. -/
theorem isPrefix_withoutReturn_append (l s : Text) :
    withoutReturn l <+: withoutReturn (l ++ s) := by
  by_cases hs : s = []
  · subst hs
    have happend : l ++ [] = l := List.append_nil l
    exact happend.symm ▸ List.prefix_rfl
  · refine (isPrefix_withoutReturn l).trans ?_
    unfold withoutReturn
    split
    · rw [List.dropLast_append_of_ne_nil hs]
      exact List.prefix_append l _
    · exact List.prefix_append l s

theorem withoutReturn_append {s t : Text} (h : s.getLast? ≠ some '\r') :
    withoutReturn (s ++ t) = s ++ withoutReturn t := by
  by_cases ht : t = []
  · subst ht
    rw [List.append_nil, withoutReturn, if_neg h]
    exact (List.append_nil s).symm
  · have hlast : (s ++ t).getLast? = t.getLast? := by
      rw [List.getLast?_append, List.getLast?_eq_some_getLast ht, Option.some_or]
    unfold withoutReturn
    rw [hlast, List.dropLast_append_of_ne_nil ht]
    split <;> rfl

end SourceAudit.Text
