import SourceAudit.Check.Guard

/-!
# What a guard has to be

The rule for a guarded text, stated on its right-trimmed lines as a whole: they split at the first
`#ifndef` of the symbol, and the `#define` comes next. The check accepts a text when they do and
the last of them is the `#endif`.

    checkGuard content symbol = .ok () ↔ GuardedBy symbol content          (checkGuard_eq_ok_iff)
-/

namespace SourceAudit

/-- The lines of a text as a check of guards sees them. -/
def guardedLines (content : Text) : List Text := (Text.lines content).map Text.trimEnd

/-- The first `#ifndef` of the symbol is followed by its `#define`, and the last line is its
`#endif`. -/
def GuardedBy (symbol content : Text) : Prop :=
  let guard := GuardLines.expected symbol
  (∃ before after, guardedLines content = before ++ guard.opening :: guard.definition :: after ∧
    guard.opening ∉ before) ∧
  (guardedLines content).getLast? = some guard.closing

/-! ## Lemmas -/

/-- A guard is found where the lines split at the first opening and a line follows it. -/
theorem findGuard?_eq_some_iff {opening : Text} {lines : List Text} {found : GuardLines} :
    findGuard? opening lines = some found ↔
      found.opening = opening ∧
      (∃ before after, lines = before ++ opening :: found.definition :: after ∧ opening ∉ before) ∧
      lines.getLast? = some found.closing := by
  fun_induction findGuard? opening lines with
  | case1 next rest =>
    constructor
    · rintro h
      injection h with h
      subst h
      refine ⟨rfl, ⟨[], rest, rfl, List.not_mem_nil⟩, ?_⟩
      rw [List.getLast?_cons_cons]
      exact List.getLast?_eq_some_getLast (List.cons_ne_nil _ _)
    · rintro ⟨hopening, ⟨before, after, hsplit, hbefore⟩, hlast⟩
      cases before with
      | cons line before =>
        injection hsplit with hline
        exact absurd (by simp [hline]) hbefore
      | nil =>
        injection hsplit with hline hsplit
        injection hsplit with hnext
        rw [List.getLast?_cons_cons, List.getLast?_eq_some_getLast (List.cons_ne_nil _ _)] at hlast
        injection hlast with hlast
        rw [hlast, ← hopening, hnext]
  | case2 line next rest hne ih =>
    rw [ih, List.getLast?_cons_cons]
    refine and_congr_right fun _ => and_congr_left fun _ => ?_
    constructor
    · rintro ⟨before, after, hsplit, hbefore⟩
      refine ⟨line :: before, after, by rw [hsplit]; rfl, ?_⟩
      simp [hbefore, Ne.symm hne]
    · rintro ⟨before, after, hsplit, hbefore⟩
      cases before with
      | nil =>
        injection hsplit with hline
        exact absurd hline hne
      | cons first before =>
        injection hsplit with hline hsplit
        exact ⟨before, after, hsplit, fun h => hbefore (List.mem_cons_of_mem _ h)⟩
  | case3 lines hshort =>
    refine iff_of_false (by simp) ?_
    rintro ⟨-, ⟨before, after, hsplit, -⟩, -⟩
    cases before with
    | nil => exact hshort _ _ _ hsplit
    | cons first before =>
      cases before with
      | nil => exact hshort _ _ _ hsplit
      | cons second before => exact hshort _ _ _ hsplit

theorem checkGuard_eq_ok_iff {content symbol : Text} :
    checkGuard content symbol = .ok () ↔ GuardedBy symbol content := by
  have hfind : checkGuard content symbol = .ok () ↔
      findGuard? (GuardLines.expected symbol).opening (guardedLines content) =
        some (GuardLines.expected symbol) := by
    unfold checkGuard guardedLines
    dsimp only
    cases findGuard? (GuardLines.expected symbol).opening
        ((Text.lines content).map Text.trimEnd) with
    | none => simp
    | some found =>
      dsimp only
      rw [Option.some.injEq]
      by_cases hfound : found = GuardLines.expected symbol <;> simp [hfound]
  rw [hfind, findGuard?_eq_some_iff]
  exact and_iff_right rfl

end SourceAudit
