import SourceAudit.Proofs.Check.Guard

/-!
# Which lines a guard check compares

The guard of a symbol begins at the first `#ifndef` of the symbol that is not the last line. The
check compares this line, the next one and the last one with the three lines of the symbol. Where
they agree they are three lines of the text, and the last one tells the symbol.

    OpensFirstAt symbol lines i → found stands at i →
      (checkGuard content symbol = .ok () ↔ found is what is expected)         (checkGuard_decides)
    checkGuard content s = .ok () → checkGuard content t = .ok () → s = t      (checkGuard_decides)
-/

namespace SourceAudit

/-! ## The rule -/

/-- Line `i` is the `#ifndef` of the symbol, and it is not the last line. -/
def OpensAt (symbol : Text) (lines : List Text) (i : Nat) : Prop :=
  i + 1 < lines.length ∧ lines[i]? = some (GuardLines.expected symbol).opening

/-- No line before `i` opens a guard of the symbol. -/
def OpensFirstAt (symbol : Text) (lines : List Text) (i : Nat) : Prop :=
  OpensAt symbol lines i ∧ ∀ j, j < i → ¬ OpensAt symbol lines j

/-- The three lines are line `i`, the next one and the last one. -/
def GuardLines.StandsAt (g : GuardLines) (lines : List Text) (i : Nat) : Prop :=
  lines[i]? = some g.opening ∧ lines[i + 1]? = some g.definition ∧
    lines[lines.length - 1]? = some g.closing

/-! ## Lemmas -/

theorem findGuard?_eq_none_iff {opening : Text} {lines : List Text} :
    findGuard? opening lines = none ↔
      ∀ i, i + 1 < lines.length → lines[i]? ≠ some opening := by
  fun_induction findGuard? opening lines with
  | case1 next rest =>
    refine iff_of_false (Option.some_ne_none _) fun h => ?_
    exact h 0 (by simp) rfl
  | case2 line next rest hne ih =>
    rw [ih]
    constructor
    · intro h i hi
      cases i with
      | zero => simpa using hne
      | succ i =>
        rw [List.getElem?_cons_succ]
        exact h i (by simpa using hi)
    · intro h i hi
      have hnext := h (i + 1) (by simpa using hi)
      rwa [List.getElem?_cons_succ] at hnext
  | case3 lines hshort =>
    refine iff_of_true rfl fun i hi => ?_
    cases lines with
    | nil => simp at hi
    | cons line more =>
      cases more with
      | nil => simp at hi
      | cons next rest => exact absurd rfl (hshort line next rest)

/-- A search stops at the first line that opens a guard. -/
theorem exists_findGuard?_of_opensFirstAt {symbol : Text} {lines : List Text} {i : Nat}
    (h : OpensFirstAt symbol lines i) :
    ∃ found, findGuard? (GuardLines.expected symbol).opening lines = some found ∧
      found.StandsAt lines i ∧ found.opening = (GuardLines.expected symbol).opening := by
  obtain ⟨⟨hi, hopening⟩, hfirst⟩ := h
  have hne : lines ≠ [] := List.ne_nil_of_length_pos (by omega)
  have hline : lines[i] = (GuardLines.expected symbol).opening :=
    Option.some.inj ((List.getElem?_eq_getElem _).symm.trans hopening)
  have hsplit : lines = lines.take i ++ lines[i] :: lines[i + 1] :: lines.drop (i + 2) := by
    rw [← List.drop_eq_getElem_cons, ← List.drop_eq_getElem_cons, List.take_append_drop]
  have hbefore : (GuardLines.expected symbol).opening ∉ lines.take i := by
    intro hmem
    obtain ⟨j, hj⟩ := List.mem_iff_getElem?.1 hmem
    obtain ⟨hlt, -⟩ := List.getElem?_eq_some_iff.1 hj
    have hji : j < i := Nat.lt_of_lt_of_le hlt (List.length_take_le i lines)
    rw [List.getElem?_take_of_lt hji] at hj
    exact hfirst j hji ⟨by omega, hj⟩
  refine ⟨⟨lines[i], lines[i + 1], lines.getLast hne⟩, ?_, ?_, hline⟩
  · refine findGuard?_eq_some_iff.2 ⟨hline, ⟨lines.take i, lines.drop (i + 2), ?_, hbefore⟩,
      List.getLast?_eq_some_getLast hne⟩
    rw [← hline]
    exact hsplit
  · refine ⟨List.getElem?_eq_getElem _, List.getElem?_eq_getElem _, ?_⟩
    rw [← List.getLast?_eq_getElem?, List.getLast?_eq_some_getLast hne]

theorem checkGuard_eq_of_findGuard? {content symbol : Text} {found : GuardLines}
    (h : findGuard? (GuardLines.expected symbol).opening (guardedLines content) = some found) :
    checkGuard content symbol =
      if found = GuardLines.expected symbol then .ok ()
      else .error (.mismatch (GuardLines.expected symbol) found) := by
  unfold checkGuard
  dsimp only
  rw [← guardedLines, h]

theorem checkGuard_eq_noOpening_iff {content symbol s : Text} :
    checkGuard content symbol = .error (.noOpening s) ↔
      s = symbol ∧ ∀ i, ¬ OpensAt symbol (guardedLines content) i := by
  have hnone : (∀ i, ¬ OpensAt symbol (guardedLines content) i) ↔
      findGuard? (GuardLines.expected symbol).opening (guardedLines content) = none := by
    rw [findGuard?_eq_none_iff]
    exact forall_congr' fun i => not_and
  rw [hnone]
  cases hfind : findGuard? (GuardLines.expected symbol).opening (guardedLines content) with
  | none =>
    unfold checkGuard
    dsimp only
    rw [← guardedLines, hfind]
    simp [eq_comm]
  | some found =>
    rw [checkGuard_eq_of_findGuard? hfind]
    split <;> simp

/-- Behind an opening the check accepts what stands there iff it is as expected. -/
theorem checkGuard_eq_ok_iff_of_findGuard? {content symbol : Text} {found : GuardLines}
    (h : findGuard? (GuardLines.expected symbol).opening (guardedLines content) = some found) :
    checkGuard content symbol = .ok () ↔ found = GuardLines.expected symbol := by
  rw [checkGuard_eq_of_findGuard? h]
  split <;> simp [*]

theorem checkGuard_eq_mismatch_iff_of_findGuard? {content symbol : Text} {found e f : GuardLines}
    (h : findGuard? (GuardLines.expected symbol).opening (guardedLines content) = some found) :
    checkGuard content symbol = .error (.mismatch e f) ↔
      e = GuardLines.expected symbol ∧ f = found ∧ f ≠ e := by
  rw [checkGuard_eq_of_findGuard? h]
  by_cases hfound : found = GuardLines.expected symbol
  · rw [if_pos hfound]
    refine iff_of_false nofun ?_
    rintro ⟨rfl, rfl, hne⟩
    exact hne hfound
  · rw [if_neg hfound]
    constructor
    · intro h
      injection h with h
      injection h with he hf
      subst he hf
      exact ⟨rfl, rfl, hfound⟩
    · rintro ⟨rfl, rfl, -⟩
      rfl

theorem GuardLines.definition_ne_closing (symbol : Text) :
    (GuardLines.expected symbol).definition ≠ (GuardLines.expected symbol).closing := by
  intro h
  have hsecond : ((GuardLines.expected symbol).definition)[1]? =
      ((GuardLines.expected symbol).closing)[1]? := by rw [h]
  injection hsecond with hsecond
  revert hsecond
  decide

theorem GuardLines.closing_injective {s t : Text}
    (h : (GuardLines.expected s).closing = (GuardLines.expected t).closing) : s = t :=
  List.append_cancel_left h

/-- The line behind the opening is not the last one, as its text shows. -/
theorem GuardLines.StandsAt.lt_last {symbol : Text} {lines : List Text} {i : Nat}
    (h : (GuardLines.expected symbol).StandsAt lines i) (hi : i + 1 < lines.length) :
    i + 1 < lines.length - 1 := by
  obtain ⟨-, hnext, hlast⟩ := h
  have hne : i + 1 ≠ lines.length - 1 := by
    intro he
    rw [he, hlast] at hnext
    exact GuardLines.definition_ne_closing symbol (Option.some.inj hnext).symm
  omega

/-! ## Top theorem -/

/-- The check says that there is no opening, that the guard is as expected, or which three lines
differ from it. No text is guarded by two symbols. -/
theorem checkGuard_decides (content symbol : Text) :
    (∀ s, checkGuard content symbol = .error (.noOpening s) ↔
      s = symbol ∧ ∀ i, ¬ OpensAt symbol (guardedLines content) i) ∧
    (∀ i, OpensFirstAt symbol (guardedLines content) i →
      ∃ found, found.StandsAt (guardedLines content) i ∧
        found.opening = (GuardLines.expected symbol).opening ∧
        (checkGuard content symbol = .ok () ↔
          found.definition = (GuardLines.expected symbol).definition ∧
          found.closing = (GuardLines.expected symbol).closing) ∧
        (∀ e f, checkGuard content symbol = .error (.mismatch e f) ↔
          e = GuardLines.expected symbol ∧ f = found ∧ f ≠ e) ∧
        (checkGuard content symbol = .ok () → i + 1 < (guardedLines content).length - 1)) ∧
    ∀ other, checkGuard content symbol = .ok () → checkGuard content other = .ok () →
      symbol = other := by
  refine ⟨fun s => checkGuard_eq_noOpening_iff, fun i hi => ?_, fun other hs ho => ?_⟩
  · obtain ⟨found, hfind, hstands, hopening⟩ := exists_findGuard?_of_opensFirstAt hi
    have hok := checkGuard_eq_ok_iff_of_findGuard? hfind
    have hparts : found = GuardLines.expected symbol ↔
        found.definition = (GuardLines.expected symbol).definition ∧
        found.closing = (GuardLines.expected symbol).closing := by
      rw [GuardLines.mk.injEq]
      exact and_iff_right hopening
    refine ⟨found, hstands, hopening, hok.trans hparts,
      fun e f => checkGuard_eq_mismatch_iff_of_findGuard? hfind, fun h => ?_⟩
    rw [hok.1 h] at hstands
    exact hstands.lt_last hi.1.1
  · have hlast := (checkGuard_eq_ok_iff.1 hs).2
    have hother := (checkGuard_eq_ok_iff.1 ho).2
    exact GuardLines.closing_injective (Option.some.inj (hlast.symm.trans hother))

/-- A text that opens its guard twice: the first opening counts. -/
def twiceOpened : Text := "// x\n#ifndef A \n#define A\n#ifndef A\n#endif  // A\n"

theorem checkGuard_decides_twiceOpened :
    OpensFirstAt "A" (guardedLines twiceOpened) 1 ∧ checkGuard twiceOpened "A" = .ok () ∧
    1 + 1 < (guardedLines twiceOpened).length - 1 ∧
    ∀ other, checkGuard twiceOpened other = .ok () → "A".toList = other := by
  have hfirst : OpensFirstAt "A" (guardedLines twiceOpened) 1 := by
    have hzero : (guardedLines twiceOpened)[0]? ≠ some (GuardLines.expected "A").opening := by
      decide +kernel
    refine ⟨⟨by decide +kernel, by decide +kernel⟩, fun j hj hopens => hzero ?_⟩
    obtain rfl := Nat.lt_one_iff.1 hj
    exact hopens.2
  obtain ⟨-, hopening, honly⟩ := checkGuard_decides twiceOpened "A"
  obtain ⟨found, -, -, -, -, hlines⟩ := hopening 1 hfirst
  exact ⟨hfirst, rfl, hlines rfl, fun other hother => honly other rfl hother⟩

end SourceAudit
