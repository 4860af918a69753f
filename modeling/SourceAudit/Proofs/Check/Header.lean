import SourceAudit.Check.Header

/-!
# What a header has to be

A rule for every line of a template and for the line behind it, stated without looking at lines in
turn. The check accepts a text when each of these rules holds.

    t.check content = .ok () ↔ t.Opens content                               (check_eq_ok_iff)
-/

namespace SourceAudit

/-! ## The rules -/

/-- Four digits that no digit follows. -/
def BeginsWithYear (t : Text) : Prop :=
  ∃ year rest, t = year ++ rest ∧ year.length = 4 ∧ (∀ c ∈ year, c.isDigit = true) ∧
    ∀ c ∈ rest.head?, c.isDigit = false

/-- A copyright line begins with the lead and, if one is asked for, a year. -/
def CopyrightRule.Allows (rule : CopyrightRule) (line : Text) : Prop :=
  ∃ rest, line = rule.lead ++ rest ∧ (rule.requireYear = true → BeginsWithYear rest)

/-- What a line has to be where the template has `expected`, or where it has ended. -/
def CopyrightRule.Meets (rule : CopyrightRule) (inSlot : Prop) (expected : Option Text)
    (line : Text) : Prop :=
  match expected with
  | some expected => (inSlot → rule.Allows line) ∧ (¬ inSlot → Text.trimEnd line = expected)
  | none => ∀ c ∈ line, Text.isBlank c = true

/-- There is a line `i`, and it is what the template asks for. -/
def HeaderTemplate.Meets (t : HeaderTemplate) (content : Text) (i : Nat) : Prop :=
  ∃ line, (Text.lines content)[i]? = some line ∧ t.rule.Meets (i = t.slot) t.lines[i]? line

/-- The lines of the template are met, and so is the end of the header behind them. -/
def HeaderTemplate.Opens (t : HeaderTemplate) (content : Text) : Prop :=
  ∀ i, i ≤ t.lines.length → t.Meets content i

/-! ## Lemmas -/

theorem beginsWithYear_iff {t : Text} : beginsWithYear t = true ↔ BeginsWithYear t := by
  rw [beginsWithYear, beq_iff_eq]
  constructor
  · intro h
    have hyear : ∀ c ∈ t.takeWhile Char.isDigit, c.isDigit = true :=
      List.all_eq_true.1 List.all_takeWhile
    refine ⟨t.takeWhile Char.isDigit, t.dropWhile Char.isDigit,
      List.takeWhile_append_dropWhile.symm, h, hyear, ?_⟩
    intro c hc
    have hne := List.head?_dropWhile_not Char.isDigit t
    rw [Option.mem_def.1 hc] at hne
    simpa using hne
  · rintro ⟨year, rest, rfl, hlength, hyear, hrest⟩
    rw [List.takeWhile_append_of_pos hyear]
    cases rest with
    | nil => simpa using hlength
    | cons c rest =>
      have hc : c.isDigit = false := hrest c rfl
      rw [List.takeWhile_cons_of_neg (by simp [hc]), List.append_nil, hlength]

theorem CopyrightRule.accepts_iff {rule : CopyrightRule} {line : Text} :
    rule.accepts line = true ↔ rule.Allows line := by
  unfold CopyrightRule.accepts CopyrightRule.Allows
  cases hdrop : Text.dropStart? rule.lead line with
  | none =>
    refine iff_of_false Bool.false_ne_true ?_
    rintro ⟨rest, hline, -⟩
    rw [Text.dropStart?_eq_some_iff.2 hline] at hdrop
    cases hdrop
  | some rest =>
    have hline := Text.dropStart?_eq_some_iff.1 hdrop
    rw [Bool.or_eq_true, Bool.not_eq_true', beginsWithYear_iff]
    constructor
    · intro h
      refine ⟨rest, hline, fun hyear => ?_⟩
      rcases h with h | h
      · rw [h] at hyear
        cases hyear
      · exact h
    · rintro ⟨other, hother, h⟩
      obtain rfl := List.append_cancel_left (hline.symm.trans hother)
      cases hyear : rule.requireYear with
      | false => exact Or.inl rfl
      | true => exact Or.inr (h hyear)

/-- Rules up to one more line are the rule for the first line and those for the others. -/
theorem forall_le_succ {p : Nat → Prop} {n : Nat} :
    (∀ i, i ≤ n + 1 → p i) ↔ p 0 ∧ ∀ i, i ≤ n → p (i + 1) := by
  constructor
  · intro h
    exact ⟨h 0 (by omega), fun i hi => h (i + 1) (by omega)⟩
  · rintro ⟨hzero, hsucc⟩ i hi
    cases i with
    | zero => exact hzero
    | succ i => exact hsucc i (by omega)

variable {slot : Nat} {rule : CopyrightRule}

theorem exists_getElem?_cons_zero {line : Text} {rest : List Text} {p : Text → Prop} :
    (∃ l, (line :: rest)[0]? = some l ∧ p l) ↔ p line := by
  simp

theorem checkFrom_eq_ok_iff {n : Nat} {expected content : List Text} :
    HeaderTemplate.checkFrom slot rule n expected content = .ok () ↔
      ∀ i, i ≤ expected.length →
        ∃ line, content[i]? = some line ∧ rule.Meets (n + i = slot) expected[i]? line := by
  induction expected generalizing n content with
  | nil =>
    cases content with
    | nil => simp [HeaderTemplate.checkFrom]
    | cons line rest =>
      have hfirst : (∀ i, i ≤ ([] : List Text).length → ∃ l, (line :: rest)[i]? = some l ∧
          rule.Meets (n + i = slot) ([] : List Text)[i]? l) ↔ Text.trimEnd line = [] := by
        rw [Text.trimEnd_eq_nil_iff]
        constructor
        · intro h
          exact exists_getElem?_cons_zero.1 (h 0 (Nat.le_refl 0))
        · intro h i hi
          obtain rfl := Nat.le_zero.1 hi
          exact exists_getElem?_cons_zero.2 h
      rw [hfirst, HeaderTemplate.checkFrom]
      split <;> simp [*]
  | cons e more ih =>
    cases content with
    | nil =>
      refine iff_of_false (by simp [HeaderTemplate.checkFrom]) fun h => ?_
      obtain ⟨line, hline, -⟩ := h 0 (Nat.zero_le _)
      cases hline
    | cons line rest =>
      have hmore : (∀ i, i ≤ more.length → ∃ l, (line :: rest)[i + 1]? = some l ∧
          rule.Meets (n + (i + 1) = slot) (e :: more)[i + 1]? l) ↔
          HeaderTemplate.checkFrom slot rule (n + 1) more rest = .ok () := by
        rw [ih]
        simp only [List.getElem?_cons_succ, Nat.add_assoc, Nat.add_comm 1]
      rw [List.length_cons, forall_le_succ, exists_getElem?_cons_zero, hmore,
        HeaderTemplate.checkFrom]
      simp only [CopyrightRule.Meets, Nat.add_zero, List.getElem?_cons_zero]
      by_cases hslot : n = slot
      · rw [if_pos hslot, ← CopyrightRule.accepts_iff]
        cases rule.accepts line <;> simp [hslot]
      · rw [if_neg hslot]
        by_cases hline : Text.trimEnd line = e <;> simp [hslot, hline]

theorem HeaderTemplate.check_eq_ok_iff {t : HeaderTemplate} {content : Text} :
    t.check content = .ok () ↔ t.Opens content := by
  rw [HeaderTemplate.check, checkFrom_eq_ok_iff]
  simp only [Nat.zero_add]
  rfl

end SourceAudit
