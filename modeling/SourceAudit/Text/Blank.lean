import SourceAudit.Text.Basic

/-!
# White space

The characters with Unicode's property White_Space, and a line without the blanks at its end.

    (∀ c ∈ s, isBlank c) → trimEnd (t ++ s) = trimEnd t                 (trimEnd_append_blank)
    trimEnd t = [] ↔ ∀ c ∈ t, isBlank c                                 (trimEnd_eq_nil_iff)
-/

namespace SourceAudit.Text

/-! ## Algorithm -/

def isBlank (c : Char) : Bool :=
  (0x09 ≤ c.toNat && c.toNat ≤ 0x0d) || c.toNat == 0x20 || c.toNat == 0x85 || c.toNat == 0xa0 ||
  c.toNat == 0x1680 || (0x2000 ≤ c.toNat && c.toNat ≤ 0x200a) || c.toNat == 0x2028 ||
  c.toNat == 0x2029 || c.toNat == 0x202f || c.toNat == 0x205f || c.toNat == 0x3000

/-- The text without the blanks at its end. -/
def trimEnd : Text → Text
  | [] => []
  | c :: rest =>
    match trimEnd rest with
    | [] => if isBlank c then [] else [c]
    | kept => c :: kept

/-! ## Lemmas -/

theorem trimEnd_cons (c : Char) (rest : Text) :
    trimEnd (c :: rest) =
      if trimEnd rest = [] ∧ isBlank c = true then [] else c :: trimEnd rest := by
  rw [trimEnd]
  cases h : trimEnd rest with
  | nil => by_cases hc : isBlank c <;> simp [hc]
  | cons x xs => simp

theorem trimEnd_eq_nil_iff {t : Text} : trimEnd t = [] ↔ ∀ c ∈ t, isBlank c = true := by
  induction t with
  | nil => simp [trimEnd]
  | cons c rest ih =>
    rw [trimEnd_cons]
    by_cases h : trimEnd rest = [] ∧ isBlank c = true
    · simpa [h] using ih.1 h.1
    · rw [if_neg h]
      simp only [reduceCtorEq, List.mem_cons, forall_eq_or_imp, false_iff, not_and]
      exact fun hc hr => h ⟨ih.2 hr, hc⟩

theorem trimEnd_append_blank {t s : Text} (h : ∀ c ∈ s, isBlank c = true) :
    trimEnd (t ++ s) = trimEnd t := by
  induction t with
  | nil => exact trimEnd_eq_nil_iff.2 h
  | cons c rest ih => rw [List.cons_append, trimEnd_cons, trimEnd_cons, ih]

theorem trimEnd_trimEnd (t : Text) : trimEnd (trimEnd t) = trimEnd t := by
  induction t with
  | nil => rfl
  | cons c rest ih =>
    rw [trimEnd_cons]
    split
    · rfl
    · next h => rw [trimEnd_cons, ih, if_neg h]

end SourceAudit.Text
