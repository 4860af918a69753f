import SourceAudit.Text.Blank
import SourceAudit.Text.Letter

/-!
# What a change of case makes and what it leaves

A character comes to another in capitals or in small letters only where the tables of the mapping
name that other. Newline, dot and slash are in no table, so that capitals neither make nor take one
away; and a letter of ASCII in small letters was that letter or its capital before. In capitals a
letter or digit of ASCII is no blank.

    IsUncased d → (d ∈ upper t ↔ d ∈ t)                                  (IsUncased.mem_upper_iff)
    'l' ∈ lower t → 'l' ∈ t ∨ 'L' ∈ t                                           (of_l_mem_lower)
-/

namespace SourceAudit.Text

/-! ## The tables of a mapping -/

/-- No character comes to `d` by the tables of a mapping. A number that is no character stands for
NUL, so that NUL is left out. -/
structure Avoids (expansions : List (Nat × List Nat)) (runs : List CaseRun) (d : Char) : Prop where
  ne_nul : d.toNat ≠ 0
  expansions : ∀ image ∈ expansions, d.toNat ∉ image.2
  runs : ∀ r ∈ runs, (d.toNat : Int) < r.first + r.shift ∨ r.last + r.shift < (d.toNat : Int)

theorem eq_toNat_of_ofNat_eq {n : Nat} {d : Char} (hd : d.toNat ≠ 0) (h : Char.ofNat n = d) :
    n = d.toNat := by
  subst h
  by_cases hn : n.isValidChar
  · rw [Char.ofNat, dif_pos hn]
    rfl
  · rw [Char.ofNat, dif_neg hn] at hd
    exact absurd rfl hd

theorem Avoids.not_mem_mapCase {expansions : List (Nat × List Nat)} {runs : List CaseRun}
    {c d : Char} (h : Avoids expansions runs d) (hc : c ≠ d) : d ∉ mapCase expansions runs c := by
  unfold mapCase
  split
  · next image hlookup =>
    intro hmem
    obtain ⟨n, hn, heq⟩ := List.mem_map.1 hmem
    rw [eq_toNat_of_ofNat_eq h.ne_nul heq] at hn
    obtain ⟨before, after, heq, -⟩ := List.lookup_eq_some_iff.1 hlookup
    exact h.expansions (c.toNat, image) (by simp [heq]) hn
  · split
    · next r hfind =>
      intro hmem
      have hshifted := eq_toNat_of_ofNat_eq h.ne_nul (List.mem_singleton.1 hmem).symm
      have hcovers := List.find?_some hfind
      have hrun := h.runs r (List.mem_of_find?_eq_some hfind)
      have hne := h.ne_nul
      simp only [CaseRun.covers, Bool.and_eq_true, decide_eq_true_eq] at hcovers
      omega
    · exact fun hmem => hc (List.mem_singleton.1 hmem).symm

/-! ## Capitals -/

/-- A character that stands for itself in capitals and is in the capitals of no other. -/
structure IsUncased (d : Char) : Prop where
  self : upperChar d = [d]
  ascii : ∀ n, n < 128 → (Char.ofNat n).toUpper = d → Char.ofNat n = d
  beyond : Avoids upperExpansions upperRuns d

/-- Newline, dot and slash stand in no table of the capitals. -/
theorem isUncased_of_mem {d : Char} (h : d ∈ ['\n', '.', '/']) : IsUncased d := by
  simp only [List.mem_cons, List.not_mem_nil, or_false] at h
  rcases h with rfl | rfl | rfl
  all_goals
    exact ⟨by decide, by decide +kernel, by decide, by decide +kernel, by decide +kernel⟩

theorem IsUncased.not_mem_upperChar {c d : Char} (h : IsUncased d) (hc : c ≠ d) :
    d ∉ upperChar c := by
  unfold upperChar
  split
  · next hascii =>
    intro hmem
    have hupper := h.ascii c.toNat hascii
    rw [Char.ofNat_toNat] at hupper
    exact hc (hupper (List.mem_singleton.1 hmem).symm)
  · exact h.beyond.not_mem_mapCase hc

theorem IsUncased.mem_upper_iff {d : Char} (h : IsUncased d) {t : Text} :
    d ∈ upper t ↔ d ∈ t := by
  rw [upper, List.mem_flatMap]
  constructor
  · rintro ⟨c, hc, hmem⟩
    by_cases hcd : c = d
    · exact hcd ▸ hc
    · exact absurd hmem (h.not_mem_upperChar hcd)
  · intro hd
    exact ⟨d, hd, h.self ▸ List.mem_singleton_self d⟩

theorem upper_singleton (c : Char) : upper [c] = upperChar c :=
  List.flatMap_singleton upperChar c

theorem toNat_lt_of_isAlphanum {c : Char} (h : c.isAlphanum = true) : c.toNat < 128 := by
  have hranges : (decide (c.val ≥ 'A'.val ∧ c.val ≤ 'Z'.val) ||
      (decide (c.val ≥ 'a'.val) && decide (c.val ≤ 'z'.val)) ||
      (decide (c.val ≥ '0'.val) && decide (c.val ≤ '9'.val))) = true := h
  simp only [Char.reduceVal, ge_iff_le, UInt32.le_iff_toNat_le, UInt32.reduceToNat,
    Char.toNat_val, Bool.or_eq_true, Bool.and_eq_true, decide_eq_true_eq] at hranges
  omega

/-- The capital of a letter or digit is no blank. -/
theorem upperChar_of_isAlphanum {c : Char} (h : c.isAlphanum = true) :
    ∃ d, upperChar c = [d] ∧ isBlank d = false := by
  have hascii := toNat_lt_of_isAlphanum h
  have hall : ∀ n, n < 128 → (Char.ofNat n).isAlphanum = true →
      isBlank (Char.ofNat n).toUpper = false := by
    decide
  have hblank := hall c.toNat hascii
  rw [Char.ofNat_toNat] at hblank
  exact ⟨c.toUpper, if_pos hascii, hblank h⟩

/-! ## Small letters -/

/-- Where there is a small l, there was one before or a capital one. -/
theorem of_l_mem_lower {t : Text} (h : 'l' ∈ lower t) : 'l' ∈ t ∨ 'L' ∈ t := by
  obtain ⟨c, hc, hmem⟩ := List.mem_flatMap.1 h
  unfold lowerChar at hmem
  split at hmem
  · next hascii =>
    have hall : ∀ n, n < 128 → (Char.ofNat n).toLower = 'l' →
        Char.ofNat n = 'l' ∨ Char.ofNat n = 'L' := by
      decide
    have hlower := hall c.toNat hascii
    rw [Char.ofNat_toNat] at hlower
    rcases hlower (List.mem_singleton.1 hmem).symm with rfl | rfl
    · exact Or.inl hc
    · exact Or.inr hc
  · have havoids : Avoids lowerExpansions lowerRuns 'l' :=
      ⟨by decide, by decide +kernel, by decide +kernel⟩
    by_cases hcl : c = 'l'
    · exact Or.inl (hcl ▸ hc)
    · exact absurd hmem (havoids.not_mem_mapCase hcl)

end SourceAudit.Text
