import SourceAudit.Number.Shown
import SourceAudit.Proofs.Number.Numeral
import Mathlib.Data.Rat.Floor

/-!
# Fixed places read back

A double written with a fixed count of decimal places is a numeral of the number that it is rounded
to, and rounding keeps the order of the doubles. So a number that is shown lower is lower, and one
that is lower is shown lower or the same.

    number? (x.fixed places) = some (x.inPlaces places / 10 ^ places)               (number?_fixed)
    x.value ≤ y.value → x.inPlaces places ≤ y.inPlaces places                         (inPlaces_le)
-/

namespace SourceAudit

/-! ## The rule -/

/-- The number that a text writes, with a sign or none, in digits with a point or none. -/
def Decimal.number? (t : Text) : Option ℚ :=
  (Decimal.readNumeral? (Decimal.splitSign t).2).map fun n =>
    (if (Decimal.splitSign t).1 then -1 else 1) *
      ((Decimal.ofDigits n.digits : ℚ) * 10 ^ n.scale)

/-- A double as a whole number of units in the last of some decimal places. -/
def Binary64.inPlaces (places : Nat) (x : Binary64) : Int :=
  let units : Int := roundDiv (x.magnitude * tenTo places) (twoTo 1074)
  if x.negative then -units else units

/-! ## Rounding keeps the order -/

theorem roundDiv_mono {m n den : Nat} (hden : den ≠ 0) (h : m ≤ n) :
    roundDiv m den ≤ roundDiv n den := by
  rcases Nat.lt_or_eq_of_le h with hlt | rfl
  · refine Nat.le_of_not_lt fun hrounded => ?_
    have hupper : 2 * n ≤ (2 * roundDiv n den + 1) * den := roundDiv_upper hden
    have hlower : 2 * roundDiv m den * den ≤ 2 * m + den := roundDiv_lower hden
    have hapart : roundDiv n den * den + den ≤ roundDiv m den * den := mul_add_le_of_lt hrounded den
    rw [Nat.add_mul, Nat.one_mul, Nat.mul_assoc] at hupper
    rw [Nat.mul_assoc] at hlower
    omega
  · exact Nat.le_refl _

theorem roundDiv_zero (den : Nat) : roundDiv 0 den = 0 := by
  unfold roundDiv
  dsimp only
  rw [Nat.zero_div, Nat.zero_mod]
  split
  · rfl
  · split <;> omega

namespace Binary64

variable {x y : Binary64}

theorem inPlaces_le (places : Nat) (h : x.value ≤ y.value) :
    x.inPlaces places ≤ y.inPlaces places := by
  have hmono : ∀ {u v : Binary64}, u.magnitude ≤ v.magnitude →
      roundDiv (u.magnitude * tenTo places) (twoTo 1074) ≤
        roundDiv (v.magnitude * tenTo places) (twoTo 1074) :=
    fun hle => roundDiv_mono (Nat.ne_of_gt (twoTo_pos 1074)) (Nat.mul_le_mul_right _ hle)
  unfold value at h
  unfold inPlaces
  dsimp only
  cases hx : x.negative <;> cases hy : y.negative <;> simp only [hx, hy, if_true,
    Bool.false_eq_true, if_false] at h ⊢
  · have := hmono (u := x) (v := y) (by omega)
    omega
  · -- only the two zeros stand in this order
    have hzero : x.magnitude = 0 := by omega
    have hzero' : y.magnitude = 0 := by omega
    rw [hzero, hzero', Nat.zero_mul, roundDiv_zero]
    omega
  · omega
  · have := hmono (u := y) (v := x) (by omega)
    omega

end Binary64

/-! ## The digits -/

theorem Decimal.ofDigits_ofNat (n : Nat) : Decimal.ofDigits (Text.ofNat n) = n :=
  Nat.ofDigitChars_ten_toDigits

theorem Decimal.ofDigits_padStart (width : Nat) (t : Text) :
    Decimal.ofDigits (Text.padStart width '0' t) = Decimal.ofDigits t := by
  have hzeros : ∀ k, (List.replicate k '0').foldl
      (fun n c => 10 * n + Decimal.digitValue c) 0 = 0 := by
    intro k
    induction k with
    | zero => rfl
    | succ k ih =>
      rw [List.replicate_succ, List.foldl_cons]
      exact ih
  unfold Decimal.ofDigits Text.padStart
  rw [List.foldl_append, hzeros]

theorem isDigit_of_mem_padStart {width n : Nat} {c : Char}
    (h : c ∈ Text.padStart width '0' (Text.ofNat n)) : c.isDigit = true := by
  rcases List.mem_append.1 h with hzero | hdigit
  · rw [List.eq_of_mem_replicate hzero]
    rfl
  · exact Nat.isDigit_of_mem_toDigits (by decide) (by decide) hdigit

section

variable {places : Nat} (hplaces : 0 < places) (n : Nat)

include hplaces

namespace Binary64

/-- The digits before and behind the point; there is one before it, if only a zero. -/
theorem isFraction_placed : ∃ whole part, Decimal.IsFraction whole part (placed n places) ∧
    whole ++ part = Text.padStart (places + 1) '0' (Text.ofNat n) ∧ part.length = places := by
  have hdigits : ∀ c ∈ Text.padStart (places + 1) '0' (Text.ofNat n), c.isDigit = true :=
    fun c hc => isDigit_of_mem_padStart hc
  have hlength : places + 1 ≤ (Text.padStart (places + 1) '0' (Text.ofNat n)).length := by
    unfold Text.padStart
    rw [List.length_append, List.length_replicate]
    omega
  unfold placed
  generalize Text.padStart (places + 1) '0' (Text.ofNat n) = t at hdigits hlength
  dsimp only
  rw [if_neg (Nat.ne_of_gt hplaces)]
  refine ⟨t.take (t.length - places), t.drop (t.length - places), ⟨?_, ?_, ?_, Or.inr rfl⟩,
    List.take_append_drop _ _, ?_⟩
  · rw [← List.length_pos_iff, List.length_take]
    omega
  · exact fun c hc => hdigits c (List.mem_of_mem_take hc)
  · exact fun c hc => hdigits c (List.mem_of_mem_drop hc)
  · rw [List.length_drop]
    omega

theorem number?_signed_placed (negative : Bool) :
    Decimal.number? ((if negative then ['-'] else []) ++ placed n places) =
      some ((if negative then -1 else 1) * ((n : ℚ) / 10 ^ places)) := by
  obtain ⟨whole, part, hfraction, hdigits, hpart⟩ := isFraction_placed hplaces n
  obtain ⟨c, rest, hcons, hc⟩ := hfraction.exists_cons
  have hsign : Decimal.splitSign ((if negative then ['-'] else []) ++ placed n places) =
      (negative, placed n places) := by
    cases negative with
    | true => rfl
    | false =>
      rw [hcons]
      exact Decimal.splitSign_of_isDecimalDigit (Decimal.isDecimalDigit_of_isDigit hc)
  unfold Decimal.number?
  rw [hsign, hfraction.readNumeral?_eq, hdigits, hpart]
  simp only [Option.map_some, Decimal.ofDigits_padStart, Decimal.ofDigits_ofNat]
  rw [zpow_neg, zpow_natCast, div_eq_mul_inv]

theorem number?_fixed {x : Binary64} (hx : x.IsFinite) :
    Decimal.number? (x.fixed places) = some ((x.inPlaces places : ℚ) / 10 ^ places) := by
  unfold fixed signed
  rw [hx.isNaN_eq, hx.isInfinite_eq, if_neg Bool.false_ne_true, if_neg Bool.false_ne_true,
    number?_signed_placed hplaces]
  unfold inPlaces
  generalize roundDiv (x.magnitude * tenTo places) (twoTo 1074) = units
  dsimp only
  cases x.negative with
  | true =>
    rw [if_pos rfl, if_pos rfl, Int.cast_neg, Int.cast_natCast, neg_one_mul, neg_div]
  | false =>
    rw [if_neg Bool.false_ne_true, if_neg Bool.false_ne_true, Int.cast_natCast, one_mul]

end Binary64

end

end SourceAudit
