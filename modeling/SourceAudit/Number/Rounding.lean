import SourceAudit.Number.Binary64
import SourceAudit.Text.Basic

/-!
# Rounding to nearest

A quotient of natural numbers is rounded to the nearest whole number and, with the same rule, to
the nearest double. A tie goes to the even neighbour.

    den ≠ 0 → 2 * num ≤ (2 * roundDiv num den + 1) * den                  (roundDiv_upper)
    den ≠ 0 → 2 * roundDiv num den * den ≤ 2 * num + den                  (roundDiv_lower)
-/

namespace SourceAudit

/-! ## Algorithm -/

/-- The quotient `num / den`, rounded to the nearest whole number. -/
def roundDiv (num den : Nat) : Nat :=
  let floor := num / den
  let twice := 2 * (num % den)
  if twice < den then floor
  else if den < twice then floor + 1
  else floor + floor % 2

namespace Binary64

/-- The double nearest to `num / den`. The fifty-three leading bits of the quotient are kept, or
fewer where the last of them would be below 2⁻¹⁰⁷⁴; a carry out of the fraction runs on into the
exponent. -/
def ofRatio (negative : Bool) (num den : Nat) : Binary64 :=
  let units := num * twoTo 1074
  let dropped := (units / den).log2 - 52
  ofMagnitudeBits negative (dropped * 0x10000000000000 + roundDiv units (den * twoTo dropped))

/-- The double nearest to a natural number. -/
def ofNat (n : Nat) : Binary64 := ofRatio false n 1

/-- The double nearest to `digits` times ten to the `scale`. A number of 310 whole digits or more
is beyond every double, and one with 330 zeros behind its point is next to none. -/
def ofDecimal (negative : Bool) (digits : Nat) (scale : Int) : Binary64 :=
  let size : Int := (Text.ofNat digits).length + scale
  if digits = 0 then zero negative
  else if 310 < size then infinity negative
  else if size < -330 then zero negative
  else if 0 ≤ scale then ofRatio negative (digits * tenTo scale.toNat) 1
  else ofRatio negative digits (tenTo (-scale).toNat)

/-- A finite number divided by a natural one, rounded. -/
def divNat (x : Binary64) (n : Nat) : Binary64 :=
  ofRatio x.negative x.magnitude (twoTo 1074 * n)

end Binary64

/-! ## Lemmas -/

theorem roundDiv_upper {num den : Nat} (h : den ≠ 0) :
    2 * num ≤ (2 * roundDiv num den + 1) * den := by
  have hd := Nat.div_add_mod num den
  have hm := Nat.mod_lt num (Nat.pos_of_ne_zero h)
  have key : ∀ q, num / den ≤ q → (num / den < q ∨ 2 * (num % den) ≤ den) →
      2 * num ≤ (2 * q + 1) * den := by
    intro q hq hr
    rcases hr with hr | hr
    · have : (2 * (num / den) + 2) * den ≤ (2 * q + 1) * den := Nat.mul_le_mul_right _ (by omega)
      have e : (2 * (num / den) + 2) * den = 2 * (den * (num / den)) + 2 * den := by
        rw [Nat.add_mul, Nat.mul_assoc, Nat.mul_comm (num / den)]
      omega
    · have : (2 * (num / den) + 1) * den ≤ (2 * q + 1) * den := Nat.mul_le_mul_right _ (by omega)
      have e : (2 * (num / den) + 1) * den = 2 * (den * (num / den)) + den := by
        rw [Nat.add_mul, Nat.mul_assoc, Nat.mul_comm (num / den), Nat.one_mul]
      omega
  unfold roundDiv
  dsimp only
  split
  · exact key _ (Nat.le_refl _) (Or.inr (by omega))
  · split
    · exact key _ (by omega) (Or.inl (by omega))
    · exact key _ (by omega) (Or.inr (by omega))

theorem roundDiv_lower {num den : Nat} (h : den ≠ 0) :
    2 * roundDiv num den * den ≤ 2 * num + den := by
  have hd := Nat.div_add_mod num den
  have hm := Nat.mod_lt num (Nat.pos_of_ne_zero h)
  have low : 2 * (num / den) * den ≤ 2 * num := by
    rw [Nat.mul_assoc, Nat.mul_comm (num / den)]
    omega
  have high : den ≤ 2 * (num % den) → 2 * (num / den + 1) * den ≤ 2 * num + den := by
    intro hr
    have e : 2 * (num / den + 1) * den = 2 * (den * (num / den)) + 2 * den := by
      rw [Nat.mul_assoc, Nat.add_mul, Nat.mul_comm (num / den), Nat.one_mul, Nat.mul_add]
    omega
  unfold roundDiv
  dsimp only
  split
  · omega
  · split
    · exact high (by omega)
    · rcases Nat.mod_two_eq_zero_or_one (num / den) with e | e
      · rw [e, Nat.add_zero]
        omega
      · rw [e]
        exact high (by omega)

end SourceAudit
