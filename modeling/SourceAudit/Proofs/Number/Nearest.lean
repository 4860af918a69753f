import SourceAudit.Number.Rounding

/-!
# The nearest double

A quotient of natural numbers that is small enough for a finite double is rounded to the double
nearest to it. Where two are equally near the one with the even fraction is taken, so there is one
such double only.

    num < twoTo 1023 * den → (ofRatio false num den).IsNearest num den         (isNearest_ofRatio)
    digits < twoTo 1023 * tenTo places →
      (ofDecimal false digits (-places)).IsNearest digits (tenTo places)     (isNearest_ofDecimal)
    x.IsNearest num den → y.IsNearest num den → x = y                        (IsNearest.unique)
-/

namespace SourceAudit

/-! ## Whole numbers -/

theorem twoTo_add (m n : Nat) : twoTo (m + n) = twoTo m * twoTo n := Nat.pow_add 2 m n

theorem twoTo_le {m n : Nat} (h : m ≤ n) : twoTo m ≤ twoTo n :=
  Nat.pow_le_pow_right (by decide) h

theorem tenTo_add (m n : Nat) : tenTo (m + n) = tenTo m * tenTo n := Nat.pow_add 10 m n

theorem tenTo_le {m n : Nat} (h : m ≤ n) : tenTo m ≤ tenTo n :=
  Nat.pow_le_pow_right (by decide) h

theorem log2_lt_of_lt_twoTo {n k : Nat} (hn : n ≠ 0) (h : n < twoTo k) : n.log2 < k :=
  (Nat.log2_lt hn).2 h

/-- How far two natural numbers are from each other. -/
def gap (m n : Nat) : Nat := (m - n) + (n - m)

theorem div_le_roundDiv (num den : Nat) : num / den ≤ roundDiv num den := by
  unfold roundDiv
  dsimp only
  split
  · exact Nat.le_refl _
  · split <;> omega

theorem roundDiv_le (num den : Nat) : roundDiv num den ≤ num / den + 1 := by
  unfold roundDiv
  dsimp only
  split
  · omega
  · split <;> omega

/-- Different multiples of a number lie at least that number apart. -/
theorem mul_add_le_of_lt {k r : Nat} (h : k < r) (den : Nat) : k * den + den ≤ r * den := by
  rw [← Nat.succ_mul]
  exact Nat.mul_le_mul_right den h

theorem gap_roundDiv_le {den : Nat} (h : den ≠ 0) (num k : Nat) :
    gap (roundDiv num den * den) num ≤ gap (k * den) num := by
  have hupper : 2 * num ≤ (2 * roundDiv num den + 1) * den := roundDiv_upper h
  have hlower : 2 * roundDiv num den * den ≤ 2 * num + den := roundDiv_lower h
  rw [Nat.add_mul, Nat.one_mul, Nat.mul_assoc] at hupper
  rw [Nat.mul_assoc] at hlower
  unfold gap
  rcases Nat.lt_trichotomy k (roundDiv num den) with hk | hk | hk
  · have hapart := mul_add_le_of_lt hk den
    omega
  · exact Nat.le_of_eq (by rw [hk])
  · have hapart := mul_add_le_of_lt hk den
    omega

/-- A number has one multiple of another that is less than half of it away. -/
theorem eq_of_gap_eq {num den k r : Nat} (hgap : gap (k * den) num = gap (r * den) num)
    (hnear : 2 * gap (r * den) num < den) : k = r := by
  unfold gap at hgap hnear
  rcases Nat.lt_trichotomy k r with hk | hk | hk
  · have hapart := mul_add_le_of_lt hk den
    omega
  · exact hk
  · have hapart := mul_add_le_of_lt hk den
    omega

/-- Of two whole numbers that are equally near the even one is taken. -/
theorem roundDiv_even {num den k : Nat} (h : den ≠ 0) (hne : k ≠ roundDiv num den)
    (hgap : gap (k * den) num = gap (roundDiv num den * den) num) : roundDiv num den % 2 = 0 := by
  have hdiv : num / den * den + num % den = num := Nat.div_add_mod' num den
  have hmod : num % den < den := Nat.mod_lt num (Nat.pos_of_ne_zero h)
  -- unless it is a tie, what is taken is less than half of `den` away
  unfold roundDiv at hne hgap ⊢
  dsimp only at hne hgap ⊢
  split at hne
  · next hlow =>
    rw [if_pos hlow] at hgap
    refine absurd (eq_of_gap_eq hgap ?_) hne
    unfold gap
    omega
  · next hlow =>
    split at hne
    · next hhigh =>
      rw [if_neg hlow, if_pos hhigh] at hgap
      refine absurd (eq_of_gap_eq hgap ?_) hne
      have hnext : (num / den + 1) * den = num / den * den + den := Nat.succ_mul _ _
      unfold gap
      omega
    · next hhigh =>
      rw [if_neg hlow, if_neg hhigh]
      omega

namespace Binary64

/-! ## The rule -/

/-- Neither an infinity nor a NaN. -/
def IsFinite (x : Binary64) : Prop := x.exponent.val < 2047

instance (x : Binary64) : Decidable x.IsFinite :=
  inferInstanceAs (Decidable (x.exponent.val < 2047))

/-- How far a double is from `num / den`, counted in units of 2⁻¹⁰⁷⁴ and `den` parts of each. -/
def distance (x : Binary64) (num den : Nat) : Nat := (x.value * den - num * twoTo 1074).natAbs

/-- The finite double nearest to `num / den`, and of two that are equally near the even one. -/
structure IsNearest (x : Binary64) (num den : Nat) : Prop where
  positive : x.negative = false
  finite : x.IsFinite
  nearest : ∀ y : Binary64, y.IsFinite → x.distance num den ≤ y.distance num den
  even : ∀ y : Binary64, y.IsFinite → y.distance num den = x.distance num den →
    y.value = x.value ∨ x.fraction.val % 2 = 0

/-! ## Magnitudes and bits -/

/-- The bits of a double without its sign. -/
def magnitudeBits (x : Binary64) : Nat := x.exponent.val * 0x10000000000000 + x.fraction.val

/-- The magnitude that bits stand for. -/
def ofBits (bits : Nat) : Nat :=
  if bits < 0x10000000000000 then bits
  else (0x10000000000000 + bits % 0x10000000000000) * twoTo (bits / 0x10000000000000 - 1)

theorem magnitude_eq_ofBits (x : Binary64) : x.magnitude = ofBits x.magnitudeBits := by
  have hfraction := x.fraction.isLt
  unfold magnitude ofBits magnitudeBits
  by_cases h : x.exponent.val = 0
  · rw [if_pos h, if_pos (by omega)]
    omega
  · rw [if_neg h, if_neg (by omega)]
    congr 2 <;> omega

theorem magnitudeBits_ofMagnitudeBits {negative : Bool} {bits : Nat}
    (h : bits < 0x7ff0000000000000) : (ofMagnitudeBits negative bits).magnitudeBits = bits := by
  simp only [magnitudeBits, ofMagnitudeBits]
  omega

/-- A rounded fraction of fifty-three bits, with the bits that were dropped; a carry included. -/
theorem ofBits_scaled {dropped r : Nat} (hr : r ≤ 0x20000000000000)
    (h : dropped = 0 ∨ 0x10000000000000 ≤ r) :
    ofBits (dropped * 0x10000000000000 + r) = r * twoTo dropped := by
  unfold ofBits
  by_cases hlow : dropped * 0x10000000000000 + r < 0x10000000000000
  · obtain rfl : dropped = 0 := by omega
    rw [if_pos hlow, Nat.zero_mul, Nat.zero_add]
    exact (Nat.mul_one r).symm
  · rw [if_neg hlow]
    by_cases hcarry : r = 0x20000000000000
    · have hmod : (dropped * 0x10000000000000 + r) % 0x10000000000000 = 0 := by omega
      have hexponent : (dropped * 0x10000000000000 + r) / 0x10000000000000 - 1 = dropped + 1 := by
        omega
      rw [hmod, hexponent, twoTo_succ, hcarry]
      omega
    · have hmod : 0x10000000000000 + (dropped * 0x10000000000000 + r) % 0x10000000000000 = r := by
        omega
      have hexponent : (dropped * 0x10000000000000 + r) / 0x10000000000000 - 1 = dropped := by
        omega
      rw [hmod, hexponent]

theorem ofBits_lt_succ (bits : Nat) : ofBits bits < ofBits (bits + 1) := by
  have hpos := twoTo_pos (bits / 0x10000000000000 - 1)
  unfold ofBits
  by_cases hlow : bits < 0x10000000000000
  · rw [if_pos hlow]
    by_cases hnext : bits + 1 < 0x10000000000000
    · rw [if_pos hnext]
      exact Nat.lt_succ_self bits
    · obtain rfl : bits = 0xfffffffffffff := by omega
      decide
  · rw [if_neg hlow, if_neg (by omega)]
    by_cases hcarry : bits % 0x10000000000000 = 0xfffffffffffff
    · have hmod : (bits + 1) % 0x10000000000000 = 0 := by omega
      have hexponent : (bits + 1) / 0x10000000000000 - 1 = bits / 0x10000000000000 - 1 + 1 := by
        omega
      rw [hmod, hexponent, hcarry, twoTo_succ]
      omega
    · have hmod : (bits + 1) % 0x10000000000000 = bits % 0x10000000000000 + 1 := by omega
      have hexponent : (bits + 1) / 0x10000000000000 = bits / 0x10000000000000 := by omega
      rw [hmod, hexponent]
      exact Nat.mul_lt_mul_of_pos_right (by omega) hpos

theorem ofBits_lt {a b : Nat} (h : a < b) : ofBits a < ofBits b := by
  induction h with
  | refl => exact ofBits_lt_succ a
  | step _ ih => exact Nat.lt_trans ih (ofBits_lt_succ _)

theorem magnitude_lt_of_magnitudeBits_lt {x y : Binary64}
    (h : x.magnitudeBits < y.magnitudeBits) : x.magnitude < y.magnitude := by
  rw [magnitude_eq_ofBits, magnitude_eq_ofBits]
  exact ofBits_lt h

theorem IsFinite.exponent_ne {x : Binary64} (h : x.IsFinite) : x.exponent ≠ 2047 := by
  intro he
  rw [IsFinite, he] at h
  exact absurd h (by decide)

theorem IsFinite.isNaN_eq {x : Binary64} (h : x.IsFinite) : x.isNaN = false := by
  rw [isNaN, beq_false_of_ne h.exponent_ne, Bool.false_and]

theorem IsFinite.isInfinite_eq {x : Binary64} (h : x.IsFinite) : x.isInfinite = false := by
  rw [isInfinite, beq_false_of_ne h.exponent_ne, Bool.false_and]

theorem isFinite_iff {x : Binary64} : x.IsFinite ↔ x.magnitudeBits < 0x7ff0000000000000 := by
  have hfraction := x.fraction.isLt
  unfold IsFinite magnitudeBits
  omega

theorem eq_of_magnitudeBits_eq {x y : Binary64} (hsign : x.negative = y.negative)
    (h : x.magnitudeBits = y.magnitudeBits) : x = y := by
  obtain ⟨negative, ⟨e, he⟩, ⟨f, hf⟩⟩ := x
  obtain ⟨negative', ⟨e', he'⟩, ⟨f', hf'⟩⟩ := y
  simp only [magnitudeBits] at h
  obtain rfl : e = e' := by omega
  obtain rfl : f = f' := by omega
  subst hsign
  rfl

/-- From the first double with `dropped` on, every double is a multiple of two to the `dropped`. -/
theorem exists_magnitude_eq_mul {y : Binary64} {dropped : Nat}
    (h : 0x10000000000000 * twoTo dropped ≤ y.magnitude) :
    ∃ k, y.magnitude = k * twoTo dropped := by
  have hfraction := y.fraction.isLt
  have hpos := twoTo_pos dropped
  unfold magnitude at h ⊢
  split at h
  · omega
  · next hexponent =>
    rw [if_neg hexponent]
    have hle : dropped ≤ y.exponent.val - 1 := by
      refine Nat.le_of_not_lt fun hlt => ?_
      have hsmall : twoTo (y.exponent.val - 1) * 2 ≤ twoTo dropped := by
        rw [← twoTo_succ]
        exact twoTo_le hlt
      have hproduct : (0x10000000000000 + y.fraction.val) * twoTo (y.exponent.val - 1) <
          0x20000000000000 * twoTo (y.exponent.val - 1) :=
        Nat.mul_lt_mul_of_pos_right (by omega) (twoTo_pos _)
      omega
    have hsplit : twoTo (y.exponent.val - 1) =
        twoTo (y.exponent.val - 1 - dropped) * twoTo dropped := by
      rw [← twoTo_add, Nat.sub_add_cancel hle]
    exact ⟨_, by rw [hsplit, ← Nat.mul_assoc]⟩

/-! ## Distances -/

theorem distance_of_positive {x : Binary64} (h : x.negative = false) (num den : Nat) :
    x.distance num den = gap (x.magnitude * den) (num * twoTo 1074) := by
  unfold distance value gap
  rw [h, if_neg Bool.false_ne_true, ← Int.natCast_mul, ← Int.natCast_mul]
  omega

theorem distance_of_negative {x : Binary64} (h : x.negative = true) (num den : Nat) :
    x.distance num den = x.magnitude * den + num * twoTo 1074 := by
  unfold distance value
  rw [h, if_pos rfl, Int.neg_mul, ← Int.natCast_mul, ← Int.natCast_mul]
  omega

/-- A negative double is no nearer than its absolute value. -/
theorem gap_le_distance (y : Binary64) (num den : Nat) :
    gap (y.magnitude * den) (num * twoTo 1074) ≤ y.distance num den := by
  cases h : y.negative with
  | false => exact Nat.le_of_eq (distance_of_positive h num den).symm
  | true =>
    rw [distance_of_negative h]
    unfold gap
    omega

theorem value_eq_of_magnitude_eq {x y : Binary64} (h : x.magnitude = y.magnitude)
    (hsign : x.negative = y.negative ∨ x.magnitude = 0) : x.value = y.value := by
  unfold value
  rw [← h]
  rcases hsign with hsign | hzero
  · rw [hsign]
  · rw [hzero]
    split <;> split <;> rfl

/-! ## Rounding a quotient -/

/-- The leading fifty-three bits of a number, or all of it, and how many bits are behind them. -/
theorem leading_bits {n : Nat} (h : n < twoTo 2097) :
    n < 0x20000000000000 * twoTo (n.log2 - 52) ∧
      (n.log2 - 52 = 0 ∨ 0x10000000000000 * twoTo (n.log2 - 52) ≤ n) ∧ n.log2 - 52 ≤ 2044 := by
  refine ⟨?_, ?_, ?_⟩
  · have hlt : n < twoTo (n.log2 + 1) := Nat.lt_log2_self
    have hle : twoTo (n.log2 + 1) ≤ twoTo (53 + (n.log2 - 52)) := twoTo_le (by omega)
    rw [twoTo_add 53] at hle
    exact Nat.lt_of_lt_of_le hlt hle
  · by_cases hsmall : n.log2 ≤ 52
    · exact Or.inl (Nat.sub_eq_zero_of_le hsmall)
    · have hne : n ≠ 0 := by
        rintro rfl
        exact hsmall (by decide)
      have hle : twoTo n.log2 ≤ n := Nat.log2_self_le hne
      have hsplit : twoTo n.log2 = twoTo 52 * twoTo (n.log2 - 52) := by
        rw [← twoTo_add]
        congr 1
        omega
      rw [hsplit] at hle
      exact Or.inr hle
  · by_cases hzero : n = 0
    · rw [hzero]
      decide
    · have hlt := log2_lt_of_lt_twoTo hzero h
      omega

/-- The double is `num / den`, rounded to a whole number of lots of two to the `dropped` units.
Where more than one unit is in a lot, it takes fifty-three bits to count them. -/
structure RoundedTo (x : Binary64) (num den dropped : Nat) : Prop where
  positive : x.negative = false
  finite : x.IsFinite
  bits : x.magnitudeBits =
    dropped * 0x10000000000000 + roundDiv (num * twoTo 1074) (den * twoTo dropped)
  magnitude : x.magnitude = roundDiv (num * twoTo 1074) (den * twoTo dropped) * twoTo dropped
  lots : dropped = 0 ∨ 0x10000000000000 * twoTo dropped * den ≤ num * twoTo 1074

/-- What is kept of a quotient that is not too large, and what is dropped. -/
theorem exists_dropped {units den : Nat} (hunits : units < twoTo 2097 * den) :
    ∃ dropped, (units / den).log2 - 52 = dropped ∧ dropped ≤ 2044 ∧
      roundDiv units (den * twoTo dropped) ≤ 0x20000000000000 ∧
      (dropped = 0 ∨ 0x10000000000000 ≤ roundDiv units (den * twoTo dropped)) ∧
      (dropped = 0 ∨ 0x10000000000000 * twoTo dropped * den ≤ units) := by
  have hquotient : units / den < twoTo 2097 := Nat.div_lt_of_lt_mul (by rwa [Nat.mul_comm])
  obtain ⟨hhigh, hlow, hbound⟩ := leading_bits hquotient
  generalize (units / den).log2 - 52 = dropped at hhigh hlow hbound
  have hden : units / den / twoTo dropped = units / (den * twoTo dropped) :=
    Nat.div_div_eq_div_mul _ _ _
  have hkept : units / (den * twoTo dropped) < 0x20000000000000 := by
    rw [← hden]
    exact Nat.div_lt_of_lt_mul (by rwa [Nat.mul_comm])
  refine ⟨dropped, rfl, hbound, ?_, ?_, ?_⟩
  · exact Nat.le_trans (roundDiv_le _ _) hkept
  · refine hlow.imp_right fun hle => Nat.le_trans ?_ (div_le_roundDiv _ _)
    rw [← hden]
    exact (Nat.le_div_iff_mul_le (twoTo_pos dropped)).2 hle
  · refine hlow.imp_right fun hle => ?_
    exact Nat.le_trans (Nat.mul_le_mul_right den hle) (Nat.div_mul_le_self units den)

theorem exists_roundedTo {num den : Nat} (hsmall : num < twoTo 1023 * den) :
    ∃ dropped, (ofRatio false num den).RoundedTo num den dropped := by
  have hunits : num * twoTo 1074 < twoTo 2097 * den := by
    have hsplit : twoTo 2097 = twoTo 1023 * twoTo 1074 := twoTo_add 1023 1074
    rw [hsplit, Nat.mul_right_comm]
    exact Nat.mul_lt_mul_of_pos_right hsmall (twoTo_pos 1074)
  obtain ⟨dropped, hdropped, hbound, hround, hnormal, hlots⟩ := exists_dropped hunits
  have hofRatio : ofRatio false num den = ofMagnitudeBits false
      (dropped * 0x10000000000000 + roundDiv (num * twoTo 1074) (den * twoTo dropped)) := by
    rw [← hdropped]
    rfl
  -- arithmetic would work out the power of two in it
  clear hunits
  have hbits : (ofRatio false num den).magnitudeBits =
      dropped * 0x10000000000000 + roundDiv (num * twoTo 1074) (den * twoTo dropped) := by
    rw [hofRatio]
    exact magnitudeBits_ofMagnitudeBits (by omega)
  refine ⟨dropped, rfl, isFinite_iff.2 ?_, hbits, ?_, hlots⟩
  · rw [hbits]
    omega
  · rw [magnitude_eq_ofBits, hbits]
    exact ofBits_scaled hround hnormal

namespace RoundedTo

variable {x : Binary64} {num den dropped : Nat} (hx : x.RoundedTo num den dropped) (h : den ≠ 0)

include hx

theorem distance_eq : x.distance num den =
    gap (roundDiv (num * twoTo 1074) (den * twoTo dropped) * (den * twoTo dropped))
      (num * twoTo 1074) := by
  rw [distance_of_positive hx.positive, hx.magnitude, Nat.mul_assoc, Nat.mul_comm (twoTo dropped)]

include h

/-- No number of lots is nearer. -/
theorem distance_le_gap (k : Nat) :
    x.distance num den ≤ gap (k * twoTo dropped * den) (num * twoTo 1074) := by
  have hne : den * twoTo dropped ≠ 0 := Nat.mul_ne_zero h (Nat.ne_of_gt (twoTo_pos dropped))
  rw [hx.distance_eq, Nat.mul_assoc, Nat.mul_comm (twoTo dropped)]
  exact gap_roundDiv_le hne _ k

/-- Another double is a number of lots, or it lies below all of these and further away. -/
theorem multiple_or_farther (y : Binary64) :
    (∃ k, y.magnitude = k * twoTo dropped) ∨ x.distance num den < y.distance num den := by
  by_cases hy : 0x10000000000000 * twoTo dropped ≤ y.magnitude
  · exact Or.inl (exists_magnitude_eq_mul hy)
  · rcases hx.lots with rfl | hlots
    · exact Or.inl ⟨y.magnitude, (Nat.mul_one _).symm⟩
    · have hbelow : y.magnitude * den < 0x10000000000000 * twoTo dropped * den :=
        Nat.mul_lt_mul_of_pos_right (Nat.lt_of_not_le hy) (Nat.pos_of_ne_zero h)
      have hfirst := hx.distance_le_gap h 0x10000000000000
      have hfar := gap_le_distance y num den
      refine Or.inr ?_
      generalize x.distance num den = near at hfirst ⊢
      unfold gap at hfirst hfar
      omega

theorem nearest (y : Binary64) : x.distance num den ≤ y.distance num den := by
  rcases hx.multiple_or_farther h y with ⟨k, hk⟩ | hfar
  · refine Nat.le_trans (hx.distance_le_gap h k) ?_
    rw [← hk]
    exact gap_le_distance y num den
  · exact Nat.le_of_lt hfar

/-- Where another double is equally near, it is the same number or the number of lots is even. -/
theorem even {y : Binary64} (hequal : y.distance num den = x.distance num den) :
    y.value = x.value ∨ x.fraction.val % 2 = 0 := by
  obtain ⟨k, hk⟩ :=
    (hx.multiple_or_farther h y).resolve_right fun hfar => Nat.ne_of_gt hfar hequal
  by_cases hround : k = roundDiv (num * twoTo 1074) (den * twoTo dropped)
  · have hmagnitude : y.magnitude = x.magnitude := by rw [hk, hround, hx.magnitude]
    refine Or.inl (value_eq_of_magnitude_eq hmagnitude ?_)
    cases hsign : y.negative with
    | false => exact Or.inl hx.positive.symm
    | true =>
      -- zero is as near as any double only where the quotient is rounded to zero
      have hzero := hx.distance_le_gap h 0
      rw [distance_of_negative hsign] at hequal
      rw [distance_of_positive hx.positive, ← hmagnitude] at hequal hzero
      refine Or.inr ((Nat.mul_eq_zero.1 (?_ : y.magnitude * den = 0)).resolve_right h)
      unfold gap at hzero hequal
      omega
  · have hne : den * twoTo dropped ≠ 0 := Nat.mul_ne_zero h (Nat.ne_of_gt (twoTo_pos dropped))
    have hle : gap (k * twoTo dropped * den) (num * twoTo 1074) ≤ x.distance num den := by
      rw [← hk, ← hequal]
      exact gap_le_distance y num den
    have htie := Nat.le_antisymm hle (hx.distance_le_gap h k)
    rw [hx.distance_eq, Nat.mul_assoc k, Nat.mul_comm (twoTo dropped)] at htie
    have heven := roundDiv_even hne hround htie
    have hfraction : x.fraction.val % 2 = x.magnitudeBits % 2 := by
      unfold magnitudeBits
      omega
    rw [hfraction, hx.bits]
    exact Or.inr (by omega)

end RoundedTo

/-- A small quotient is rounded to the nearest double. -/
theorem isNearest_ofRatio {num den : Nat} (hsmall : num < twoTo 1023 * den) :
    (ofRatio false num den).IsNearest num den := by
  have h : den ≠ 0 := by
    rintro rfl
    rw [Nat.mul_zero] at hsmall
    exact Nat.not_lt_zero num hsmall
  obtain ⟨dropped, hx⟩ := exists_roundedTo hsmall
  exact ⟨hx.positive, hx.finite, fun y _ => hx.nearest h y, fun y _ => hx.even h⟩

/-- Of two doubles that are equally near the one with the smaller magnitude is not nearest: a third
one lies between them, or the even one of them is odd. -/
theorem IsNearest.not_magnitudeBits_lt {x y : Binary64} {num den : Nat} (h : den ≠ 0)
    (hx : x.IsNearest num den) (hy : y.IsNearest num den)
    (hequal : y.distance num den = x.distance num den) : ¬ x.magnitudeBits < y.magnitudeBits := by
  intro hlt
  have hfinite := isFinite_iff.1 hy.finite
  have hvalue : x.value ≠ y.value := by
    have hmagnitude := magnitude_lt_of_magnitudeBits_lt hlt
    unfold value
    rw [hx.positive, hy.positive, if_neg Bool.false_ne_true, if_neg Bool.false_ne_true]
    omega
  have hnext : x.magnitudeBits + 1 ≠ y.magnitudeBits := by
    have hevenX := (hx.even y hy.finite hequal).resolve_left (Ne.symm hvalue)
    have hevenY := (hy.even x hx.finite hequal.symm).resolve_left hvalue
    unfold magnitudeBits
    omega
  obtain ⟨middle, hpositive, hbits⟩ :
      ∃ z : Binary64, z.negative = false ∧ z.magnitudeBits = x.magnitudeBits + 1 :=
    ⟨ofMagnitudeBits false (x.magnitudeBits + 1), rfl, magnitudeBits_ofMagnitudeBits (by omega)⟩
  have hpos : 0 < den := Nat.pos_of_ne_zero h
  have hlower : x.magnitude * den < middle.magnitude * den :=
    Nat.mul_lt_mul_of_pos_right (magnitude_lt_of_magnitudeBits_lt (by omega)) hpos
  have hupper : middle.magnitude * den < y.magnitude * den :=
    Nat.mul_lt_mul_of_pos_right (magnitude_lt_of_magnitudeBits_lt (by omega)) hpos
  have hmiddle := hx.nearest middle (isFinite_iff.2 (by omega))
  rw [distance_of_positive hx.positive, distance_of_positive hy.positive] at hequal
  rw [distance_of_positive hx.positive, distance_of_positive hpositive] at hmiddle
  unfold gap at hequal hmiddle
  omega

theorem IsNearest.unique {x y : Binary64} {num den : Nat} (h : den ≠ 0) (hx : x.IsNearest num den)
    (hy : y.IsNearest num den) : x = y := by
  have hequal : y.distance num den = x.distance num den :=
    Nat.le_antisymm (hy.nearest x hx.finite) (hx.nearest y hy.finite)
  refine eq_of_magnitudeBits_eq (hx.positive.trans hy.positive.symm) ?_
  rcases Nat.lt_trichotomy x.magnitudeBits y.magnitudeBits with hlt | heq | hgt
  · exact absurd hlt (hx.not_magnitudeBits_lt h hy hequal)
  · exact heq
  · exact absurd hgt (hy.not_magnitudeBits_lt h hx hequal.symm)

/-! ## Rounding a decimal fraction -/

/-- A quotient of at most half a unit is rounded to zero. -/
theorem isNearest_zero {num den : Nat} (h : 2 * (num * twoTo 1074) ≤ den) :
    (zero false).IsNearest num den := by
  have hzero : (zero false).distance num den = num * twoTo 1074 := by
    have hmagnitude : (zero false).magnitude = 0 := rfl
    rw [distance_of_positive rfl, hmagnitude, Nat.zero_mul]
    unfold gap
    omega
  have hfinite : (zero false).IsFinite := by
    unfold IsFinite
    decide
  refine ⟨rfl, hfinite, fun y _ => ?_, fun _ _ _ => Or.inr rfl⟩
  refine Nat.le_trans ?_ (gap_le_distance y num den)
  rw [hzero]
  rcases Nat.eq_zero_or_pos y.magnitude with hy | hy
  · rw [hy, Nat.zero_mul]
    unfold gap
    omega
  · have hle : 1 * den ≤ y.magnitude * den := Nat.mul_le_mul_right den hy
    unfold gap
    omega

theorem length_ofNat_le_iff {n k : Nat} (hk : 0 < k) :
    (Text.ofNat n).length ≤ k ↔ n < tenTo k := Nat.length_toDigits_le_iff (by decide) hk

/-- A decimal fraction that is small enough is read as the nearest double, also where its size alone
tells that it is next to nothing. -/
theorem isNearest_ofDecimal {digits places : Nat} (h : digits < twoTo 1023 * tenTo places) :
    (ofDecimal false digits (-(places : Int))).IsNearest digits (tenTo places) := by
  have hlength : 0 < (Text.ofNat digits).length := List.length_pos_iff.2 Nat.toDigits_ne_nil
  have hdigits : digits < tenTo (Text.ofNat digits).length :=
    (length_ofNat_le_iff hlength).1 (Nat.le_refl _)
  have hsize : (Text.ofNat digits).length ≤ 308 + places := by
    refine (length_ofNat_le_iff (Nat.add_pos_left (by decide) places)).2 ?_
    have hbound : twoTo 1023 ≤ tenTo 308 := by decide +kernel
    rw [tenTo_add]
    exact Nat.lt_of_lt_of_le h (Nat.mul_le_mul_right _ hbound)
  unfold ofDecimal
  dsimp only
  by_cases hzero : digits = 0
  · rw [if_pos hzero]
    refine isNearest_zero ?_
    rw [hzero, Nat.zero_mul]
    exact Nat.zero_le _
  · rw [if_neg hzero, if_neg (by omega)]
    by_cases htiny : ((Text.ofNat digits).length : Int) + -(places : Int) < -330
    · rw [if_pos htiny]
      refine isNearest_zero ?_
      have hhalf : 2 * twoTo 1074 ≤ tenTo 331 := by decide +kernel
      have hle : tenTo ((Text.ofNat digits).length + 331) ≤ tenTo places := tenTo_le (by omega)
      rw [tenTo_add] at hle
      generalize twoTo 1074 = unit at hhalf ⊢
      calc 2 * (digits * unit) = digits * (2 * unit) := Nat.mul_left_comm _ _ _
        _ ≤ tenTo (Text.ofNat digits).length * tenTo 331 :=
          Nat.mul_le_mul (Nat.le_of_lt hdigits) hhalf
        _ ≤ tenTo places := hle
    · rw [if_neg htiny]
      rcases Nat.eq_zero_or_pos places with rfl | hplaces
      · have hone : tenTo 0 = 1 := rfl
        have hscale : (-((0 : Nat) : Int)).toNat = 0 := rfl
        rw [hone] at h
        rw [if_pos (by decide), hscale, hone, Nat.mul_one]
        exact isNearest_ofRatio h
      · rw [if_neg (by omega), Int.neg_neg, Int.toNat_natCast]
        exact isNearest_ofRatio h

end Binary64

end SourceAudit
