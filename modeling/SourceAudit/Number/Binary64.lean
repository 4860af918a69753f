import SourceAudit.Number.Power

/-!
# Binary64 numbers

An IEEE 754 double is a sign, an exponent of eleven bits and a fraction of fifty-two. Every
number but a NaN has an exact value, counted here in units of 2⁻¹⁰⁷⁴, the least positive double;
the infinities count as the first power of two that has no double.

    x ≤ y → y ≤ z → x ≤ z                                                         (le_trans)
    x ≤ y ↔ neither is a NaN and x.value ≤ y.value                                (le_iff)
-/

namespace SourceAudit

structure Binary64 where
  negative : Bool
  exponent : Fin 2048
  fraction : Fin 0x10000000000000
deriving DecidableEq

namespace Binary64

/-! ## Algorithm -/

def isNaN (x : Binary64) : Bool := x.exponent == 2047 && x.fraction != 0

def isInfinite (x : Binary64) : Bool := x.exponent == 2047 && x.fraction == 0

/-- The distance from zero, in units of 2⁻¹⁰⁷⁴. -/
def magnitude (x : Binary64) : Nat :=
  if x.exponent.val = 0 then x.fraction.val
  else (0x10000000000000 + x.fraction.val) * twoTo (x.exponent.val - 1)

/-- The signed value, in units of 2⁻¹⁰⁷⁴. -/
def value (x : Binary64) : Int :=
  if x.negative then -(x.magnitude : Int) else x.magnitude

instance : LE Binary64 where
  le x y := x.isNaN = false ∧ y.isNaN = false ∧ x.value ≤ y.value

instance : LT Binary64 where
  lt x y := x.isNaN = false ∧ y.isNaN = false ∧ x.value < y.value

instance (x y : Binary64) : Decidable (x ≤ y) :=
  inferInstanceAs (Decidable (x.isNaN = false ∧ y.isNaN = false ∧ x.value ≤ y.value))

instance (x y : Binary64) : Decidable (x < y) :=
  inferInstanceAs (Decidable (x.isNaN = false ∧ y.isNaN = false ∧ x.value < y.value))

/-- The sixty-four bits as one number. -/
def toBits (x : Binary64) : Nat :=
  (if x.negative then 0x8000000000000000 else 0) + x.exponent.val * 0x10000000000000 +
    x.fraction.val

/-- The number whose exponent and fraction are these bits; from infinity's bits on, infinity. -/
def ofMagnitudeBits (negative : Bool) (bits : Nat) : Binary64 where
  negative := negative
  exponent := ⟨min bits 0x7ff0000000000000 / 0x10000000000000, by omega⟩
  fraction := ⟨min bits 0x7ff0000000000000 % 0x10000000000000, by omega⟩

def zero (negative : Bool) : Binary64 := ⟨negative, 0, 0⟩

def infinity (negative : Bool) : Binary64 := ⟨negative, 2047, 0⟩

def nan : Binary64 := ⟨false, 2047, 0x8000000000000⟩

def hundred : Binary64 := ⟨false, 1029, 0x9000000000000⟩

/-! ## Lemmas -/

theorem le_iff {x y : Binary64} :
    x ≤ y ↔ x.isNaN = false ∧ y.isNaN = false ∧ x.value ≤ y.value := Iff.rfl

theorem lt_iff {x y : Binary64} :
    x < y ↔ x.isNaN = false ∧ y.isNaN = false ∧ x.value < y.value := Iff.rfl

theorem le_trans {x y z : Binary64} (hxy : x ≤ y) (hyz : y ≤ z) : x ≤ z :=
  ⟨hxy.1, hyz.2.1, Int.le_trans hxy.2.2 hyz.2.2⟩

theorem lt_of_lt_of_le {x y z : Binary64} (hxy : x < y) (hyz : y ≤ z) : x < z :=
  ⟨hxy.1, hyz.2.1, Int.lt_of_lt_of_le hxy.2.2 hyz.2.2⟩

theorem lt_of_le_of_lt {x y z : Binary64} (hxy : x ≤ y) (hyz : y < z) : x < z :=
  ⟨hxy.1, hyz.2.1, Int.lt_of_le_of_lt hxy.2.2 hyz.2.2⟩

theorem le_of_lt {x y : Binary64} (h : x < y) : x ≤ y :=
  ⟨h.1, h.2.1, Int.le_of_lt h.2.2⟩

end Binary64

end SourceAudit
