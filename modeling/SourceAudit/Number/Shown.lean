import SourceAudit.Number.Rounding

/-!
# Numbers as text

Two ways to write a double, both positional. The *shortest* text has the fewest digits that read
back as the same double: a point of the coarsest decimal grid that still has one in the interval of
reals rounding to the number, and of two such points the nearer. The *fixed* text has a given count
of decimal places, the exact value rounded, a tie to the even neighbour.
-/

namespace SourceAudit.Binary64

/-! ## Algorithm -/

/-- Four times the magnitudes halfway to the neighbours, and whether a number halfway still rounds
here. Below a power of two the neighbours are closer. -/
def roundingInterval (x : Binary64) : Nat × Nat × Bool :=
  let gap := twoTo (x.exponent.val - 1)
  let below := if x.fraction.val = 0 ∧ 1 < x.exponent.val then gap else 2 * gap
  (4 * x.magnitude - below, 4 * x.magnitude + 2 * gap, x.fraction.val % 2 == 0)

/-- The point of the grid of `10 ^ scale` that rounds to `x`, the nearer where there are two. -/
def gridPoint? (x : Binary64) (scale : Int) : Option Nat :=
  let (low, high, closed) := roundingInterval x
  let step := 4 * twoTo 1074 * tenTo scale.toNat
  let finer := tenTo (-scale).toNat
  let floor := 4 * x.magnitude * finer / step
  let inside (d : Nat) : Bool :=
    if closed then low * finer ≤ d * step && d * step ≤ high * finer
    else low * finer < d * step && d * step < high * finer
  let downIsNearer := 2 * (4 * x.magnitude * finer % step) ≤ step
  match inside floor, inside (floor + 1) with
  | true, true => some (if downIsNearer then floor else floor + 1)
  | true, false => some floor
  | false, true => some (floor + 1)
  | false, false => none

/-- The first grid with a point, from `10 ^ scale` down. -/
def coarsestFrom (x : Binary64) : Nat → Int → Nat × Int
  | 0, scale => (0, scale)
  | fuel + 1, scale =>
    match gridPoint? x scale with
    | some d => (d, scale)
    | none => coarsestFrom x fuel (scale - 1)

/-- The shortest decimal of a finite number above zero. All doubles lie between `10 ^ 309` and
`10 ^ -324`. -/
def shortestDecimal (x : Binary64) : Nat × Int := coarsestFrom x 634 309

/-- A whole number of `10 ^ -places` as a positional numeral. -/
def placed (digits places : Nat) : Text :=
  let t := Text.padStart (places + 1) '0' (Text.ofNat digits)
  if places = 0 then t else t.take (t.length - places) ++ '.' :: t.drop (t.length - places)

/-- The text of a number that is not finite, or its sign before the digits of its magnitude. -/
def signed (x : Binary64) (digits : Text) : Text :=
  if x.isNaN then "NaN"
  else (if x.negative then ['-'] else []) ++ (if x.isInfinite then ("inf" : Text) else digits)

def shortest (x : Binary64) : Text :=
  if x.magnitude = 0 then signed x "0"
  else if x.exponent.val = 2047 then signed x ""
  else
    let (digits, scale) := shortestDecimal x
    signed x (placed (digits * tenTo scale.toNat) (-scale).toNat)

def fixed (places : Nat) (x : Binary64) : Text :=
  signed x (placed (roundDiv (x.magnitude * tenTo places) (twoTo 1074)) places)

end SourceAudit.Binary64
