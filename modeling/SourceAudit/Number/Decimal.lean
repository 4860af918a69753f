import SourceAudit.Number.Rounding

/-!
# Decimal numerals

A numeral is digits with at most one point among or beside them, and perhaps an exponent. Read as
a double it is the nearest one.

    readNat? (Text.ofNat n) = some n                                             (readNat?_ofNat)
-/

namespace SourceAudit.Decimal

/-! ## Algorithm -/

def digitValue (c : Char) : Nat := c.toNat - '0'.toNat

/-- The number that a row of digits denotes. -/
def ofDigits (t : Text) : Nat := t.foldl (fun n c => 10 * n + digitValue c) 0

/-- A natural number: one digit or more and nothing else. -/
def readNat? (t : Text) : Option Nat :=
  if t.isEmpty then none else if t.all Char.isDigit then some (ofDigits t) else none

/-- A numeral in parts: its digits without the point, and the power of ten of the last one. -/
structure Numeral where
  digits : Text
  scale : Int

/-- An optional sign and what follows it. -/
def splitSign : Text → Bool × Text
  | '-' :: rest => (true, rest)
  | '+' :: rest => (false, rest)
  | rest => (false, rest)

/-- The exponent at the end of a numeral; without one it is zero. -/
def readExponent? : Text → Option Int
  | [] => some 0
  | c :: rest =>
    if c = 'e' ∨ c = 'E' then
      let (negative, digits) := splitSign rest
      (readNat? digits).map fun n => if negative then -(n : Int) else n
    else none

/-- Digits, point, digits, exponent; there is a digit before or behind the point. -/
def readNumeral? (t : Text) : Option Numeral :=
  let whole := t.takeWhile Char.isDigit
  let (part, rest) :=
    match t.dropWhile Char.isDigit with
    | '.' :: rest => (rest.takeWhile Char.isDigit, rest.dropWhile Char.isDigit)
    | rest => ([], rest)
  if whole.isEmpty && part.isEmpty then none
  else (readExponent? rest).map fun e => ⟨whole ++ part, e - part.length⟩

/-- The double nearest to a numeral. -/
def Numeral.toBinary64 (negative : Bool) (n : Numeral) : Binary64 :=
  Binary64.ofDecimal negative (ofDigits n.digits) n.scale

/-- A double in words or digits, with an optional sign. Case does not matter in the words. -/
def readBinary64? (t : Text) : Option Binary64 :=
  let (negative, rest) := splitSign t
  let word := rest.map Char.toLower
  if word = "nan" then some .nan
  else if word = "inf" ∨ word = "infinity" then some (.infinity negative)
  else (readNumeral? rest).map (Numeral.toBinary64 negative)

/-! ## Lemmas -/

theorem readNat?_ofNat (n : Nat) : readNat? (Text.ofNat n) = some n := by
  have hne : (Text.ofNat n).isEmpty = false := List.isEmpty_eq_false_iff.2 Nat.toDigits_ne_nil
  have hd : (Text.ofNat n).all Char.isDigit = true :=
    List.all_eq_true.2 fun c hc => Nat.isDigit_of_mem_toDigits (by decide) (by decide) hc
  rw [readNat?, hne, hd]
  exact congrArg some Nat.ofDigitChars_ten_toDigits

end SourceAudit.Decimal
