import SourceAudit.Number.Decimal
import SourceAudit.Toml.Value

/-!
# TOML scalars without quotes

Booleans, integers, floats, dates and times: what a run of letters, digits and the characters
`+ - . : _` means. Underscores may stand between two digits. A decimal number has no needless zero
in front, and a date is a day that there is.
-/

namespace SourceAudit.Toml

/-! ## Algorithm -/

/-- A digit's value in a base of at most sixteen. -/
def digitIn? (base : Nat) (c : Char) : Option Nat := (Text.hexValue? c).filter (· < base)

/-- Digits in groups with single underscores between them. -/
def digitGroups? (base : Nat) (t : Text) : Option Text :=
  let groups := Text.splitOn '_' t
  if groups.all fun g => !g.isEmpty && g.all fun c => (digitIn? base c).isSome then
    some groups.flatten
  else none

/-- A number without a sign in the given base. -/
def readBase? (base : Nat) (t : Text) : Option Nat := do
  let digits ← digitGroups? base t
  return digits.foldl (fun n c => base * n + (digitIn? base c).getD 0) 0

/-- The whole part of a decimal number: no zero in front of another digit. -/
def readWhole? (t : Text) : Option Text := do
  let digits ← digitGroups? 10 t
  if digits.length ≠ 1 ∧ digits.head? = some '0' then none else some digits

def readInteger? (t : Text) : Option Int :=
  match t with
  | '0' :: 'x' :: rest => (readBase? 16 rest).map Int.ofNat
  | '0' :: 'o' :: rest => (readBase? 8 rest).map Int.ofNat
  | '0' :: 'b' :: rest => (readBase? 2 rest).map Int.ofNat
  | _ => do
    let (negative, rest) := Decimal.splitSign t
    let n := Decimal.ofDigits (← readWhole? rest)
    return if negative then -(n : Int) else n

/-- The exponent of a float. Without one it is zero. -/
def readExponent? : Text → Option Int
  | [] => some 0
  | c :: rest =>
    if c = 'e' ∨ c = 'E' then do
      let (negative, rest) := Decimal.splitSign rest
      let n := Decimal.ofDigits (← digitGroups? 10 rest)
      return if negative then -(n : Int) else n
    else none

def isExponentMark (c : Char) : Bool := c == 'e' || c == 'E'

def readFloat? (t : Text) : Option Value := do
  let (negative, rest) := Decimal.splitSign t
  if rest = "inf" then return .float (.infinity negative)
  if rest = "nan" then return .float .nan
  let mantissa := rest.takeWhile (!isExponentMark ·)
  let exponent ← readExponent? (rest.dropWhile (!isExponentMark ·))
  let whole ← readWhole? (mantissa.takeWhile (· != '.'))
  let part ←
    match mantissa.dropWhile (· != '.') with
    | [] => some []
    | _ :: part => digitGroups? 10 part
  let x := Binary64.ofDecimal negative (Decimal.ofDigits (whole ++ part)) (exponent - part.length)
  return if x.isInfinite then .overflow else .float x

/-- Two digits with a value in a range, and what follows. -/
def takeTwo? (least most : Nat) : Text → Option (Nat × Text)
  | a :: b :: rest => do
    let n ← Decimal.readNat? [a, b]
    if least ≤ n ∧ n ≤ most then some (n, rest) else none
  | _ => none

def expect? (mark : Char) : Text → Option Text
  | c :: rest => if c = mark then some rest else none
  | [] => none

def isLeapYear (year : Nat) : Bool := year % 4 == 0 && (year % 100 != 0 || year % 400 == 0)

def daysInMonth (year month : Nat) : Nat :=
  if month = 2 then if isLeapYear year then 29 else 28
  else if month = 4 ∨ month = 6 ∨ month = 9 ∨ month = 11 then 30
  else 31

/-- Year, month and day. -/
def takeDate? (t : Text) : Option Text := do
  let (century, rest) ← takeTwo? 0 99 t
  let (year, rest) ← takeTwo? 0 99 rest
  let (month, rest) ← expect? '-' rest >>= takeTwo? 1 12
  let (_, rest) ← expect? '-' rest >>= takeTwo? 1 (daysInMonth (100 * century + year) month)
  return rest

/-- Hour and minute, and perhaps a second and a fraction of it. -/
def takeTime? (t : Text) : Option Text := do
  let (_, rest) ← takeTwo? 0 23 t
  let (_, rest) ← expect? ':' rest >>= takeTwo? 0 59
  match rest with
  | ':' :: rest =>
    match ← takeTwo? 0 60 rest with
    | (_, '.' :: rest) =>
      if rest.head?.any Char.isDigit then some (rest.dropWhile Char.isDigit) else none
    | (_, rest) => some rest
  | rest => some rest

/-- The distance from universal time. -/
def takeOffset? : Text → Option Text
  | [] => some []
  | c :: rest =>
    if c = 'Z' ∨ c = 'z' then some rest
    else if c = '+' ∨ c = '-' then do
      let (_, rest) ← takeTwo? 0 23 rest
      let (_, rest) ← expect? ':' rest >>= takeTwo? 0 59
      return rest
    else none

/-- A date, a time, or both, the date first. -/
def isMoment (t : Text) : Bool :=
  match takeDate? t with
  | none => takeTime? t == some []
  | some [] => true
  | some (c :: rest) =>
    (c == 'T' || c == 't' || c == ' ') && ((takeTime? rest).bind takeOffset? == some [])

def readScalar? (t : Text) : Option Value :=
  if t = "true" then some (.boolean true)
  else if t = "false" then some (.boolean false)
  else
    match readInteger? t with
    | some n => some (.integer n)
    | none =>
      match readFloat? t with
      | some value => some value
      | none => if isMoment t then some (.moment t) else none

end SourceAudit.Toml
