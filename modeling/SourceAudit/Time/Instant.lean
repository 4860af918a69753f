import SourceAudit.Text.Basic

/-!
# Points in time

An instant counts seconds from the beginning of 1970 in universal time. Its date is found by days:
the Gregorian calendar repeats every 400 years, an era, and an era's years are counted from March
so that the leap day is the last day of its year. Nanoseconds beyond a second mean a leap second,
the sixty-first of its minute.
-/

namespace SourceAudit

/-! ## Algorithm -/

structure Date where
  year : Int
  month : Nat
  day : Nat
deriving DecidableEq

/-- Days in 400 years. -/
def daysPerEra : Int := 146097

/-- The full years that have gone by on a day of an era. Every fourth year has a day more, but not
every hundredth. -/
def yearOfEra (day : Nat) : Nat := (day - day / 1460 + day / 36524 - day / 146096) / 365

/-- The days of an era before one of its years. -/
def daysBeforeYear (year : Nat) : Nat := 365 * year + year / 4 - year / 100

/-- The date of a day counted from the first of January 1970. -/
def Date.ofDays (days : Int) : Date :=
  let sinceMarch := days + 719468
  let dayOfEra := (sinceMarch % daysPerEra).toNat
  let year := yearOfEra dayOfEra
  let dayOfYear := dayOfEra - daysBeforeYear year
  let monthFromMarch := (5 * dayOfYear + 2) / 153
  let month := if monthFromMarch < 10 then monthFromMarch + 3 else monthFromMarch - 9
  { year := sinceMarch / daysPerEra * 400 + year + if month ≤ 2 then 1 else 0
    month := month
    day := dayOfYear - (153 * monthFromMarch + 2) / 5 + 1 }

structure Instant where
  seconds : Int
  nanoseconds : Nat
deriving DecidableEq

namespace Instant

def date (t : Instant) : Date := .ofDays (t.seconds / 86400)

/-- The seconds that have gone by on the day. -/
def secondOfDay (t : Instant) : Nat := (t.seconds % 86400).toNat

end Instant

/-- A number in two digits. -/
def twoDigits (n : Nat) : Text := Text.padStart 2 '0' (Text.ofNat n)

/-- A year has four digits at least, and a sign unless it lies between 0 and 9999. -/
def yearText (year : Int) : Text :=
  let digits := Text.padStart 4 '0' (Text.ofNat year.natAbs)
  if year < 0 then '-' :: digits else if 9999 < year then '+' :: digits else digits

def Date.text (d : Date) : Text :=
  yearText d.year ++ "-" ++ twoDigits d.month ++ "-" ++ twoDigits d.day

namespace Instant

/-- Date and time of day without fractions, as in `1970-01-01T00:00:00`. -/
def clockText (t : Instant) : Text :=
  let s := t.secondOfDay
  t.date.text ++ "T" ++ twoDigits (s / 3600) ++ ":" ++ twoDigits (s / 60 % 60) ++ ":" ++
    twoDigits (s % 60 + t.nanoseconds / 1000000000)

/-- The fraction of a second in three, six or nine digits, as many as it takes. -/
def fractionText (t : Instant) : Text :=
  let n := t.nanoseconds % 1000000000
  if n = 0 then []
  else if n % 1000000 = 0 then '.' :: Text.padStart 3 '0' (Text.ofNat (n / 1000000))
  else if n % 1000 = 0 then '.' :: Text.padStart 6 '0' (Text.ofNat (n / 1000))
  else '.' :: Text.padStart 9 '0' (Text.ofNat n)

end Instant

/-- The two ways in which a report says when it was made. -/
structure Timestamp where
  /-- To the second, for people. -/
  plain : Text
  /-- With all digits there are and the distance from universal time, for machines. -/
  exact : Text
deriving DecidableEq

def Instant.timestamp (t : Instant) : Timestamp where
  plain := t.clockText ++ "Z"
  exact := t.clockText ++ t.fractionText ++ "+00:00"

/-! ## Examples -/

example : (Instant.mk 0 0).timestamp =
    ⟨"1970-01-01T00:00:00Z", "1970-01-01T00:00:00+00:00"⟩ := by decide +kernel

example : (Instant.mk (-1) 120000000).timestamp.exact = "1969-12-31T23:59:59.120+00:00" := by
  decide +kernel

example : (Date.ofDays 11016).text = "2000-02-29" := by decide +kernel

example : (Instant.mk 94694399 1500000000).timestamp.exact =
    "1972-12-31T23:59:60.500+00:00" := by decide +kernel

example : (Instant.mk 253402300800 0).timestamp.plain = "+10000-01-01T00:00:00Z" := by
  decide +kernel

end SourceAudit
