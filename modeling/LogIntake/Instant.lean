import LogIntake.Text.Digits

/-!
# Instants

An instant is a count of seconds since the start of 1970 in UTC, and of
nanoseconds within the second. It is written as date and time of the proleptic
Gregorian calendar, with as many digits of the second's fraction as it needs in
groups of three.
-/

namespace LogIntake

/-- An instant; the nanoseconds are fewer than a second. -/
structure Instant where
  seconds : Int
  nanoseconds : Nat
deriving DecidableEq, Repr

namespace Instant

/-! ## Milliseconds -/

/-- The instant some milliseconds after the start of 1970. -/
def ofMillis (millis : Int) : Instant :=
  ⟨millis / 1000, (millis % 1000).toNat * 1000000⟩

/-- The whole milliseconds since the start of 1970. -/
def millis (instant : Instant) : Int :=
  instant.seconds * 1000 + (instant.nanoseconds / 1000000 : Nat)

/-- The milliseconds of the last instant of the calendar, at the end of the year
262142. -/
def maxMillis : Int :=
  8210266876799999

/-- The instant of the calendar that lies the given milliseconds after the start
of 1970. -/
def ofMillis? (millis : Int) : Option Instant :=
  if millis ≤ maxMillis then some (ofMillis millis) else none

/-! ## Date and time -/

/-- A date of the proleptic Gregorian calendar. -/
structure Date where
  year : Int
  month : Nat
  day : Nat
deriving DecidableEq, Repr

/-- The number of days in 400 years. -/
def daysPerEra : Int :=
  146097

/-- The date some days after the start of 1970. Years are counted from March on,
so that the leap day is the last day of a year, in eras of 400 years. -/
def Date.ofDays (days : Int) : Date :=
  let shifted := days + 719468
  let era := shifted / daysPerEra
  let dayOfEra := (shifted % daysPerEra).toNat
  let yearOfEra :=
    (dayOfEra - dayOfEra / 1460 + dayOfEra / 36524 - dayOfEra / 146096) / 365
  let dayOfYear := dayOfEra - (365 * yearOfEra + yearOfEra / 4 - yearOfEra / 100)
  let shiftedMonth := (5 * dayOfYear + 2) / 153
  let day := dayOfYear - (153 * shiftedMonth + 2) / 5 + 1
  let month := if shiftedMonth < 10 then shiftedMonth + 3 else shiftedMonth - 9
  let year : Int := era * 400 + yearOfEra
  ⟨if month ≤ 2 then year + 1 else year, month, day⟩

/-- A number with leading zeros. -/
def padded (width n : Nat) : Text :=
  Text.padZeros width (Text.ofNat n)

/-- A year has four digits; one outside the first ten thousand has a sign too. -/
def yearText (year : Int) : Text :=
  if 0 ≤ year ∧ year ≤ 9999 then padded 4 year.toNat
  else (if year < 0 then '-' else '+') :: padded 4 year.natAbs

/-- The fraction of a second in none, three, six or nine digits. -/
def fractionText (nanoseconds : Nat) : Text :=
  if nanoseconds = 0 then []
  else if nanoseconds % 1000000 = 0 then '.' :: padded 3 (nanoseconds / 1000000)
  else if nanoseconds % 1000 = 0 then '.' :: padded 6 (nanoseconds / 1000)
  else '.' :: padded 9 nanoseconds

/-- Date and time in UTC. -/
def toText (instant : Instant) : Text :=
  let date := Date.ofDays (instant.seconds / 86400)
  let second := (instant.seconds % 86400).toNat
  Text.concat
    [yearText date.year, ['-'], padded 2 date.month, ['-'], padded 2 date.day, ['T'],
      padded 2 (second / 3600), [':'], padded 2 (second / 60 % 60), [':'],
      padded 2 (second % 60), fractionText instant.nanoseconds, ['Z']]

end Instant

end LogIntake
