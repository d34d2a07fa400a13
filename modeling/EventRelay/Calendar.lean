/-!
# Instants as calendar time

An instant is a number of milliseconds since the start of 1970, UTC. Its date is found in the
calendar that starts years in March: there the leap day is the last day of a year, four hundred
years have 146097 days, and five months in a row have 153 days, so that year, month and day come
from divisions alone.

Instants outside the years -262143 to 262142 have no calendar time.
-/

namespace EventRelay.Calendar

/-- A day of the Gregorian calendar, extended to all years. -/
structure Date where
  year : Int
  month : Nat
  day : Nat
deriving DecidableEq, Repr

/-- The day so many days after 1 January 1970. -/
def Date.ofDays (days : Int) : Date :=
  -- days since 1 March of year 0
  let z := days + 719468
  let era := z / 146097
  let dayOfEra := (z % 146097).toNat
  let yearOfEra := (dayOfEra - dayOfEra / 1460 + dayOfEra / 36524 - dayOfEra / 146096) / 365
  let dayOfYear := dayOfEra - (365 * yearOfEra + yearOfEra / 4 - yearOfEra / 100)
  let marchMonth := (5 * dayOfYear + 2) / 153
  let day := dayOfYear - (153 * marchMonth + 2) / 5 + 1
  let month := if marchMonth < 10 then marchMonth + 3 else marchMonth - 9
  ⟨era * 400 + yearOfEra + (if month ≤ 2 then 1 else 0), month, day⟩

/-- Digits padded with zeros to a least width. -/
def padded (width n : Nat) : List Char :=
  let ds := Nat.toDigits 10 n
  List.replicate (width - ds.length) '0' ++ ds

/-- A year in four digits, with a sign if it needs more or lies before year zero. -/
def yearChars (y : Int) : List Char :=
  if 0 ≤ y ∧ y ≤ 9999 then padded 4 y.natAbs
  else (if y < 0 then '-' else '+') :: padded 4 y.natAbs

/-- The time of day of a number of milliseconds since midnight. -/
def timeChars (ms : Nat) : List Char :=
  padded 2 (ms / 3600000) ++ ':' :: padded 2 (ms / 60000 % 60) ++ ':' ::
    padded 2 (ms / 1000 % 60) ++ '.' :: padded 3 (ms % 1000)

/-- The date and time of an instant with milliseconds and the mark of UTC, or nothing outside the
calendar. -/
def stamp? (instant : Int) : Option (List Char) :=
  let date := Date.ofDays (instant / 86400000)
  if -262143 ≤ date.year ∧ date.year ≤ 262142 then
    some (yearChars date.year ++ '-' :: padded 2 date.month ++ '-' :: padded 2 date.day ++ 'T' ::
      timeChars (instant % 86400000).toNat ++ ['Z'])
  else none

example : (stamp? 1709294400000).map String.ofList = some "2024-03-01T12:00:00.000Z" := by
  decide +kernel

example : (stamp? (-1)).map String.ofList = some "1969-12-31T23:59:59.999Z" := by decide +kernel

end EventRelay.Calendar
