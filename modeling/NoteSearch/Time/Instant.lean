import NoteSearch.Decimal.Digits

/-!
# Points in time

An instant is a number of seconds since the start of 1970 in universal time, which may be
negative, and nanoseconds within that second. In the last second of a minute there may be up to two
seconds of nanoseconds: those beyond the first belong to a leap second. Its date is counted in the
proleptic Gregorian calendar, through eras of 400 years.
-/
namespace NoteSearch.Time

/-- A point in time. -/
structure Instant where
  seconds : Int := 0
  nanos : Nat := 0
  deriving Repr, DecidableEq, Inhabited

/-- Earlier instants come first. -/
def Instant.order (a b : Instant) : Ordering :=
  (compare a.seconds b.seconds).then (compare a.nanos b.nanos)

/-- How many seconds the clocks of a place are ahead of universal time at an instant. -/
abbrev Zone := Instant → Int

/-- A day of the calendar. -/
structure Day where
  year : Int
  month : Nat
  day : Nat
  deriving Repr, DecidableEq

/-- The day that lies the given number of days after the first of January 1970. Days of an era
are counted from the first of March, so that a leap day ends its year. -/
def Day.ofCount (count : Int) : Day :=
  let shifted := count + 719468
  let era := Int.fdiv shifted 146097
  let dayOfEra := (shifted - era * 146097).toNat
  let yearOfEra := (dayOfEra - dayOfEra / 1460 + dayOfEra / 36524 - dayOfEra / 146096) / 365
  let dayOfYear := dayOfEra - (365 * yearOfEra + yearOfEra / 4 - yearOfEra / 100)
  let fromMarch := (5 * dayOfYear + 2) / 153
  let month := if fromMarch < 10 then fromMarch + 3 else fromMarch - 9
  { year := yearOfEra + era * 400 + (if month ≤ 2 then 1 else 0)
    month
    day := dayOfYear - (153 * fromMarch + 2) / 5 + 1 }

namespace Instant

/-- The day on which the instant falls. -/
def day (t : Instant) : Day := Day.ofCount (Int.fdiv t.seconds 86400)

/-- The seconds since the start of that day. -/
def secondOfDay (t : Instant) : Nat := (Int.fmod t.seconds 86400).toNat

end Instant

open Decimal in
/-- A year of four digits, with a sign outside the years 0 to 9999. -/
def yearText (year : Int) : List Char :=
  if 0 ≤ year ∧ year ≤ 9999 then padded 4 year.toNat
  else (if year < 0 then '-' else '+') :: padded 4 year.natAbs

open Decimal in
/-- Year, month and day, with hyphens between. -/
def Day.text (d : Day) : List Char :=
  yearText d.year ++ '-' :: padded 2 d.month ++ '-' :: padded 2 d.day

namespace Instant
open Decimal

/-- Hour and minute, with a colon between. -/
def minuteText (t : Instant) : List Char :=
  padded 2 (t.secondOfDay / 3600) ++ ':' :: padded 2 (t.secondOfDay / 60 % 60)

/-- Date and time to the minute, such as `1970-01-01 00:00`. -/
def shortText (t : Instant) : String :=
  String.ofList (t.day.text ++ ' ' :: t.minuteText)

/-- The instant that has the date and time in universal time which this one has in a zone. -/
def inZone (zone : Zone) (t : Instant) : Instant := { t with seconds := t.seconds + zone t }

/-- The fraction of a second: none, or 3, 6 or 9 digits, the fewest that are exact. -/
def fractionText (nanos : Nat) : List Char :=
  if nanos = 0 then []
  else if nanos % 1000000 = 0 then '.' :: padded 3 (nanos / 1000000)
  else if nanos % 1000 = 0 then '.' :: padded 6 (nanos / 1000)
  else '.' :: padded 9 nanos

/-- How many nanoseconds a second has. -/
def nanosPerSecond : Nat := 1000000000

/-- Second and fraction. A leap second is the sixtieth of its minute. -/
def secondText (t : Instant) : List Char :=
  padded 2 (t.secondOfDay % 60 + t.nanos / nanosPerSecond) ++
    fractionText (t.nanos % nanosPerSecond)

/-- The date and time of the interchange format, in universal time. -/
def fullText (t : Instant) : String :=
  String.ofList (t.day.text ++ 'T' :: t.minuteText ++ ':' :: t.secondText ++ ['Z'])

/-- The instant without a leap second: the nanoseconds beyond a second go into the next one. -/
def carried (t : Instant) : Instant where
  seconds := t.seconds + (t.nanos / nanosPerSecond : Nat)
  nanos := t.nanos % nanosPerSecond

end Instant
end NoteSearch.Time
