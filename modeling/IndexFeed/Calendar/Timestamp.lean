import IndexFeed.Calendar.Civil
import IndexFeed.Decimal.Integer

/-!
Points of time in universal time, to the nanosecond. A second that was inserted into the calendar is
written as a nanosecond count of a whole second or more on top of the second before it. The printed
forms are the full timestamp, the date alone, and the form used for modification times in records.
-/

namespace IndexFeed.Calendar

structure Timestamp where
  seconds : Int
  nanoseconds : Nat
  deriving Repr, DecidableEq

namespace Timestamp

def nanosecondsPerSecond : Nat := 1000000000

def secondsPerDay : Int := 86400

def firstYear : Int := -262143
def lastYear : Int := 262142

def days (t : Timestamp) : Int := t.seconds / secondsPerDay

def date (t : Timestamp) : Date := Date.ofDays t.days

def secondOfDay (t : Timestamp) : Nat := (t.seconds % secondsPerDay).toNat

def hour (t : Timestamp) : Nat := t.secondOfDay / 3600

def minute (t : Timestamp) : Nat := t.secondOfDay / 60 % 60

/-- The second of the minute, 60 during an inserted second. -/
def second (t : Timestamp) : Nat :=
  t.secondOfDay % 60 + t.nanoseconds / nanosecondsPerSecond

def fraction (t : Timestamp) : Nat := t.nanoseconds % nanosecondsPerSecond

def ofDate? (d : Date) : Option Timestamp :=
  if d.isValid ∧ firstYear ≤ d.year ∧ d.year ≤ lastYear
  then some ⟨d.toDays * secondsPerDay, 0⟩ else none

/-- Milliseconds since the start of 1970; an inserted second counts on into the next one. -/
def milliseconds (t : Timestamp) : Int :=
  t.seconds * 1000 + (t.nanoseconds / 1000000 : Nat)

def ofMilliseconds? (ms : Int) : Option Timestamp :=
  let t : Timestamp := ⟨ms / 1000, (ms % 1000).toNat * 1000000⟩
  if firstYear ≤ t.date.year ∧ t.date.year ≤ lastYear then some t else none

end Timestamp

/-- Four digits; a year that needs more, or lies before year zero, carries its sign. -/
def yearText (year : Int) : String :=
  if 0 ≤ year ∧ year ≤ 9999 then Decimal.padded 4 year.toNat
  else (if year < 0 then "-" else "+") ++ Decimal.padded 4 year.natAbs

def Date.text (d : Date) : String :=
  yearText d.year ++ "-" ++ Decimal.padded 2 d.month ++ "-" ++ Decimal.padded 2 d.day

namespace Timestamp

def clockText (t : Timestamp) : String :=
  Decimal.padded 2 t.hour ++ ":" ++ Decimal.padded 2 t.minute ++ ":" ++ Decimal.padded 2 t.second

/-- Three, six or nine places, the fewest that are exact, and nothing for a whole second. -/
def fractionText (t : Timestamp) : String :=
  let nanos := t.fraction
  if nanos == 0 then ""
  else if nanos % 1000000 == 0 then "." ++ Decimal.padded 3 (nanos / 1000000)
  else if nanos % 1000 == 0 then "." ++ Decimal.padded 6 (nanos / 1000)
  else "." ++ Decimal.padded 9 nanos

/-- The full form, such as `2010-02-03T04:05:06.500+00:00`. -/
def text (t : Timestamp) : String :=
  t.date.text ++ "T" ++ t.clockText ++ t.fractionText ++ "+00:00"

/-- The form of a modification time, such as `Wed, 03 Feb 2010 04:05:06 GMT`. -/
def modificationText (t : Timestamp) : String :=
  weekdayNames.getD (weekday t.days) "" ++ ", " ++ Decimal.padded 2 t.date.day ++ " "
    ++ monthNames.getD (t.date.month - 1) "" ++ " " ++ yearText t.date.year ++ " "
    ++ t.clockText ++ " GMT"

end Timestamp

end IndexFeed.Calendar
