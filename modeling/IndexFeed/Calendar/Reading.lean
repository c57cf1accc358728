import IndexFeed.Calendar.Timestamp
import IndexFeed.Text.Blank

/-!
Reading timestamps. Two forms are accepted: the full form of internet timestamps with its offset
from universal time, and a date alone, which stands for the start of that day and may have blanks
before each of its three numbers. A reading step yields what it found and the rest of the text.
-/

namespace IndexFeed.Calendar

namespace Reading

/-- No number in a date is larger than this. -/
def largestNumber : Nat := 999999

/-- A number of at least one and at most `most` digits. -/
def number (most : Nat) (cs : List Char) : Option (Nat × List Char) :=
  let digits := (cs.take most).takeWhile fun c => (Decimal.digitValue? c).isSome
  (Decimal.readNatWithin? largestNumber digits).map fun n => (n, cs.drop digits.length)

def fixedNumber (count : Nat) (cs : List Char) : Option (Nat × List Char) :=
  let digits := cs.take count
  if digits.length = count then
    (Decimal.readNat? digits).map fun n => (n, cs.drop count)
  else none

def mark (c : Char) : List Char → Option (Unit × List Char)
  | [] => none
  | first :: rest => if first = c then some ((), rest) else none

/-- A fraction of a second in nanoseconds, behind its point. Digits after the ninth are dropped. -/
def fraction (cs : List Char) : Option (Nat × List Char) :=
  match cs with
  | '.' :: rest =>
    let digits := rest.takeWhile fun c => (Decimal.digitValue? c).isSome
    (Decimal.readNat? (digits.take 9)).map fun n =>
      (n * Nat.pow 10 (9 - (digits.take 9).length), rest.drop digits.length)
  | _ => some (0, cs)

def offsetSign : List Char → Option (Int × List Char)
  | '+' :: rest => some (1, rest)
  | '-' :: rest => some (-1, rest)
  | c :: rest => if c.toNat = 0x2212 then some (-1, rest) else none
  | [] => none

/-- An offset from universal time in seconds: the letter Z, or a sign, hours and minutes. -/
def offset (cs : List Char) : Option (Int × List Char) :=
  match cs with
  | 'Z' :: rest | 'z' :: rest => some (0, rest)
  | _ => do
    let (sign, cs) ← offsetSign cs
    let (hours, cs) ← fixedNumber 2 cs
    let ((), cs) ← mark ':' cs
    let (minutes, cs) ← fixedNumber 2 cs
    if hours ≤ 23 ∧ minutes ≤ 59 then some (sign * (hours * 3600 + minutes * 60), cs) else none

def separator : List Char → Option (Unit × List Char)
  | c :: rest => if c = 'T' ∨ c = 't' ∨ c = ' ' then some ((), rest) else none
  | [] => none

/-- The year of a date alone: a signed number with any number of zeros in front, or up to four
digits. -/
def year (cs : List Char) : Option (Int × List Char) :=
  match cs with
  | '-' :: rest => (number rest.length rest).map fun (n, cs) => (-(n : Int), cs)
  | '+' :: rest => (number rest.length rest).map fun (n, cs) => ((n : Int), cs)
  | _ => (number 4 cs).map fun (n, cs) => ((n : Int), cs)

end Reading

open Reading

/-- The full form. A second numbered 60 is an inserted second, whatever the minute. -/
def Timestamp.readFull? (cs : List Char) : Option Timestamp := do
  let (year, cs) ← fixedNumber 4 cs
  let ((), cs) ← mark '-' cs
  let (month, cs) ← fixedNumber 2 cs
  let ((), cs) ← mark '-' cs
  let (day, cs) ← fixedNumber 2 cs
  let ((), cs) ← separator cs
  let (hour, cs) ← fixedNumber 2 cs
  let ((), cs) ← mark ':' cs
  let (minute, cs) ← fixedNumber 2 cs
  let ((), cs) ← mark ':' cs
  let (second, cs) ← fixedNumber 2 cs
  let (nanos, cs) ← Reading.fraction cs
  let (offset, cs) ← Reading.offset cs
  let date : Date := ⟨year, month, day⟩
  if cs.isEmpty ∧ date.isValid ∧ hour ≤ 23 ∧ minute ≤ 59 ∧ second ≤ 60 then
    let inserted := second / 60
    let seconds : Nat := hour * 3600 + minute * 60 + (second - inserted)
    some ⟨date.toDays * secondsPerDay + seconds - offset, nanos + inserted * nanosecondsPerSecond⟩
  else none

def Timestamp.readDate? (cs : List Char) : Option Timestamp := do
  let (year, cs) ← Reading.year (Text.trimStart cs)
  let ((), cs) ← mark '-' cs
  let (month, cs) ← number 2 (Text.trimStart cs)
  let ((), cs) ← mark '-' cs
  let (day, cs) ← number 2 (Text.trimStart cs)
  if cs.isEmpty then Timestamp.ofDate? ⟨year, month, day⟩ else none

/-- Reads a timestamp in either form; blanks around it are passed over. -/
def Timestamp.read? (s : String) : Option Timestamp :=
  let cs := (Text.trim s).toList
  (Timestamp.readFull? cs).orElse fun _ => Timestamp.readDate? cs

end IndexFeed.Calendar
