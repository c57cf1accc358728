import IndexFeed.Calendar.Reading
import IndexFeed.Decimal.Integer
import IndexFeed.Decimal.Shortest
import IndexFeed.Principal
import IndexFeed.Repository
import IndexFeed.Text.Blank
import IndexFeed.Text.Case
import IndexFeed.Text.Utf8

/-!
The values of properties. Every value has a text; other forms are read from a value where its kind
allows it, and the attempt fails with the form asked for and the value's text where it does not.
-/

namespace IndexFeed

open Calendar (Timestamp)

inductive Value where
  | string (text : String)
  | boolean (flag : Bool)
  | integer (n : Int64)
  | real (x : Float)
  | date (t : Timestamp)
  | binary (bytes : List UInt8)
  | principal (p : Principal)
  | stream (s : SharedSource)

namespace Value

/-- Equality: of numbers as numbers, so that one that is not a number differs from itself, and of
streams by identity. -/
protected def beq : Value → Value → Bool
  | string a, string b => a == b
  | boolean a, boolean b => a == b
  | integer a, integer b => a == b
  | real a, real b => a == b
  | date a, date b => a == b
  | binary a, binary b => a == b
  | principal a, principal b => a == b
  | stream a, stream b => a.number == b.number
  | _, _ => false

instance : BEq Value := ⟨Value.beq⟩

/-- Bytes are read as UTF-8 with replacements, a principal is its name, and a stream has no text. -/
def text : Value → String
  | string s => s
  | boolean flag => if flag then "true" else "false"
  | integer n => Decimal.ofInt n.toInt
  | real x => Decimal.ofFloat x
  | date t => t.text
  | binary bytes => Utf8.decodeLossy bytes
  | principal p => p.name
  | stream _ => ""

/-- A value as a truth value. A text is true when it says so in one of three ways, and false
otherwise. -/
def toBool : Value → Read Bool
  | boolean flag => .ok flag
  | integer n => .ok (n != 0)
  | string s =>
    let word := Text.trim s
    .ok (Text.sameIgnoringCase word "true" || Text.sameIgnoringCase word "t" || word == "1")
  | v => .error (.invalidValue .boolean v.text)

def toInteger : Value → Read Int
  | integer n => .ok n.toInt
  | boolean flag => .ok flag.toNat
  | string s =>
    match Decimal.readInt64? (Text.trim s) with
    | some n => .ok n.toInt
    | none => .error (.invalidValue .integer s)
  | date t => .ok t.milliseconds
  | v => .error (.invalidValue .integer v.text)

/-- A value as a date; an integer counts milliseconds. -/
def toTimestamp : Value → Read Timestamp
  | date t => .ok t
  | integer n =>
    match Timestamp.ofMilliseconds? n.toInt with
    | some t => .ok t
    | none => .error (.invalidValue .timestamp (Decimal.ofInt n.toInt))
  | string s =>
    match Timestamp.read? s with
    | some t => .ok t
    | none => .error (.invalidValue .timestamp s)
  | v => .error (.invalidValue .timestamp v.text)

/-- Opens a value as content. A stream that has been taken before cannot be opened; one that is
opened counts as taken from then on. -/
def openSource (v : Value) (taken : Taken) : Read Source × Taken :=
  match v with
  | string s => (.ok (.ofBytes (Utf8.encode s)), taken)
  | binary bytes => (.ok (.ofBytes bytes), taken)
  | stream s =>
    if taken.has s then (.error (.document "content stream already consumed"), taken)
    else (.ok s.source, taken.add s)
  | v => (.error (.invalidValue .stream v.text), taken)

/-- The text of a value in metadata: a date without its time of day, and nothing for bytes. -/
def metadataText? : Value → Option String
  | date t => some t.date.text
  | binary _ => none
  | stream _ => none
  | v => some v.text

end Value

end IndexFeed
