import IndexFeed.Decimal.Integer
import IndexFeed.Json

/-!
Reading numbers. A number is written with a significand and a power of ten. The significand takes
digits as long as it fits into 64 bits; whole digits that come later only raise the power, and later
fractional digits are dropped. The number is the significand, rounded, times or divided by the
power, rounded again. A number that is too large is refused.
-/

namespace IndexFeed.Json

def isNumberChar (c : Char) : Bool :=
  (Decimal.digitValue? c).isSome || c == '-' || c == '+' || c == '.' || c == 'e' || c == 'E'

structure NumberText where
  negative : Bool
  whole : List Nat
  fraction : List Nat
  exponent : Int
  /-- Whether there is neither a fraction nor an exponent. -/
  plain : Bool
  deriving Repr, DecidableEq

def digits (cs : List Char) : List Nat × List Char :=
  let isDigit := fun c => (Decimal.digitValue? c).isSome
  ((cs.takeWhile isDigit).filterMap Decimal.digitValue?, cs.dropWhile isDigit)

/-- The fraction behind a decimal point, if there is a point. -/
def fraction? : List Char → Option (Option (List Nat) × List Char)
  | '.' :: rest =>
    match digits rest with
    | ([], _) => none
    | (ds, rest) => some (some ds, rest)
  | cs => some (none, cs)

/-- Powers of ten past this one are not told apart. -/
def farthestPower : Nat := 2147483648

def powerOfDigits (ds : List Nat) : Nat :=
  ds.foldl (fun n d => min (n * 10 + d) farthestPower) 0

/-- The power of ten behind its mark, if there is a mark; nothing may follow it. -/
def exponent? : List Char → Option (Option Int)
  | [] => some none
  | mark :: rest =>
    if mark = 'e' ∨ mark = 'E' then
      let (sign, rest) := match rest with
        | '+' :: rest => ((1 : Int), rest)
        | '-' :: rest => (-1, rest)
        | rest => (1, rest)
      match digits rest with
      | ([], _) => none
      | (ds, []) => some (some (sign * powerOfDigits ds))
      | (_, _ :: _) => none
    else none

/-- Takes a number apart. No zero stands in front of another whole digit. -/
def NumberText.read? (cs : List Char) : Option NumberText := do
  let (negative, cs) := match cs with
    | '-' :: rest => (true, rest)
    | cs => (false, cs)
  let (whole, cs) := digits cs
  if whole.isEmpty || (whole.head? == some 0 && whole.length != 1) then none
  else
    let (fraction, cs) ← fraction? cs
    let exponent ← exponent? cs
    some
      { negative, whole
        fraction := fraction.getD []
        exponent := exponent.getD 0
        plain := fraction.isNone && exponent.isNone }

/-- Takes digits into a significand until one does not fit, and keeps those left over. -/
def absorb (significand : Nat) : List Nat → Nat × List Nat
  | [] => (significand, [])
  | d :: rest =>
    if significand * 10 + d < UInt64.size then absorb (significand * 10 + d) rest
    else (significand, d :: rest)

def powerOfTen (n : Nat) : Float :=
  Float.ofScientific 1 false n

/-- The largest power of ten that a floating-point number can be. -/
def largestPower : Nat := 308

/-- `x / 10 ^ n`, dividing by the largest power as long as need be. -/
def divided (x : Float) (n : Nat) : Float :=
  if n ≤ largestPower then x / powerOfTen n
  else if x == 0 then x
  else divided (x / powerOfTen largestPower) (n - largestPower)
termination_by n
decreasing_by simp only [largestPower] at *; omega

/-- `x * 10 ^ n`, unless it is too large. -/
def multiplied? (x : Float) (n : Nat) : Option Float :=
  if n ≤ largestPower then
    let product := x * powerOfTen n
    if product.isInf then none else some product
  else if x == 0 then some x
  else none

def scaled? (significand : Nat) : Int → Option Float
  | .ofNat n => multiplied? (UInt64.ofNat significand).toFloat n
  | .negSucc n => some (divided (UInt64.ofNat significand).toFloat (n + 1))

def NumberText.value? (t : NumberText) : Option Json :=
  let (significand, dropped) := absorb 0 t.whole
  if t.plain && dropped.isEmpty
      && !(t.negative && (significand == 0 || significand > UInt64.size / 2)) then
    some (.integer (if t.negative then -(significand : Int) else significand))
  else
    let (significand, left) := absorb significand t.fraction
    let exponent := t.exponent + dropped.length - (t.fraction.length - left.length : Nat)
    (scaled? significand exponent).map fun x => .real (if t.negative then -x else x)

def number? (cs : List Char) : Option Json :=
  (NumberText.read? cs).bind NumberText.value?

end IndexFeed.Json
