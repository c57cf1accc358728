/-!
The shortest decimal that reads back as a given binary floating-point number. A positive number
`m * 2 ^ q` owns an interval of reals that round to it, ends included when `m` is even. Among the
decimals in that interval those with the fewest digits are taken, of these the nearest one, and the
larger of two that are equally near.
-/

namespace IndexFeed.Decimal

structure Shortest where
  digits : Nat
  exponent : Int
  deriving Repr, DecidableEq

/-- A positive number with the interval that rounds to it, as quotients of natural numbers over one
denominator. -/
structure Interval where
  below : Nat
  value : Nat
  above : Nat
  denominator : Nat
  closed : Bool

/-- The interval of `m * 2 ^ q`. The neighbour below is half as far away when `m` is the least
mantissa of its binade, which `atBinade` says. -/
def Interval.ofBinary (m : Nat) (q : Int) (atBinade : Bool) : Interval :=
  let scale := 1 <<< (q - 2).toNat
  { below := (4 * m - if atBinade then 1 else 2) * scale
    value := 4 * m * scale
    above := (4 * m + 2) * scale
    denominator := 1 <<< (2 - q).toNat
    closed := m % 2 == 0 }

def Interval.holds (i : Interval) (digits : Nat) (exponent : Int) : Bool :=
  let point := digits * Nat.pow 10 exponent.toNat * i.denominator
  let unit := Nat.pow 10 (-exponent).toNat
  if i.closed then i.below * unit ≤ point && point ≤ i.above * unit
  else i.below * unit < point && point < i.above * unit

def Interval.floorDigits (i : Interval) (exponent : Int) : Nat :=
  i.value * Nat.pow 10 (-exponent).toNat / (i.denominator * Nat.pow 10 exponent.toNat)

/-- Whether the multiple above `digits` is at least as near to the value as `digits` is. -/
def Interval.roundsUp (i : Interval) (digits : Nat) (exponent : Int) : Bool :=
  (2 * digits + 1) * Nat.pow 10 exponent.toNat * i.denominator
    ≤ 2 * i.value * Nat.pow 10 (-exponent).toNat

/-- The point of the grid of multiples of `10 ^ exponent` that the interval holds, the better of
the two next to the value if it holds both. -/
def Interval.gridPoint? (i : Interval) (exponent : Int) : Option Nat :=
  let down := i.floorDigits exponent
  let up := down + 1
  match i.holds down exponent, i.holds up exponent with
  | true, true => some (if i.roundsUp down exponent then up else down)
  | true, false => some down
  | false, true => some up
  | false, false => none

/-- The number of decimal places before the point: the least `k` with value below `10 ^ k`. The
search starts at `k` and goes down as long as the value is below a tenth of the bound. -/
def Interval.magnitude (i : Interval) (k : Int) : Nat → Int
  | 0 => k
  | steps + 1 =>
    if i.value * Nat.pow 10 (1 - k).toNat < i.denominator * Nat.pow 10 (k - 1).toNat
    then i.magnitude (k - 1) steps else k

/-- A point of a grid. Ten units are one unit of the next coarser grid. -/
def Shortest.ofGrid (digits : Nat) (exponent : Int) : Shortest :=
  if digits % 10 == 0 then ⟨digits / 10, exponent + 1⟩ else ⟨digits, exponent⟩

def Interval.search (i : Interval) (magnitude : Int) (count : Nat) : Nat → Shortest
  | 0 => ⟨i.floorDigits (magnitude - count), magnitude - count⟩
  | finer + 1 =>
    match i.gridPoint? (magnitude - count) with
    | some digits => .ofGrid digits (magnitude - count)
    | none => i.search magnitude (count + 1) finer

/-- A bound on the magnitude from the binary logarithm of the value, at most one too large. -/
def Interval.magnitudeBound (i : Interval) : Int :=
  ((Nat.log2 i.value : Int) - Nat.log2 i.denominator) * 30103 / 100000 + 2

/-- Seventeen digits always suffice for a mantissa of 53 bits. -/
def Interval.shortest (i : Interval) : Shortest :=
  i.search (i.magnitude i.magnitudeBound 3) 1 17

/-- A finite number taken apart: sign, mantissa, binary exponent, and whether the mantissa is the
least one of a binade that has another below it. -/
structure Binary where
  negative : Bool
  mantissa : Nat
  exponent : Int
  atBinade : Bool

def Binary.ofFloat? (x : Float) : Option Binary :=
  let bits := x.toBits.toNat
  let negative := bits >>> 63 == 1
  let biased : Nat := (bits >>> 52) % 2048
  let fraction : Nat := bits % (1 <<< 52)
  if biased == 2047 then none
  else if biased == 0 then some ⟨negative, fraction, -1074, false⟩
  else some ⟨negative, fraction + 1 <<< 52, (biased : Int) - 1075, fraction == 0 && biased > 1⟩

/-- A decimal written out in full, without an exponent and without a point after an integer. -/
def Shortest.positional (d : Shortest) : String :=
  let digits := Nat.toDigits 10 d.digits
  let places := (-d.exponent).toNat
  if places == 0 then String.ofList (digits ++ List.replicate d.exponent.toNat '0')
  else if places < digits.length then
    let whole := digits.length - places
    String.ofList (digits.take whole ++ '.' :: digits.drop whole)
  else String.ofList ('0' :: '.' :: List.replicate (places - digits.length) '0' ++ digits)

/-- The text of a floating-point number: the shortest decimal that reads back, in full. Zero keeps
its sign. -/
def ofFloat (x : Float) : String :=
  match Binary.ofFloat? x with
  | none => if x.isNaN then "NaN" else if x > 0 then "inf" else "-inf"
  | some b =>
    let sign := if b.negative then "-" else ""
    if b.mantissa == 0 then sign ++ "0"
    else sign ++ (Interval.ofBinary b.mantissa b.exponent b.atBinade).shortest.positional

end IndexFeed.Decimal
