/-!
Integers in decimal. Writing uses as few digits as possible and a sign only below zero; reading
takes ASCII digits behind at most one sign and refuses everything else.
-/

namespace IndexFeed.Decimal

def ofNat (n : Nat) : String :=
  String.ofList (Nat.toDigits 10 n)

def ofInt : Int → String
  | .ofNat n => ofNat n
  | .negSucc n => "-" ++ ofNat (n + 1)

/-- At least `width` digits, zeros in front where the number has fewer. -/
def padded (width n : Nat) : String :=
  let digits := Nat.toDigits 10 n
  String.ofList (List.replicate (width - digits.length) '0' ++ digits)

def digitValue? (c : Char) : Option Nat :=
  if '0' ≤ c && c ≤ '9' then some (c.toNat - '0'.toNat) else none

def readDigits (value : Nat) : List Char → Option Nat
  | [] => some value
  | c :: rest => (digitValue? c).bind fun d => readDigits (value * 10 + d) rest

def readNat? : List Char → Option Nat
  | [] => none
  | c :: rest => readDigits 0 (c :: rest)

def readInt? : List Char → Option Int
  | '-' :: digits => (readNat? digits).map fun n => -(n : Int)
  | '+' :: digits => (readNat? digits).map fun n => (n : Int)
  | digits => (readNat? digits).map fun n => (n : Int)

/-- As `readDigits`, for numbers up to `most`. Since digits only make a number larger, reading ends
at the first one that goes past the bound. -/
def readDigitsWithin (most value : Nat) : List Char → Option Nat
  | [] => some value
  | c :: rest => (digitValue? c).bind fun d =>
    if value * 10 + d ≤ most then readDigitsWithin most (value * 10 + d) rest else none

def readNatWithin? (most : Nat) : List Char → Option Nat
  | [] => none
  | c :: rest => readDigitsWithin most 0 (c :: rest)

def readInt64? (s : String) : Option Int64 :=
  match s.toList with
  | '-' :: digits => (readNatWithin? (UInt64.size / 2) digits).map fun n => Int64.ofInt (-(n : Int))
  | '+' :: digits => (readNatWithin? (UInt64.size / 2 - 1) digits).map Int64.ofNat
  | digits => (readNatWithin? (UInt64.size / 2 - 1) digits).map Int64.ofNat

/-- An integer of 64 bits without sign; a plus sign is allowed. -/
def readUInt64? (s : String) : Option UInt64 :=
  let digits := match s.toList with
    | '+' :: digits => digits
    | digits => digits
  (readNatWithin? (UInt64.size - 1) digits).map UInt64.ofNat

end IndexFeed.Decimal
