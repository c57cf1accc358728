import IndexFeed.Decimal.Integer

/-!
Where feeds get their identifiers from: a sequence of labels, of which the first ones have been
used.
-/

namespace IndexFeed

structure FeedIds where
  label : Nat → String
  used : Nat := 0

namespace FeedIds

def sequential (stem : String) : FeedIds where
  label n := stem ++ "-" ++ Decimal.ofNat n

def fixed (id : String) : FeedIds where
  label _ := id

def hexText (count n : Nat) : String :=
  let digits := Nat.toDigits 16 (n % Nat.pow 16 count)
  String.ofList (List.replicate (count - digits.length) '0' ++ digits)

/-- A number of 128 bits as a random identifier: five groups of digits, of which one names the kind
of identifier and two bits another. -/
def randomText (n : Nat) : String :=
  let variant := 8 + (n >>> 60) % 4
  hexText 8 (n >>> 96) ++ "-" ++ hexText 4 (n >>> 80) ++ "-4" ++ hexText 3 (n >>> 64)
    ++ "-" ++ hexText 1 variant ++ hexText 3 (n >>> 48) ++ "-" ++ hexText 12 n

def random (seed : Nat) : FeedIds where
  label n := randomText (seed + n * 0x9E3779B97F4A7C15F39CC0605CEDC835)

def next (ids : FeedIds) : String × FeedIds :=
  (ids.label ids.used, { ids with used := ids.used + 1 })

def take (ids : FeedIds) (count : Nat) : List String :=
  (List.range count).map fun i => ids.label (ids.used + i)

end FeedIds

end IndexFeed
