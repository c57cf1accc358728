/-!
How full a feed is. The room that is left is measured in records of the average size so far, and
between two bounds the decision falls to the part of the capacity that is left. Products stop at
the largest number of 64 bits instead of going past it.
-/

namespace IndexFeed

/-- A feed is full when fewer average records than this still fit. -/
def tightRecords : Nat := 3

/-- A feed is not full when more average records than this still fit. -/
def roomyRecords : Nat := 10

/-- Between the two bounds a feed is full once less than this part of its capacity is left. -/
def tightPart : Nat := 10

/-- A product of numbers of 64 bits, kept within 64 bits. -/
def boundedProduct (a b : Nat) : Nat :=
  min (a * b) (UInt64.size - 1)

/-- Whether a feed of `size` bytes with `count` records is full. Without records it is full only
when nothing is left. -/
def isFull (capacity size count : Nat) : Bool :=
  let left := capacity - size
  if count = 0 then left == 0
  else
    let average := size / count
    if left < boundedProduct tightRecords average then true
    else if boundedProduct roomyRecords average < left then false
    else left < capacity / tightPart

/-- What is made known about a feed while it is written. The count of records has 64 bits and wraps
around. -/
structure FeedProgress where
  capacity : UInt64
  size : Nat := 0
  recordCount : UInt64 := 0
  closed : Bool := false
  deriving Repr, DecidableEq

def FeedProgress.isFull (s : FeedProgress) : Bool :=
  IndexFeed.isFull s.capacity.toNat s.size s.recordCount.toNat

end IndexFeed
