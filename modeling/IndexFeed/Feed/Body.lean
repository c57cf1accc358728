import IndexFeed.Feed.Error
import IndexFeed.Feed.Progress

/-!
The bytes of a feed. They grow at their end, and can be cut back to an earlier size; the progress
follows every change.
-/

namespace IndexFeed

def firstReservation : Nat := 1048576

structure FeedBody where
  bytes : Array UInt8
  progress : FeedProgress
  deriving Repr, DecidableEq

namespace FeedBody

def empty (capacity : UInt64) : FeedBody where
  bytes := .emptyWithCapacity (min capacity.toNat firstReservation)
  progress := { capacity }

def size (b : FeedBody) : Nat := b.bytes.size

def isEmpty (b : FeedBody) : Bool := b.bytes.isEmpty

def append (b : FeedBody) (bytes : List UInt8) : FeedBody :=
  let bytes := b.bytes ++ bytes.toArray
  { bytes, progress := { b.progress with size := bytes.size } }

/-- Keeps the first `size` bytes, if there are as many. The count of records stays as it is. -/
def truncate (b : FeedBody) (size : Nat) : Except FeedError FeedBody :=
  if b.size < size then .error (.truncation size b.size)
  else .ok { b with bytes := b.bytes.take size, progress := { b.progress with size } }

theorem toList_empty (capacity : UInt64) : (empty capacity).bytes.toList = [] := rfl

theorem toList_append (b : FeedBody) (bytes : List UInt8) :
    (b.append bytes).bytes.toList = b.bytes.toList ++ bytes := by
  simp [append]

theorem append_append (b : FeedBody) (first second : List UInt8) :
    (b.append first).append second = b.append (first ++ second) := by
  simp [append]

end FeedBody

end IndexFeed
