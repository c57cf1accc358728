/-!
Content that is read once. A source delivers its bytes in pieces, may be interrupted between them,
and at the end either stops or fails. A stream is a source that can be taken from its document once;
all copies of a stream bear one number, and a record of the numbers taken tells which streams are
left.
-/

namespace IndexFeed

structure InputFailure where
  message : String
  deriving Repr, DecidableEq

/-- What one request to a source brings: a piece of at least one byte, or nothing yet. -/
inductive Delivery where
  | bytes (first : UInt8) (rest : List UInt8)
  | interruption
  deriving Repr, DecidableEq

def Delivery.content : Delivery → List UInt8
  | bytes first rest => first :: rest
  | interruption => []

/-- Deliveries in order, and what comes after them: the end, or a failure. -/
structure Source where
  deliveries : List Delivery
  failure : Option InputFailure := none
  deriving Repr, DecidableEq

namespace Source

def ofBytes : List UInt8 → Source
  | [] => ⟨[], none⟩
  | first :: rest => ⟨[.bytes first rest], none⟩

/-- Pieces of `size + 1` bytes each, the last one shorter, behind the pieces `done` in reverse. -/
def piecesAfter (size : Nat) (done : List Delivery) : List UInt8 → List Delivery
  | [] => done.reverse
  | first :: rest =>
    piecesAfter size (.bytes first (rest.take size) :: done) (rest.drop size)
termination_by bytes => bytes.length
decreasing_by simp only [List.length_drop, List.length_cons]; omega

/-- A source of pieces of at most `chunk` bytes, at least one, after some interruptions. -/
def chunked (bytes : List UInt8) (chunk interruptions : Nat) (failure : Option InputFailure) :
    Source :=
  ⟨List.replicate interruptions .interruption ++ piecesAfter (chunk - 1) [] bytes, failure⟩

def leftover : List UInt8 → List Delivery
  | [] => []
  | first :: rest => [.bytes first rest]

/-- How much there is to get: every byte and every interruption counts. -/
def remaining : List Delivery → Nat
  | [] => 0
  | .interruption :: rest => 1 + remaining rest
  | .bytes _ tail :: rest => 1 + tail.length + remaining rest

theorem remaining_leftover (bytes : List UInt8) (rest : List Delivery) :
    remaining (leftover bytes ++ rest) = bytes.length + remaining rest := by
  cases bytes <;> simp [leftover, remaining, Nat.add_comm]

/-- Reads pieces until `limit` bytes have come or the source ends, at most `size + 1` bytes with one
request; `done` are the pieces read so far, in reverse. The second component is the failure that
ended the reading, if any. Interruptions are passed over. Nothing is asked for beyond the limit, so
a failure that would come later is never met. -/
def takeAfter (failure : Option InputFailure) (size : Nat) (done : List (List UInt8)) :
    Nat → List Delivery → List (List UInt8) × Option InputFailure
  | 0, _ => (done.reverse, none)
  | _ + 1, [] => (done.reverse, failure)
  | limit + 1, .interruption :: rest => takeAfter failure size done (limit + 1) rest
  | limit + 1, .bytes first tail :: rest =>
    let piece := first :: tail.take (min size limit)
    takeAfter failure size (piece :: done) (limit + 1 - piece.length)
      (leftover (tail.drop (min size limit)) ++ rest)
termination_by _ deliveries => remaining deliveries
decreasing_by
  · simp only [remaining]
    omega
  · simp only [remaining, remaining_leftover, List.length_drop]
    omega

/-- The pieces of a source up to a limit in requests of at most `size` bytes, at least one, and the
failure that ended the reading, if any. -/
def take (s : Source) (size limit : Nat) : List (List UInt8) × Option InputFailure :=
  takeAfter s.failure (size - 1) [] limit s.deliveries

/-- All bytes that a source delivers, whether or not it fails afterwards. -/
def delivered (s : Source) : List UInt8 :=
  s.deliveries.flatMap Delivery.content

end Source

structure SharedSource where
  number : Nat
  source : Source
  deriving Repr, DecidableEq

structure Taken where
  numbers : List Nat := []
  deriving Repr, DecidableEq

namespace Taken

def has (t : Taken) (s : SharedSource) : Bool := t.numbers.contains s.number

def add (t : Taken) (s : SharedSource) : Taken := ⟨s.number :: t.numbers⟩

end Taken

end IndexFeed
