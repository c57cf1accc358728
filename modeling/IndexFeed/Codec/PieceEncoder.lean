/-!
Encoders that are given their input in pieces. An encoder may keep part of what it was given and put
it out later, with a later piece or when the input ends; an input that breaks off is never ended.
-/

namespace IndexFeed

structure PieceEncoder where
  State : Type
  start : State
  /-- Takes one more piece; the first component is what is put out by then. -/
  push : State → List UInt8 → List (List UInt8) × State
  finish : State → List (List UInt8)

namespace PieceEncoder

/-- An encoder at work: its state, and what it has put out so far. -/
structure Run (e : PieceEncoder) where
  state : e.State
  written : Array (List UInt8) := #[]

def Run.push {e : PieceEncoder} (r : e.Run) (piece : List UInt8) : e.Run :=
  let (out, state) := e.push r.state piece
  ⟨state, r.written ++ out⟩

def runOn (e : PieceEncoder) (pieces : List (List UInt8)) : e.Run :=
  pieces.foldl Run.push ⟨e.start, #[]⟩

/-- What is put out for a sequence of pieces that ends, or else breaks off. -/
def encode (e : PieceEncoder) (pieces : List (List UInt8)) (ends : Bool) : List (List UInt8) :=
  let r := e.runOn pieces
  (if ends then r.written ++ e.finish r.state else r.written).toList

end PieceEncoder

end IndexFeed
