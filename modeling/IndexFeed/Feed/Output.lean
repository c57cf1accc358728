import IndexFeed.Element
import IndexFeed.Feed.Body

/-!
Where elements are written: the bytes of a feed, and its log if one is kept. What was written behind
a mark can be dropped again from both.
-/

namespace IndexFeed

structure FeedOutput where
  body : FeedBody
  log : Option String := none
  deriving Repr, DecidableEq

namespace FeedOutput

def append (o : FeedOutput) (bytes : List UInt8) : FeedOutput :=
  { o with body := o.body.append bytes }

def note (o : FeedOutput) (text : String) : FeedOutput :=
  { o with log := o.log.map (· ++ text) }

/-- Writes pieces, which the log shows with a mark in the place of each payload. -/
def write (o : FeedOutput) (pieces : List Piece) : FeedOutput :=
  (o.append (Piece.allBytes pieces)).note (Piece.allLogged pieces)

theorem body_write (o : FeedOutput) (pieces : List Piece) :
    (o.write pieces).body = o.body.append (Piece.allBytes pieces) := rfl

theorem append_append (o : FeedOutput) (first second : List UInt8) :
    (o.append first).append second = o.append (first ++ second) := by
  simp [append, FeedBody.append_append]

theorem note_note (o : FeedOutput) (first second : String) :
    (o.note first).note second = o.note (first ++ second) := by
  cases o with
  | mk body log => cases log <;> simp [note, String.append_assoc]

theorem write_write (o : FeedOutput) (first second : List Piece) :
    (o.write first).write second = o.write (first ++ second) := by
  rw [write, write, write, Piece.allBytes_append, Piece.allLogged_append, ← append_append,
    ← note_note]
  rfl

structure Mark where
  size : Nat
  logSize : Option Nat
  deriving Repr, DecidableEq

def mark (o : FeedOutput) : Mark :=
  ⟨o.body.size, o.log.map String.utf8ByteSize⟩

/-- Drops what was written behind a mark. -/
def restore (o : FeedOutput) (m : Mark) : Except FeedError FeedOutput :=
  (o.body.truncate m.size).map fun body =>
    { body
      log := match o.log, m.logSize with
        | some log, some size => some (Utf8.truncate log size)
        | log, _ => log }

end FeedOutput

end IndexFeed
