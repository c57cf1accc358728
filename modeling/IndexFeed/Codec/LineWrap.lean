/-!
Breaking a byte sequence into lines of a fixed length. The sequence may arrive in any pieces: the
writer remembers only how long the current line is, and starts a new line when a byte arrives that
the current one has no room for. No line feed follows the last byte.
-/

namespace IndexFeed

def lineFeed : UInt8 := 10

/-- The state between two writes: what has been written and the length of its last line. A line can
hold at least one byte. -/
structure LineWriter where
  lineLength : Nat
  lineLength_pos : 0 < lineLength
  column : Nat := 0
  column_le : column ≤ lineLength := by omega
  written : Array UInt8 := #[]

namespace LineWriter

def start (lineLength : Nat) (h : 0 < lineLength) : LineWriter :=
  { lineLength, lineLength_pos := h }

def makeRoom (w : LineWriter) : LineWriter :=
  if w.column = w.lineLength then
    { w with column := 0, column_le := Nat.zero_le _, written := w.written.push lineFeed }
  else w

def room (w : LineWriter) : Nat := w.lineLength - w.column

theorem room_makeRoom_pos (w : LineWriter) : 0 < w.makeRoom.room := by
  have := w.lineLength_pos
  have := w.column_le
  unfold makeRoom room
  split
  · simpa
  · omega

/-- Puts bytes on the current line, as many as there is room for. -/
def fill (w : LineWriter) (bytes : List UInt8) : LineWriter :=
  { w with
    column := w.column + (bytes.take w.room).length
    column_le := by
      have := w.column_le
      simp only [List.length_take, room]
      omega
    written := w.written ++ bytes.take w.room }

/-- Writes bytes, and starts a new line wherever the next one has no room. -/
def write (w : LineWriter) : List UInt8 → LineWriter
  | [] => w
  | first :: rest =>
    let opened := w.makeRoom
    let room := opened.room
    (opened.fill (first :: rest)).write ((first :: rest).drop room)
termination_by bytes => bytes.length
decreasing_by
  have := w.room_makeRoom_pos
  simp +zetaDelta only [List.length_drop, List.length_cons]
  omega

/-- A call: the writer afterwards, and how many bytes it tells its caller it has taken. -/
def accept (w : LineWriter) (bytes : List UInt8) : LineWriter × Nat :=
  (w.write bytes, bytes.length)

def acceptEach (w : LineWriter) (pieces : List (List UInt8)) : LineWriter :=
  pieces.foldl (fun w piece => (w.accept piece).1) w

def writeAll (lineLength : Nat) (h : 0 < lineLength) (pieces : List (List UInt8)) : List UInt8 :=
  ((start lineLength h).acceptEach pieces).written.toList

end LineWriter

/-- The lines of a byte sequence: all of `length` bytes but the last, which has at least one. -/
def fullLines (length : Nat) (bytes : List UInt8) : List (List UInt8) :=
  if length = 0 ∨ bytes.length ≤ length then [bytes]
  else bytes.take length :: fullLines length (bytes.drop length)
termination_by bytes.length
decreasing_by simp only [List.length_drop]; omega

def wrapped (length : Nat) (bytes : List UInt8) : List UInt8 :=
  [lineFeed].intercalate (fullLines length bytes)

end IndexFeed
