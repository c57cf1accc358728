import IndexFeed.Proofs.Codec.LineWrap

/-!
What the calls of a line writer do, one by one. A call is taken as the loop it runs, whose turns
know nothing of how the column and the length of a line compare: a turn fails where the line is
overfull, and with lines of no length the loop goes on for ever. A column within the line is what a
writer carries from call to call, and what makes every call end with all of its bytes taken. All
calls together put a line feed in front of every byte that stands behind one full line or several.
-/

namespace IndexFeed

/-- Puts a line feed in front of each byte that stands behind one full line or several. So many
bytes as `start` says come before the first one here. -/
def feedsFrom (length start : Nat) (bytes : List UInt8) : List UInt8 :=
  (bytes.zipIdx start).flatMap fun p =>
    (if 0 < p.2 ∧ length ∣ p.2 then [lineFeed] else []) ++ [p.1]

def withFeeds (length : Nat) (bytes : List UInt8) : List UInt8 :=
  feedsFrom length 0 bytes

theorem feedsFrom_append (length start : Nat) (front back : List UInt8) :
    feedsFrom length start (front ++ back)
      = feedsFrom length start front ++ feedsFrom length (start + front.length) back := by
  rw [feedsFrom, List.zipIdx_append, List.flatMap_append]
  rfl

theorem feedsFrom_cons (length start : Nat) (b : UInt8) (rest : List UInt8) :
    feedsFrom length start (b :: rest)
      = (if 0 < start ∧ length ∣ start then [lineFeed] else [])
        ++ b :: feedsFrom length (start + 1) rest := by
  rw [feedsFrom, List.zipIdx_cons, List.flatMap_cons, List.append_assoc]
  rfl

/-- Between two ends of lines there is no line feed. -/
theorem feedsFrom_of_not_dvd {length start : Nat} {bytes : List UInt8}
    (inside : ∀ i, start ≤ i → i < start + bytes.length → ¬ length ∣ i) :
    feedsFrom length start bytes = bytes := by
  induction bytes generalizing start with
  | nil => rfl
  | cons b rest ih =>
      have here : ¬ (0 < start ∧ length ∣ start) := by
        intro ⟨_, ends⟩
        exact inside start (Nat.le_refl _) (by simp) ends
      have there : ∀ i, start + 1 ≤ i → i < start + 1 + rest.length → ¬ length ∣ i := by
        intro i lower upper
        exact inside i (by omega) (by simp only [List.length_cons]; omega)
      rw [feedsFrom_cons, if_neg here, ih there]
      rfl

/-- A line has a line feed in front, but for the first one, and none inside. -/
theorem feedsFrom_line {length start : Nat} {line : List UInt8} (starts : length ∣ start)
    (some_byte : line ≠ []) (le : line.length ≤ length) :
    feedsFrom length start line = (if 0 < start then [lineFeed] else []) ++ line := by
  obtain ⟨b, rest, rfl⟩ := List.exists_cons_of_ne_nil some_byte
  have inside : ∀ i, start + 1 ≤ i → i < start + 1 + rest.length → ¬ length ∣ i := by
    intro i lower upper ends
    have further : length ∣ i - start := Nat.dvd_sub ends starts
    have := Nat.le_of_dvd (by omega) further
    simp only [List.length_cons] at le
    omega
  rw [feedsFrom_cons, feedsFrom_of_not_dvd inside]
  simp only [starts, and_true]

theorem wrapped_of_longer {length : Nat} {bytes : List UInt8}
    (more : ¬ (length = 0 ∨ bytes.length ≤ length)) :
    wrapped length bytes = bytes.take length ++ lineFeed :: wrapped length (bytes.drop length) := by
  have lines : fullLines length (bytes.drop length) ≠ [] := by
    unfold fullLines
    split
    · exact List.cons_ne_nil _ _
    · exact List.cons_ne_nil _ _
  obtain ⟨second, others, behind⟩ := List.exists_cons_of_ne_nil lines
  rw [wrapped, fullLines, if_neg more, wrapped, behind, List.intercalate_cons_cons]
  simp

theorem feedsFrom_eq_wrapped {length start : Nat} (pos : 0 < length) (starts : length ∣ start)
    {bytes : List UInt8} (some_byte : bytes ≠ []) :
    feedsFrom length start bytes
      = (if 0 < start then [lineFeed] else []) ++ wrapped length bytes := by
  induction bytes using fullLines.induct length generalizing start with
  | case1 bytes one =>
      rw [feedsFrom_line starts some_byte (by omega), wrapped, fullLines, if_pos one]
      simp
  | case2 bytes more ih =>
      have taken : (bytes.take length).length = length := by
        rw [List.length_take]
        omega
      have left : bytes.drop length ≠ [] := by
        intro nil
        have := List.drop_eq_nil_iff.mp nil
        omega
      have first : feedsFrom length start (bytes.take length)
          = (if 0 < start then [lineFeed] else []) ++ bytes.take length :=
        feedsFrom_line starts (List.ne_nil_of_length_pos (by omega)) (by omega)
      have rest : feedsFrom length (start + length) (bytes.drop length)
          = lineFeed :: wrapped length (bytes.drop length) := by
        rw [ih (Nat.dvd_add starts (Nat.dvd_refl _)) left, if_pos (by omega)]
        rfl
      calc feedsFrom length start bytes
          = feedsFrom length start (bytes.take length ++ bytes.drop length) := by
            rw [List.take_append_drop]
        _ = (if 0 < start then [lineFeed] else [])
              ++ (bytes.take length ++ lineFeed :: wrapped length (bytes.drop length)) := by
            rw [feedsFrom_append, taken, first, rest, List.append_assoc]
        _ = (if 0 < start then [lineFeed] else []) ++ wrapped length bytes := by
            rw [wrapped_of_longer more]

/-- Joining the lines puts line feeds at the same places as counting the bytes does. -/
theorem wrapped_eq_withFeeds {length : Nat} (pos : 0 < length) (bytes : List UInt8) :
    wrapped length bytes = withFeeds length bytes := by
  by_cases nil : bytes = []
  · rw [nil, wrapped, fullLines, if_pos (by simp)]
    rfl
  · rw [withFeeds, feedsFrom_eq_wrapped pos (Nat.dvd_zero _) nil]
    rfl

/-- Where a call stands between two turns of its loop. -/
structure LineLoop where
  column : Nat
  written : List UInt8
  rest : List UInt8

namespace LineLoop

/-- A new line is begun if the current one is full. -/
def opened (length : Nat) (s : LineLoop) : LineLoop :=
  if s.column = length then { s with column := 0, written := s.written ++ [lineFeed] } else s

/-- One turn. There is none if the line is overfull: what it has room for is then no number. -/
def turn? (length : Nat) (s : LineLoop) : Option LineLoop :=
  let s := s.opened length
  if s.column ≤ length then
    let taken := min s.rest.length (length - s.column)
    some ⟨s.column + taken, s.written ++ s.rest.take taken, s.rest.drop taken⟩
  else none

/-- So many turns have been made, each of them with bytes left to take. -/
inductive Turns (length : Nat) : Nat → LineLoop → LineLoop → Prop
  | stay (s : LineLoop) : Turns length 0 s s
  | more {n : Nat} {s t u : LineLoop} (left : s.rest ≠ []) (turn : s.turn? length = some t)
      (turns : Turns length n t u) : Turns length (n + 1) s u

theorem opened_rest (length : Nat) (s : LineLoop) : (s.opened length).rest = s.rest := by
  unfold opened
  split
  · rfl
  · rfl

theorem opened_column_lt {length : Nat} (pos : 0 < length) {s : LineLoop}
    (within : s.column ≤ length) : (s.opened length).column < length := by
  unfold opened
  split
  · exact pos
  · omega

/-- A turn is made from every column within a line. It stays within the line, and takes a byte at
least if there is one. -/
theorem turn?_of_within {length : Nat} (pos : 0 < length) {s : LineLoop}
    (within : s.column ≤ length) :
    ∃ t, s.turn? length = some t ∧ t.column ≤ length ∧
      (s.rest ≠ [] → t.rest.length < s.rest.length) := by
  have room := opened_column_lt pos within
  refine ⟨_, if_pos (Nat.le_of_lt room), ?_, ?_⟩
  · simp only
    omega
  · intro left
    have := List.length_pos_iff.mpr left
    simp only [opened_rest, List.length_drop]
    omega

theorem Turns.within {length : Nat} (pos : 0 < length) {n : Nat} {s t : LineLoop}
    (turns : Turns length n s t) (within : s.column ≤ length) :
    t.column ≤ length ∧ n + t.rest.length ≤ s.rest.length := by
  induction turns with
  | stay s => exact ⟨within, by omega⟩
  | more left turn _ ih =>
      obtain ⟨t, made, still, shorter⟩ := turn?_of_within pos within
      obtain rfl := Option.some.inj (made.symm.trans turn)
      obtain ⟨last, measure⟩ := ih still
      have := shorter left
      exact ⟨last, by omega⟩

/-- With lines of no length the loop stays where it is, whatever number of turns it makes. -/
theorem turns_of_no_length {s : LineLoop} (start : s.column = 0) (left : s.rest ≠ []) (n : Nat) :
    ∃ t, Turns 0 n s t ∧ t.rest = s.rest := by
  induction n generalizing s with
  | zero => exact ⟨s, .stay s, rfl⟩
  | succ n ih =>
      have turn : s.turn? 0 = some ⟨0, s.written ++ [lineFeed], s.rest⟩ := by
        simp [turn?, opened, start]
      obtain ⟨t, turns, same⟩ := ih (s := ⟨0, s.written ++ [lineFeed], s.rest⟩) rfl left
      exact ⟨t, .more left turn turns, same⟩

end LineLoop

namespace LineWriter

/-- A writer as the loop finds it that is to take some bytes. -/
def facing (w : LineWriter) (bytes : List UInt8) : LineLoop :=
  ⟨w.column, w.written.toList, bytes⟩

theorem makeRoom_lineLength (w : LineWriter) : w.makeRoom.lineLength = w.lineLength := by
  unfold makeRoom
  split <;> rfl

theorem fill_lineLength (w : LineWriter) (bytes : List UInt8) :
    (w.fill bytes).lineLength = w.lineLength := rfl

theorem opened_facing (w : LineWriter) (bytes : List UInt8) :
    (w.facing bytes).opened w.lineLength = w.makeRoom.facing bytes := by
  unfold LineLoop.opened makeRoom facing
  split
  · simp
  · rfl

theorem turn?_facing (w : LineWriter) (bytes : List UInt8) :
    (w.facing bytes).turn? w.lineLength
      = some ((w.makeRoom.fill bytes).facing (bytes.drop w.makeRoom.room)) := by
  have within : w.makeRoom.column ≤ w.lineLength :=
    makeRoom_lineLength w ▸ w.makeRoom.column_le
  have room : w.lineLength - w.makeRoom.column = w.makeRoom.room := by
    rw [← makeRoom_lineLength, room]
  simp only [LineLoop.turn?, opened_facing]
  refine (if_pos within).trans ?_
  simp [facing, fill, room, Nat.min_comm]

/-- A call runs its loop until all of its bytes are taken. -/
theorem turns_write (w : LineWriter) (bytes : List UInt8) :
    ∃ n, LineLoop.Turns w.lineLength n (w.facing bytes) ((w.write bytes).facing []) := by
  induction w, bytes using LineWriter.write.induct with
  | case1 w => exact ⟨0, by rw [write]; exact .stay _⟩
  | case2 w first rest =>
      rename_i ih
      -- The loop behind the first turn is that of the writer which that turn leaves.
      obtain ⟨n, turns⟩ := ih
      rw [fill_lineLength, makeRoom_lineLength] at turns
      refine ⟨n + 1, ?_⟩
      rw [write]
      exact .more (List.cons_ne_nil first rest) (turn?_facing w _) turns

theorem write_lineLength (w : LineWriter) (bytes : List UInt8) :
    (w.write bytes).lineLength = w.lineLength := by
  induction w, bytes using LineWriter.write.induct with
  | case1 w => rw [write]
  | case2 w first rest =>
      rename_i ih
      rw [write]
      exact ih.trans (makeRoom_lineLength w)

theorem acceptEach_lineLength (w : LineWriter) (pieces : List (List UInt8)) :
    (w.acceptEach pieces).lineLength = w.lineLength := by
  induction pieces generalizing w with
  | nil => rfl
  | cons piece rest ih => exact (ih (w.write piece)).trans (write_lineLength w piece)

/-- However bytes are cut into calls, a line feed comes in front of each byte that stands behind one
full line or several. After any calls the next one takes all of its bytes and says so. From where it
starts its loop has a turn to make as long as bytes are left, is never outside the line, and makes
no more turns than there are bytes. -/
theorem calls_break_lines {length : Nat} (pos : 0 < length) (pieces : List (List UInt8)) :
    writeAll length pos pieces = withFeeds length pieces.flatten ∧
    ∀ piece,
      let w := (start length pos).acceptEach pieces
      (w.accept piece).2 = piece.length ∧
      (∃ n, LineLoop.Turns length n (w.facing piece) ((w.accept piece).1.facing [])) ∧
      ∀ n s, LineLoop.Turns length n (w.facing piece) s →
        s.column ≤ length ∧ n + s.rest.length ≤ piece.length ∧
        (s.rest ≠ [] → ∃ t, s.turn? length = some t) := by
  refine ⟨?_, ?_⟩
  · rw [writeAll_eq_wrapped, wrapped_eq_withFeeds pos]
  · intro piece w
    have same : w.lineLength = length := acceptEach_lineLength _ pieces
    have within : w.column ≤ length := same ▸ w.column_le
    refine ⟨rfl, ?_, ?_⟩
    · have turns := turns_write w piece
      rwa [same] at turns
    · intro n s turns
      obtain ⟨still, measure⟩ := turns.within pos within
      obtain ⟨t, turn, -⟩ := LineLoop.turn?_of_within pos still
      exact ⟨still, measure, fun _ => ⟨t, turn⟩⟩

theorem calls_break_lines_of_three :
    0 < 3 ∧
    writeAll 3 (by decide) [[1, 2], [], [3]] = [1, 2, 3] ∧
    (∃ n, LineLoop.Turns 3 n ⟨3, [1, 2, 3], [4, 5, 6, 7]⟩
      ⟨1, [1, 2, 3, lineFeed, 4, 5, 6, lineFeed, 7], []⟩) ∧
    ∀ n s, LineLoop.Turns 3 n ⟨3, [1, 2, 3], [4, 5, 6, 7]⟩ s → s.column ≤ 3 ∧ n ≤ 4 := by
  obtain ⟨written, next⟩ := @calls_break_lines 3 (by decide) [[1, 2], [], [3]]
  obtain ⟨-, ends, within⟩ := next [4, 5, 6, 7]
  have before : ((start 3 (by decide)).acceptEach [[1, 2], [], [3]]).facing [4, 5, 6, 7]
      = ⟨3, [1, 2, 3], [4, 5, 6, 7]⟩ := by cbv
  have afterwards :
      (((start 3 (by decide)).acceptEach [[1, 2], [], [3]]).accept [4, 5, 6, 7]).1.facing []
        = ⟨1, [1, 2, 3, lineFeed, 4, 5, 6, lineFeed, 7], []⟩ := by cbv
  rw [before] at ends within
  rw [afterwards] at ends
  refine ⟨by decide, written, ends, ?_⟩
  intro n s turns
  obtain ⟨column, measure, -⟩ := within n s turns
  exact ⟨column, Nat.le_of_add_right_le measure⟩

end LineWriter

end IndexFeed
