import IndexFeed.Codec.LineWrap

/-!
Breaking bytes into lines as they arrive comes to breaking them into lines all at once. What a
writer remembers between two writes, the length of the current line, is enough for that.
-/

namespace IndexFeed

namespace LineWriter

/-- What a writer has written so far: full lines of a length, and the current one behind them. -/
structure Shows (length : Nat) (w : LineWriter) (full : List (List UInt8)) (current : List UInt8) :
    Prop where
  lineLength : w.lineLength = length
  full_length : ∀ line ∈ full, line.length = length
  current_length : current.length = w.column
  written : w.written.toList = [lineFeed].intercalate (full ++ [current])

theorem intercalate_append_singleton (separator line : List UInt8) {lines : List (List UInt8)}
    (h : lines ≠ []) :
    separator.intercalate (lines ++ [line]) = separator.intercalate lines ++ separator ++ line := by
  induction lines with
  | nil => contradiction
  | cons first rest ih =>
      cases rest with
      | nil => simp [List.intercalate_cons_cons]
      | cons second rest =>
          have more := ih (List.cons_ne_nil second rest)
          simp only [List.cons_append, List.intercalate_cons_cons, List.append_assoc] at more ⊢
          rw [more]

theorem Shows.makeRoom {length : Nat} {w : LineWriter} {full : List (List UInt8)}
    {current : List UInt8} (h : w.Shows length full current) :
    ∃ full' current', w.makeRoom.Shows length full' current' ∧
      full'.flatten ++ current' = full.flatten ++ current := by
  unfold LineWriter.makeRoom
  split
  · rename_i isFull
    refine ⟨full ++ [current], [], ⟨h.lineLength, ?_, rfl, ?_⟩, by simp⟩
    · intro line member
      obtain old | new := List.mem_append.mp member
      · exact h.full_length line old
      · rw [List.mem_singleton.mp new, h.current_length, isFull, h.lineLength]
    · rw [intercalate_append_singleton _ _ (by simp), ← h.written]
      simp
  · exact ⟨full, current, h, rfl⟩

theorem Shows.fill {length : Nat} {w : LineWriter} {full : List (List UInt8)}
    {current : List UInt8} (h : w.Shows length full current) (bytes : List UInt8) :
    (w.fill bytes).Shows length full (current ++ bytes.take w.room) where
  lineLength := h.lineLength
  full_length := h.full_length
  current_length := by simp [LineWriter.fill, h.current_length]
  written := by
    have written := h.written
    cases full with
    | nil => simp_all [LineWriter.fill, List.intercalate]
    | cons first rest =>
        rw [intercalate_append_singleton _ _ (by simp)] at written ⊢
        simp [LineWriter.fill, written]

/-- Writing goes on behind the lines there are, and no line is begun without a byte for it. -/
theorem Shows.write {length : Nat} {w : LineWriter} {full : List (List UInt8)}
    {current : List UInt8} (h : w.Shows length full current) (begun : current = [] → full = [])
    (bytes : List UInt8) :
    ∃ full' current', (w.write bytes).Shows length full' current' ∧ (current' = [] → full' = []) ∧
      full'.flatten ++ current' = full.flatten ++ current ++ bytes := by
  induction w, bytes using LineWriter.write.induct generalizing full current with
  | case1 w => exact ⟨full, current, by rwa [LineWriter.write], begun, by simp⟩
  | case2 w first rest =>
      rename_i ih
      obtain ⟨full', current', shown, same⟩ := h.makeRoom
      have taken : (first :: rest).take w.makeRoom.room ≠ [] := by
        have := w.room_makeRoom_pos
        intro none
        obtain zero | nil := List.take_eq_nil_iff.mp none
        · omega
        · contradiction
      obtain ⟨full'', current'', last, begun, whole⟩ :=
        ih (shown.fill _) fun nil => absurd (List.append_eq_nil_iff.mp nil).2 taken
      refine ⟨full'', current'', ?_, begun, ?_⟩
      · rw [LineWriter.write]
        exact last
      · rw [whole, ← same]
        simp only [List.append_assoc]
        congr 2
        exact List.take_append_drop w.makeRoom.room (first :: rest)

theorem Shows.acceptEach {length : Nat} {w : LineWriter} {full : List (List UInt8)}
    {current : List UInt8} (h : w.Shows length full current) (begun : current = [] → full = [])
    (pieces : List (List UInt8)) :
    ∃ full' current', (w.acceptEach pieces).Shows length full' current' ∧
      (current' = [] → full' = []) ∧
      full'.flatten ++ current' = full.flatten ++ current ++ pieces.flatten := by
  induction pieces generalizing w full current with
  | nil => exact ⟨full, current, h, begun, by simp⟩
  | cons piece rest ih =>
      obtain ⟨full', current', shown, begun', whole⟩ := h.write begun piece
      obtain ⟨full'', current'', last, begun'', whole'⟩ := ih shown begun'
      refine ⟨full'', current'', last, begun'', ?_⟩
      rw [whole', whole]
      simp

theorem Shows.current_le {length : Nat} {w : LineWriter} {full : List (List UInt8)}
    {current : List UInt8} (h : w.Shows length full current) : current.length ≤ length := by
  rw [h.current_length, ← h.lineLength]
  exact w.column_le

end LineWriter

theorem fullLines_of_flatten {length : Nat} (pos : 0 < length) (full : List (List UInt8))
    (last : List UInt8) (full_length : ∀ line ∈ full, line.length = length)
    (begun : last = [] → full = []) (last_length : last.length ≤ length) :
    fullLines length (full.flatten ++ last) = full ++ [last] := by
  induction full with
  | nil =>
      rw [fullLines, if_pos (by simp; omega)]
      rfl
  | cons first rest ih =>
      have first_length : first.length = length := full_length first (by simp)
      have last_pos : 0 < last.length :=
        List.length_pos_iff.mpr fun nil => List.cons_ne_nil first rest (begun nil)
      have more : ¬ (length = 0 ∨ ((first :: rest).flatten ++ last).length ≤ length) := by
        simp only [List.flatten_cons, List.length_append]
        omega
      rw [fullLines, if_neg more, List.flatten_cons, List.append_assoc,
        List.take_left' first_length, List.drop_left' first_length,
        ih (fun line member => full_length line (by simp [member]))
          fun nil => absurd nil (List.length_pos_iff.mp last_pos)]
      rfl

/-- The lines are full but for the last one, which has a byte at least if there are any. -/
theorem fullLines_layout {length : Nat} (pos : 0 < length) (bytes : List UInt8) :
    ∃ full last, fullLines length bytes = full ++ [last] ∧
      full.flatten ++ last = bytes ∧ (∀ line ∈ full, line.length = length) ∧
      last.length ≤ length ∧ (last = [] → bytes = []) := by
  induction bytes using fullLines.induct length with
  | case1 bytes h =>
      refine ⟨[], bytes, ?_, rfl, by simp, by omega, id⟩
      rw [fullLines, if_pos h]
      rfl
  | case2 bytes h ih =>
      obtain ⟨full, last, lines, whole, full_length, last_length, begun⟩ := ih
      refine ⟨bytes.take length :: full, last, ?_, ?_, ?_, last_length, ?_⟩
      · rw [fullLines, if_neg h, lines]
        rfl
      · rw [List.flatten_cons, List.append_assoc, whole, List.take_append_drop]
      · intro line member
        obtain rfl | old := List.mem_cons.mp member
        · simp only [List.length_take]
          omega
        · exact full_length line old
      · intro empty
        have := congrArg List.length (begun empty)
        simp only [List.length_drop, List.length_nil] at this
        omega

theorem filter_intercalate (lines : List (List UInt8)) :
    ([lineFeed].intercalate lines).filter (· != lineFeed)
      = lines.flatten.filter (· != lineFeed) := by
  induction lines with
  | nil => rfl
  | cons first rest ih =>
      cases rest with
      | nil => simp
      | cons second rest =>
          have feed : [lineFeed].filter (· != lineFeed) = [] := by decide
          rw [List.intercalate_cons_cons, List.filter_append, List.filter_append, ih, feed,
            List.append_nil]
          exact (List.filter_append first (second :: rest).flatten).symm

/-- A text of lines: all of them but the last are full, and the last holds a byte at least. No line
feed follows it. -/
structure InLines (length : Nat) (text : List UInt8) (full : List (List UInt8))
    (last : List UInt8) : Prop where
  lines : text = [lineFeed].intercalate (full ++ [last])
  full_length : ∀ line ∈ full, line.length = length
  last_pos : 0 < last.length
  last_le : last.length ≤ length
  no_feed : ∀ line ∈ full ++ [last], lineFeed ∉ line

theorem filter_wrapped {length : Nat} (pos : 0 < length) {bytes : List UInt8}
    (no_feed : lineFeed ∉ bytes) : (wrapped length bytes).filter (· != lineFeed) = bytes := by
  obtain ⟨full, last, lines, whole, -⟩ := fullLines_layout pos bytes
  have flat : (full ++ [last]).flatten = bytes := by simpa using whole
  rw [wrapped, lines, filter_intercalate, flat, List.filter_eq_self]
  intro b member
  exact bne_iff_ne.mpr fun feed => no_feed (feed ▸ member)

theorem wrapped_inLines {length : Nat} (pos : 0 < length) {bytes : List UInt8}
    (some_byte : bytes ≠ []) (no_feed : lineFeed ∉ bytes) :
    ∃ full last, InLines length (wrapped length bytes) full last := by
  obtain ⟨full, last, lines, whole, full_length, last_le, begun⟩ := fullLines_layout pos bytes
  have flat : (full ++ [last]).flatten = bytes := by simpa using whole
  refine ⟨full, last, by rw [wrapped, lines], full_length, ?_, last_le, ?_⟩
  · exact List.length_pos_iff.mpr fun nil => some_byte (begun nil)
  · intro line member feed
    exact no_feed (flat ▸ List.mem_flatten_of_mem member feed)

/-- However a byte sequence is cut into pieces, writing them comes to its lines. -/
theorem LineWriter.writeAll_eq_wrapped {length : Nat} (pos : 0 < length)
    (pieces : List (List UInt8)) :
    LineWriter.writeAll length pos pieces = wrapped length pieces.flatten := by
  have nothing : (LineWriter.start length pos).Shows length [] [] := ⟨rfl, by simp, rfl, rfl⟩
  obtain ⟨full, current, shown, begun, whole⟩ := nothing.acceptEach (fun _ => rfl) pieces
  rw [LineWriter.writeAll, shown.written, wrapped,
    ← fullLines_of_flatten pos full current shown.full_length begun shown.current_le, whole]
  rfl

end IndexFeed
