/-!
The lines of a text. A line ends at a line feed, which is not part of it, nor is one carriage return
directly before the line feed; what follows the last line feed is a line if it is not empty.
-/

namespace IndexFeed.Text

/-- A line without the carriage return that ended it, given the last character first. -/
private def closeLine : List Char → List Char
  | '\r' :: line => line.reverse
  | line => line.reverse

/-- Splits the rest of a text, of whose current line the characters `line` have been read and whose
earlier lines are `done`, both backwards. -/
def linesAfter (done : List (List Char)) (line : List Char) : List Char → List (List Char)
  | [] => (if line.isEmpty then done else line.reverse :: done).reverse
  | '\n' :: rest => linesAfter (closeLine line :: done) [] rest
  | c :: rest => linesAfter done (c :: line) rest

def lines (cs : List Char) : List (List Char) :=
  linesAfter [] [] cs

private theorem closeLine_eq (line : List Char) :
    line.reverse = closeLine line ∨ line.reverse = closeLine line ++ ['\r'] := by
  unfold closeLine
  split
  · exact .inr List.reverse_cons
  · exact .inl rfl

theorem linesAfter_other {c : Char} (other : c ≠ '\n') (done : List (List Char))
    (line rest : List Char) :
    linesAfter done line (c :: rest) = linesAfter done (c :: line) rest := by
  rw [linesAfter]
  exact other

theorem linesAfter_done (done : List (List Char)) (line cs : List Char) :
    linesAfter done line cs = done.reverse ++ linesAfter [] line cs := by
  induction cs generalizing done line with
  | nil =>
      simp only [linesAfter]
      split <;> simp
  | cons c rest ih =>
      by_cases feed : c = '\n'
      · subst feed
        rw [linesAfter, linesAfter, ih, ih [closeLine line]]
        simp
      · rw [linesAfter_other feed, linesAfter_other feed, ih]

theorem linesAfter_append {line : List Char} (whole : '\n' ∉ line) (seen rest : List Char) :
    linesAfter [] seen (line ++ rest) = linesAfter [] (line.reverse ++ seen) rest := by
  induction line generalizing seen with
  | nil => rfl
  | cons c line ih =>
      rw [List.mem_cons, not_or] at whole
      rw [List.cons_append, linesAfter_other (Ne.symm whole.1), ih whole.2]
      simp

/-- What stands in front of a line feed is the first line, up to a carriage return at its end. -/
theorem lines_line {line : List Char} (whole : '\n' ∉ line) (rest : List Char) :
    ∃ ended, (line = ended ∨ line = ended ++ ['\r']) ∧
      lines (line ++ '\n' :: rest) = ended :: lines rest := by
  refine ⟨closeLine line.reverse, by simpa using closeLine_eq line.reverse, ?_⟩
  rw [lines, linesAfter_append whole, linesAfter, linesAfter_done]
  simp [lines]

end IndexFeed.Text
