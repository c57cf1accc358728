import IndexFeed.Inspection
import IndexFeed.Proofs.Text.Search

/-!
Counting line by line. A line counts by how it begins, so a text that holds no bracket counts for
nothing, and a text that is written behind a start tag counts as the first line of that tag.
-/

namespace IndexFeed

namespace Inspection

/-- The beginnings of the lines that matter. -/
def starts : List String := ["<record ", "</record>", "<acl", "<content "]

def showsDelete (line : List Char) : Bool := Text.occursIn " action=\"delete\"".toList line

/-- Whatever follows, a line with one beginning does not have the other one. -/
def differ (start : String) (beginning : List Char) : Bool :=
  !start.toList.isPrefixOf beginning && !beginning.isPrefixOf start.toList

theorem startsWith_append {start : String} {beginning : List Char}
    (h : start.toList.isPrefixOf beginning = true) (line : List Char) :
    startsWith start (beginning ++ line) = true := by
  rw [startsWith, List.isPrefixOf_iff_prefix] at *
  exact h.trans (List.prefix_append beginning line)

theorem not_startsWith_append {start : String} {beginning : List Char}
    (h : differ start beginning = true) (line : List Char) :
    startsWith start (beginning ++ line) = false := by
  simp only [differ, Bool.and_eq_true, Bool.not_eq_true', ← Bool.not_eq_true,
    List.isPrefixOf_iff_prefix] at h
  rw [startsWith, ← Bool.not_eq_true, List.isPrefixOf_iff_prefix]
  exact Text.not_prefix_append h.1 h.2 line

theorem startsWith_carriageReturn {start : String} (member : start ∈ starts) (line : List Char) :
    startsWith start (line ++ ['\r']) = startsWith start line := by
  have free : ∀ start ∈ starts, '\r' ∉ start.toList := by decide
  rw [startsWith, startsWith, Bool.eq_iff_iff, List.isPrefixOf_iff_prefix,
    List.isPrefixOf_iff_prefix]
  exact Text.prefix_append_mark (free start member) line []

theorem showsDelete_carriageReturn (line : List Char) :
    showsDelete (line ++ ['\r']) = showsDelete line := by
  rw [showsDelete, showsDelete, Bool.eq_iff_iff, Text.occursIn_iff, Text.occursIn_iff,
    Text.infix_append_mark (by decide) line []]
  simp

def isOther (beginning : List Char) : Bool := starts.all fun start => differ start beginning

theorem not_startsWith_of_isOther {beginning : List Char} (h : isOther beginning = true)
    (line : List Char) {start : String} (member : start ∈ starts) :
    startsWith start (beginning ++ line) = false :=
  not_startsWith_append (List.all_eq_true.mp h start member) line

theorem isOther_of_ne {c : Char} (h : c ≠ '<') : isOther [c] = true := by
  have bracket : ∀ start ∈ starts, ∃ more, start.toList = '<' :: more := by
    simp [starts]
  rw [isOther, List.all_eq_true]
  intro start member
  obtain ⟨more, chars⟩ := bracket start member
  simp [differ, chars, List.isPrefixOf, h, Ne.symm h]

namespace Counts

/-- What the start tag of a record does to the counts. -/
def enter (c : Counts) (delete : Bool) : Counts :=
  { c with inRecord := true, records := c.records + 1, deletes := c.deletes + delete.toNat }

def leave (c : Counts) : Counts := { c with inRecord := false }

def meetAcl (c : Counts) : Counts := { c with acls := c.acls + (!c.inRecord).toNat }

def meetContent (c : Counts) : Counts := { c with contents := c.contents + 1 }

theorem line_record (c : Counts) (more : List Char) :
    c.line ("<record ".toList ++ more) = c.enter (showsDelete ("<record ".toList ++ more)) := by
  rw [Counts.line, if_pos (startsWith_append (by decide) more), ← showsDelete]
  cases showsDelete ("<record ".toList ++ more) <;> rfl

theorem line_recordEnd (c : Counts) (more : List Char) :
    c.line ("</record>".toList ++ more) = c.leave := by
  rw [Counts.line, not_startsWith_append (by decide), if_neg Bool.false_ne_true,
    if_pos (startsWith_append (by decide) more)]
  rfl

theorem line_acl (c : Counts) (more : List Char) :
    c.line ("<acl".toList ++ more) = c.meetAcl := by
  rw [Counts.line, not_startsWith_append (by decide), if_neg Bool.false_ne_true,
    not_startsWith_append (by decide), if_neg Bool.false_ne_true, startsWith_append (by decide),
    not_startsWith_append (by decide), if_neg Bool.false_ne_true, Bool.true_and]
  obtain ⟨records, deletes, acls, contents, inRecord⟩ := c
  cases inRecord <;> rfl

theorem line_content (c : Counts) (more : List Char) :
    c.line ("<content ".toList ++ more) = c.meetContent := by
  rw [Counts.line, not_startsWith_append (by decide), if_neg Bool.false_ne_true,
    not_startsWith_append (by decide), if_neg Bool.false_ne_true,
    not_startsWith_append (by decide), Bool.false_and, if_neg Bool.false_ne_true,
    if_pos (startsWith_append (by decide) more)]
  rfl

theorem line_carriageReturn (c : Counts) (line : List Char) :
    c.line (line ++ ['\r']) = c.line line := by
  have same {start : String} (member : start ∈ starts) := startsWith_carriageReturn member line
  rw [Counts.line, Counts.line, ← showsDelete, ← showsDelete, showsDelete_carriageReturn,
    @same "<record " (by decide), @same "</record>" (by decide), @same "<acl" (by decide),
    @same "<content " (by decide)]

end Counts

/-- A line that changes no counts. -/
def IsQuiet (line : List Char) : Prop := ∀ c : Counts, c.line line = c

theorem isQuiet_nil : IsQuiet [] := fun _ => rfl

theorem isQuiet_append {beginning : List Char} (h : isOther beginning = true) (line : List Char) :
    IsQuiet (beginning ++ line) := by
  intro c
  have misses {start : String} (member : start ∈ starts) :=
    not_startsWith_of_isOther h line member
  rw [Counts.line, @misses "<record " (by decide), @misses "</record>" (by decide),
    @misses "<acl" (by decide), @misses "<content " (by decide)]
  rfl

theorem isQuiet_of_isOther {line : List Char} (h : isOther line = true) : IsQuiet line := by
  simpa using isQuiet_append h []

theorem isQuiet_text {text tail : List Char} (free : '<' ∉ text) (quiet : IsQuiet tail) :
    IsQuiet (text ++ tail) := by
  cases text with
  | nil => exact quiet
  | cons c text =>
      rw [List.mem_cons, not_or] at free
      exact isQuiet_append (isOther_of_ne (Ne.symm free.1)) (text ++ tail)

/-- What stands in front of the first line feed. -/
def firstLine (cs : List Char) : List Char := cs.takeWhile (· != '\n')

theorem prefix_firstLine (cs : List Char) : firstLine cs <+: cs := List.takeWhile_prefix _

theorem firstLine_append {line : List Char} (whole : '\n' ∉ line) (rest : List Char) :
    firstLine (line ++ rest) = line ++ firstLine rest := by
  apply List.takeWhile_append_of_pos
  intro c member
  exact bne_iff_ne.mpr fun feed => whole (feed ▸ member)

theorem firstLine_lineFeed (rest : List Char) : firstLine ('\n' :: rest) = [] := rfl

theorem firstLine_concat (cs : List Char) : firstLine (cs ++ ['\n']) = firstLine cs := by
  induction cs with
  | nil => rfl
  | cons c rest ih =>
      rw [firstLine, firstLine] at *
      rw [List.cons_append, List.takeWhile_cons, List.takeWhile_cons, ih]

theorem firstLine_of_not_mem {line : List Char} (whole : '\n' ∉ line) : firstLine line = line := by
  simpa [firstLine] using firstLine_append whole []

namespace Counts

def scan (c : Counts) (cs : List Char) : Counts := (Text.lines cs).foldl line c

theorem scan_nil (c : Counts) : c.scan [] = c := rfl

theorem scan_line {line : List Char} (whole : '\n' ∉ line) (c : Counts) (rest : List Char) :
    c.scan (line ++ '\n' :: rest) = (c.line line).scan rest := by
  obtain ⟨ended, cut, lines⟩ := Text.lines_line whole rest
  rw [scan, lines, List.foldl_cons, scan]
  obtain rfl | rfl := cut
  · rfl
  · rw [line_carriageReturn]

/-- Text without a bracket changes no counts, whatever lines it is broken into. -/
theorem scan_text {text tail : List Char} (free : '<' ∉ text) (quiet : IsQuiet tail)
    (whole : '\n' ∉ tail) (c : Counts) (rest : List Char) :
    c.scan (text ++ (tail ++ '\n' :: rest)) = c.scan rest := by
  induction size : text.length using Nat.strongRecOn generalizing text with
  | ind n ih =>
      by_cases feed : '\n' ∈ text
      · obtain ⟨line, more, rfl, unbroken⟩ := List.eq_append_cons_of_mem feed
        rw [List.mem_append, List.mem_cons, not_or, not_or] at free
        have skipped : c.line line = c := by
          simpa using isQuiet_text free.1 isQuiet_nil c
        rw [List.append_assoc, List.cons_append, scan_line unbroken, skipped]
        refine ih more.length ?_ free.2.2 rfl
        rw [← size, List.length_append, List.length_cons]
        omega
      · have unbroken : '\n' ∉ text ++ tail := by simp [feed, whole]
        rw [← List.append_assoc, scan_line unbroken, isQuiet_text free quiet c]

/-- A start tag with the text behind it counts as the first line of both. -/
theorem scan_block {beginning text tail : List Char} (first : '\n' ∉ beginning)
    (free : '<' ∉ text) (quiet : IsQuiet tail) (whole : '\n' ∉ tail) (c : Counts)
    (rest : List Char) :
    c.scan (beginning ++ (text ++ (tail ++ '\n' :: rest)))
      = (c.line (beginning ++ firstLine (text ++ tail))).scan rest := by
  by_cases feed : '\n' ∈ text
  · obtain ⟨line, more, rfl, unbroken⟩ := List.eq_append_cons_of_mem feed
    rw [List.mem_append, List.mem_cons, not_or, not_or] at free
    have joined : '\n' ∉ beginning ++ line := by simp [first, unbroken]
    rw [List.append_assoc, List.cons_append, ← List.append_assoc, scan_line joined,
      scan_text free.2.2 quiet whole, List.append_assoc, firstLine_append unbroken,
      List.cons_append, firstLine_lineFeed, List.append_nil]
  · have unbroken : '\n' ∉ text ++ tail := by simp [feed, whole]
    have joined : '\n' ∉ beginning ++ (text ++ tail) := by simp [first, feed, whole]
    rw [firstLine_of_not_mem unbroken, ← scan_line joined]
    simp only [List.append_assoc]

end Counts

end Inspection

end IndexFeed
