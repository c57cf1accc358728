import IndexFeed.Text.Search
import Mathlib.Data.List.Infix
import Mathlib.Data.List.TakeDrop

/-!
Words in a text. A text that is cut at some mark holds a word without the mark if one of its parts
does; a word with a mark in it stands where the mark does. A text that a mark passes over, whatever
is written behind it, is left as it is by searches and replacements.
-/

namespace IndexFeed.Text

theorem occursIn_iff {needle cs : List Char} : occursIn needle cs = true ↔ needle <:+: cs := by
  induction cs with
  | nil => simp [occursIn]
  | cons c rest ih => simp [occursIn, List.infix_cons_iff, ih]

theorem contains_iff {s needle : String} :
    contains s needle = true ↔ needle.toList <:+: s.toList := occursIn_iff

section Unmarked

variable {mark : Char} {word : List Char}

theorem prefix_append_mark (free : mark ∉ word) (front back : List Char) :
    word <+: front ++ mark :: back ↔ word <+: front := by
  induction front generalizing word with
  | nil =>
      cases word with
      | nil => simp
      | cons c word =>
          rw [List.mem_cons, not_or] at free
          simp [List.cons_prefix_cons, Ne.symm free.1]
  | cons d front ih =>
      cases word with
      | nil => simp
      | cons c word =>
          rw [List.mem_cons, not_or] at free
          rw [List.cons_append, List.cons_prefix_cons, List.cons_prefix_cons, ih free.2]

/-- A word without the mark stands on one side of it. -/
theorem infix_append_mark (free : mark ∉ word) (front back : List Char) :
    word <:+: front ++ mark :: back ↔ word <:+: front ∨ word <:+: back := by
  induction front with
  | nil =>
      have begins : word <+: mark :: back ↔ word <+: [] := prefix_append_mark free [] back
      rw [List.nil_append, List.infix_cons_iff, begins, List.prefix_nil, List.infix_nil]
  | cons d front ih =>
      have begins := prefix_append_mark free (d :: front) back
      rw [List.cons_append] at begins
      rw [List.cons_append, List.infix_cons_iff, List.infix_cons_iff, begins, ih, or_assoc]

/-- A word without the mark stands in one of the parts that the mark holds together. -/
theorem infix_intercalate (free : mark ∉ word) (some_char : word ≠ []) (parts : List (List Char)) :
    word <:+: [mark].intercalate parts ↔ ∃ part ∈ parts, word <:+: part := by
  induction parts with
  | nil => simp [some_char]
  | cons first rest ih =>
      cases rest with
      | nil => simp
      | cons second rest =>
          rw [List.intercalate_cons_cons, List.append_assoc, List.singleton_append,
            infix_append_mark free, ih]
          simp

end Unmarked

/-- A word that cannot begin in the front part occurs in the back part or not at all. -/
theorem infix_append_of_not_mem {c : Char} {word front : List Char} (free : c ∉ front)
    (back : List Char) : c :: word <:+: front ++ back ↔ c :: word <:+: back := by
  induction front with
  | nil => rfl
  | cons d front ih =>
      rw [List.mem_cons, not_or] at free
      have later : ¬ c :: word <+: d :: (front ++ back) := by
        rw [List.cons_prefix_cons]
        exact fun same => free.1 same.1
      rw [List.cons_append, List.infix_cons_iff, ih free.2]
      exact or_iff_right later

theorem prefix_cut {mark : Char} {before after front back : List Char} (unmarked : mark ∉ before)
    (first : mark ∉ front) :
    before ++ mark :: after <+: front ++ mark :: back ↔ before = front ∧ after <+: back := by
  induction before generalizing front with
  | nil =>
      cases front with
      | nil => simp [List.cons_prefix_cons]
      | cons d front =>
          rw [List.mem_cons, not_or] at first
          simp [List.cons_prefix_cons, first.1]
  | cons c before ih =>
      rw [List.mem_cons, not_or] at unmarked
      cases front with
      | nil => simp [List.cons_prefix_cons, Ne.symm unmarked.1]
      | cons d front =>
          rw [List.mem_cons, not_or] at first
          rw [List.cons_append, List.cons_append, List.cons_prefix_cons, ih unmarked.2 first.2,
            List.cons.injEq, and_assoc]

/-- Where a word with a mark in it can stand in a text that is cut at its first mark. -/
theorem infix_cut {mark : Char} {before after front back : List Char} (unmarked : mark ∉ before)
    (first : mark ∉ front) :
    before ++ mark :: after <:+: front ++ mark :: back ↔
      (before <:+ front ∧ after <+: back) ∨ before ++ mark :: after <:+: back := by
  induction front with
  | nil =>
      rw [List.nil_append, List.infix_cons_iff, List.suffix_nil]
      exact or_congr_left (prefix_cut unmarked first)
  | cons d front ih =>
      have begins : before ++ mark :: after <+: d :: front ++ mark :: back ↔
          before = d :: front ∧ after <+: back := prefix_cut unmarked first
      rw [List.mem_cons, not_or] at first
      rw [List.cons_append, List.infix_cons_iff, ← List.cons_append, begins, ih first.2,
        List.suffix_cons_iff, ← or_assoc, or_and_right]

/-! ## The last occurrence of a character -/

theorem passed_of_not_mem {mark : Char} {cs : List Char} (free : mark ∉ cs) :
    ∀ c ∈ cs.reverse, (c != mark) = true := by
  intro c member
  rw [bne_iff_ne]
  rintro rfl
  exact free (List.mem_reverse.mp member)

theorem splitLast_append {mark : Char} {back : List Char} (last : mark ∉ back)
    (front : List Char) : splitLast mark (front ++ mark :: back) = some (front, back) := by
  have passed := passed_of_not_mem last
  have reversed : (front ++ mark :: back).reverse = back.reverse ++ mark :: front.reverse := by simp
  rw [splitLast, reversed, List.span_eq_takeWhile_dropWhile, List.takeWhile_append_of_pos passed,
    List.dropWhile_append_of_pos passed]
  simp

theorem splitLast_of_not_mem {mark : Char} {cs : List Char} (free : mark ∉ cs) :
    splitLast mark cs = none := by
  have passed : cs.reverse.dropWhile (· != mark) = [] := by
    rw [← List.append_nil cs.reverse, List.dropWhile_append_of_pos (passed_of_not_mem free),
      List.dropWhile_nil]
  rw [splitLast, List.span_eq_takeWhile_dropWhile, passed]

theorem splitLast_eq_some_iff {mark : Char} {cs front back : List Char} :
    splitLast mark cs = some (front, back) ↔ cs = front ++ mark :: back ∧ mark ∉ back := by
  constructor
  · intro cut
    by_cases marked : mark ∈ cs
    · obtain ⟨after, before, reversed, last⟩ :=
        List.eq_append_cons_of_mem (List.mem_reverse.mpr marked)
      have chars : cs = before.reverse ++ mark :: after.reverse := by
        rw [← List.reverse_reverse cs, reversed]
        simp
      have last : mark ∉ after.reverse := fun member => last (List.mem_reverse.mp member)
      rw [chars, splitLast_append last, Option.some.injEq, Prod.mk.injEq] at cut
      rw [← cut.1, ← cut.2]
      exact ⟨chars, last⟩
    · rw [splitLast_of_not_mem marked] at cut
      cases cut
  · rintro ⟨rfl, last⟩
    exact splitLast_append last front

/-! ## The first occurrence of a word -/

theorem not_prefix_append {mark front : List Char} (begins : ¬ mark <+: front)
    (continues : ¬ front <+: mark) (back : List Char) : ¬ mark <+: front ++ back := by
  intro found
  obtain longer | shorter :=
    List.prefix_or_prefix_of_prefix found (List.prefix_append front back)
  · exact begins longer
  · exact continues shorter

/-- Nowhere in the text does `mark` begin, whatever stands behind the text. -/
def misses (mark : List Char) : List Char → Bool
  | [] => true
  | c :: rest =>
    !mark.isPrefixOf (c :: rest) && !(c :: rest).isPrefixOf mark && misses mark rest

section Misses

variable {mark front back : List Char}

theorem misses_cons {c : Char} : misses mark (c :: front) = true ↔
    ¬ mark <+: c :: front ∧ ¬ c :: front <+: mark ∧ misses mark front = true := by
  simp [misses, and_assoc, ← Bool.not_eq_true]

theorem not_isPrefixOf_append {c : Char} (missed : misses mark (c :: front) = true)
    (rest : List Char) : mark.isPrefixOf (c :: (front ++ rest)) = false := by
  obtain ⟨begins, continues, -⟩ := misses_cons.mp missed
  rw [← Bool.not_eq_true, List.isPrefixOf_iff_prefix]
  exact not_prefix_append begins continues rest

theorem misses_append (first : misses mark front = true) (second : misses mark back = true) :
    misses mark (front ++ back) = true := by
  induction front with
  | nil => exact second
  | cons c front ih =>
      obtain ⟨begins, continues, later⟩ := misses_cons.mp first
      refine misses_cons.mpr ⟨not_prefix_append begins continues back, ?_, ih later⟩
      exact fun longer => continues ((List.prefix_append (c :: front) back).trans longer)

theorem misses_of_not_mem {m : Char} (free : m ∉ front) : misses (m :: mark) front = true := by
  induction front with
  | nil => rfl
  | cons c front ih =>
      rw [List.mem_cons, not_or] at free
      refine misses_cons.mpr ⟨?_, ?_, ih free.2⟩
      · exact fun begins => free.1 (List.cons_prefix_cons.mp begins).1
      · exact fun begins => free.1 (List.cons_prefix_cons.mp begins).1.symm

theorem splitAfter_append (missed : misses mark front = true) (seen rest : List Char) :
    splitAfter mark seen (front ++ rest) = splitAfter mark (front.reverse ++ seen) rest := by
  induction front generalizing seen with
  | nil => rfl
  | cons c front ih =>
      have passed := not_isPrefixOf_append missed rest
      rw [List.cons_append, splitAfter, passed, if_neg Bool.false_ne_true,
        ih (misses_cons.mp missed).2.2]
      simp

theorem splitFirst_append (some_char : mark ≠ []) (missed : misses mark front = true)
    (rest : List Char) : splitFirst mark (front ++ (mark ++ rest)) = some (front, rest) := by
  obtain ⟨m, more, rfl⟩ := List.exists_cons_of_ne_nil some_char
  have found : (m :: more).isPrefixOf (m :: (more ++ rest)) = true :=
    List.isPrefixOf_iff_prefix.mpr (List.prefix_append (m :: more) rest)
  rw [splitFirst, splitAfter_append missed, List.cons_append, splitAfter, if_pos found]
  simp

theorem replaceAfter_append (missed : misses mark front = true) (by_ done rest : List Char) :
    replaceAfter mark by_ done (front ++ rest)
      = replaceAfter mark by_ (front.reverse ++ done) rest := by
  induction front generalizing done with
  | nil => rfl
  | cons c front ih =>
      have passed := not_isPrefixOf_append missed rest
      rw [List.cons_append, replaceAfter, passed, Bool.false_and, if_neg Bool.false_ne_true,
        ih (misses_cons.mp missed).2.2]
      simp

theorem replaceAfter_mark (some_char : mark ≠ []) (by_ done rest : List Char) :
    replaceAfter mark by_ done (mark ++ rest)
      = replaceAfter mark by_ (by_.reverse ++ done) rest := by
  obtain ⟨m, more, rfl⟩ := List.exists_cons_of_ne_nil some_char
  have found : (m :: more).isPrefixOf (m :: (more ++ rest)) = true :=
    List.isPrefixOf_iff_prefix.mpr (List.prefix_append (m :: more) rest)
  rw [List.cons_append, replaceAfter, found]
  simp

/-- In a text written item by item, only items written as `mark` are replaced, if `mark` passes over
all others. -/
theorem replaceAll_flatMap {α : Type} {by_ : List Char} (some_char : mark ≠ [])
    {write write' : α → List Char} {items : List α}
    (each : ∀ a ∈ items, (write a = mark ∧ write' a = by_) ∨
      (write' a = write a ∧ misses mark (write a) = true)) :
    replaceAll mark by_ (items.flatMap write) = items.flatMap write' := by
  have replaced (done : List Char) :
      replaceAfter mark by_ done (items.flatMap write) = done.reverse ++ items.flatMap write' := by
    induction items generalizing done with
    | nil => simp [replaceAfter]
    | cons a rest ih =>
        rw [List.forall_mem_cons] at each
        rw [List.flatMap_cons, List.flatMap_cons]
        obtain ⟨marked, written⟩ | ⟨same, missed⟩ := each.1
        · rw [marked, written, replaceAfter_mark some_char, ih each.2]
          simp
        · rw [same, replaceAfter_append missed, ih each.2]
          simp
  exact replaced []

end Misses

end IndexFeed.Text
