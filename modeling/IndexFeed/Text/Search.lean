/-!
Searching a text for another one: containment, splitting at the first occurrence, replacing every
occurrence, and splitting at the last occurrence of a character.
-/

namespace IndexFeed.Text

def occursIn (needle : List Char) : List Char → Bool
  | [] => needle.isEmpty
  | c :: rest => needle.isPrefixOf (c :: rest) || occursIn needle rest

def contains (s needle : String) : Bool :=
  occursIn needle.toList s.toList

/-- The parts of a text before and after the first occurrence of `mark`, where `seen` is what has
been passed already, the last character first. -/
def splitAfter (mark seen : List Char) : List Char → Option (List Char × List Char)
  | [] => if mark.isEmpty then some (seen.reverse, []) else none
  | c :: rest =>
    if mark.isPrefixOf (c :: rest) then some (seen.reverse, (c :: rest).drop mark.length)
    else splitAfter mark (c :: seen) rest

def splitFirst (mark cs : List Char) : Option (List Char × List Char) :=
  splitAfter mark [] cs

/-- The parts of a text before and after the last occurrence of `mark`. -/
def splitLast (mark : Char) (cs : List Char) : Option (List Char × List Char) :=
  match cs.reverse.span (· != mark) with
  | (after, _ :: before) => some (before.reverse, after.reverse)
  | (_, []) => none

/-- Replaces the occurrences of `mark`, from left to right and without overlaps; what has been
written so far is `done`, the last character first. -/
def replaceAfter (mark by_ done : List Char) : List Char → List Char
  | [] => done.reverse
  | c :: rest =>
    if mark.isPrefixOf (c :: rest) && !mark.isEmpty then
      replaceAfter mark by_ (by_.reverse ++ done) (rest.drop (mark.length - 1))
    else replaceAfter mark by_ (c :: done) rest
termination_by cs => cs.length
decreasing_by all_goals (simp only [List.length_drop, List.length_cons]; omega)

def replaceAll (mark by_ cs : List Char) : List Char :=
  replaceAfter mark by_ [] cs

end IndexFeed.Text
