import IndexFeed.Protocol

/-!
Words that are looked up in a text. No two words of one vocabulary are spelt the same, so a text
names one word at most.
-/

namespace IndexFeed

/-- A lookup finds the word that a text spells, if blanks around it and ASCII case do not matter. -/
theorem lookUp_eq_some_iff {α : Type} {wire : α → String} {all : List α} {tag : String} {x : α}
    (member : x ∈ all) (lower : ∀ y ∈ all, Text.asciiLower (wire y) = wire y)
    (distinct : ∀ y ∈ all, wire y = wire x → y = x) :
    lookUp wire all tag = some x ↔ Text.asciiLower (Text.trim tag) = wire x := by
  have spells {y : α} (listed : y ∈ all) :
      Text.sameIgnoringCase (wire y) (Text.trim tag) = true ↔
        Text.asciiLower (Text.trim tag) = wire y := by
    rw [Text.sameIgnoringCase, beq_iff_eq, lower y listed, eq_comm]
  rw [lookUp]
  generalize Text.trim tag = word at spells
  constructor
  · intro found
    have wanted := List.find?_some found
    exact (spells member).mp wanted
  · intro spelt
    cases found : all.find? fun y => Text.sameIgnoringCase (wire y) word with
    | none => exact absurd ((spells member).mpr spelt) (List.find?_eq_none.mp found x member)
    | some y =>
        have listed := List.mem_of_find?_eq_some found
        have wanted := List.find?_some found
        have same := (spells listed).mp wanted
        rw [distinct y listed (same.symm.trans spelt)]

namespace FeedType

/-- The text names the kind of feed, with blanks around it and in any case. -/
def IsNamedBy (type : FeedType) (tag : String) : Prop :=
  Text.asciiLower (Text.trim tag) = type.wire

theorem find?_eq_some_iff {tag : String} {type : FeedType} :
    find? tag = some type ↔ type.IsNamedBy tag := by
  have listed : type ∈ all := by cases type <;> decide
  have lower : ∀ type ∈ all, Text.asciiLower type.wire = type.wire := by decide
  have distinct : ∀ type ∈ all, ∀ other ∈ all, other.wire = type.wire → other = type := by decide
  exact lookUp_eq_some_iff listed lower (distinct type listed)

end FeedType

end IndexFeed
