/-!
Letter case among the ASCII letters only. Keywords of the wire protocol are recognised in any case,
and no character outside ASCII is ever taken for one of their letters.
-/

namespace IndexFeed.Text

/-- Lowers the ASCII letters and keeps every other character. -/
def asciiLower (s : String) : String :=
  String.ofList (s.toList.map Char.toLower)

def sameIgnoringCase (a b : String) : Bool :=
  asciiLower a == asciiLower b

end IndexFeed.Text
