/-!
JSON values. Integers that fit into 64 bits, with or without a sign, are kept exactly; every other
number is a floating-point number. The members of an object stand in the order in which they are
written, a repeated name included.
-/

namespace IndexFeed

inductive Json where
  | null
  | boolean (flag : Bool)
  | integer (n : Int)
  | real (x : Float)
  | text (s : String)
  | list (items : List Json)
  | object (members : List (String × Json))

namespace Json

def isSpace (c : Char) : Bool :=
  c == ' ' || c == '\n' || c == '\t' || c == '\r'

end Json

end IndexFeed
