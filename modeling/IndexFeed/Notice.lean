/-!
Notices about the course of a run. A notice is a message with named values, which stand as they are:
a value that holds a line feed makes its notice go over several lines.
-/

namespace IndexFeed

/-- How much a notice matters. Details are told only to those who ask for them. -/
inductive NoticeLevel where
  | detail
  | information
  | warning
  deriving Repr, DecidableEq

def NoticeLevel.mark : NoticeLevel → String
  | detail => "DEBUG"
  | information => " INFO"
  | warning => " WARN"

structure Notice where
  level : NoticeLevel
  message : String
  values : List (String × String) := []
  deriving Repr, DecidableEq

namespace Notice

def text (n : Notice) : String :=
  n.message ++ String.join (n.values.map fun (name, value) => " " ++ name ++ "=" ++ value)

def line (stamp : String) (n : Notice) : String :=
  stamp ++ " " ++ n.level.mark ++ " " ++ n.text ++ "\n"

def isToldTo (verbose : Bool) (n : Notice) : Bool :=
  verbose || n.level != .detail

end Notice

end IndexFeed
