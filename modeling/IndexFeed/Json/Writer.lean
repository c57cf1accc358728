import IndexFeed.Decimal.Integer
import IndexFeed.Decimal.Shortest
import IndexFeed.Json

/-!
Writing JSON over several lines. Every item and every member stands on a line of its own, two blanks
further in than its container; empty containers take no line.
-/

namespace IndexFeed.Json

def controlEscape (c : Char) : List Char :=
  let hex := Nat.toDigits 16 c.toNat
  ['\\', 'u'] ++ List.replicate (4 - hex.length) '0' ++ hex

def writtenChar (c : Char) : List Char :=
  if c = '"' ∨ c = '\\' then ['\\', c]
  else if c = '\x08' then ['\\', 'b']
  else if c = '\x0c' then ['\\', 'f']
  else if c = '\n' then ['\\', 'n']
  else if c = '\r' then ['\\', 'r']
  else if c = '\t' then ['\\', 't']
  else if c.toNat < 0x20 then controlEscape c
  else [c]

def writtenText (s : String) : String :=
  String.ofList ('"' :: s.toList.flatMap writtenChar ++ ['"'])

def newLine (depth : Nat) : String :=
  "\n" ++ String.ofList (List.replicate (2 * depth) ' ')

mutual

def prettyAt (depth : Nat) : Json → String
  | .null => "null"
  | .boolean flag => if flag then "true" else "false"
  | .integer n => Decimal.ofInt n
  | .real x => Decimal.ofFloat x
  | .text s => writtenText s
  | .list [] => "[]"
  | .list (item :: items) =>
    "[" ++ newLine (depth + 1) ++ prettyAt (depth + 1) item ++ prettyItems (depth + 1) items
      ++ newLine depth ++ "]"
  | .object [] => "\x7b\x7d"
  | .object ((name, j) :: members) =>
    "\x7b" ++ newLine (depth + 1) ++ writtenText name ++ ": " ++ prettyAt (depth + 1) j
      ++ prettyMembers (depth + 1) members ++ newLine depth ++ "\x7d"

def prettyItems (depth : Nat) : List Json → String
  | [] => ""
  | item :: items => "," ++ newLine depth ++ prettyAt depth item ++ prettyItems depth items

def prettyMembers (depth : Nat) : List (String × Json) → String
  | [] => ""
  | (name, j) :: members =>
    "," ++ newLine depth ++ writtenText name ++ ": " ++ prettyAt depth j
      ++ prettyMembers depth members

end

def pretty (j : Json) : String :=
  prettyAt 0 j

end IndexFeed.Json
