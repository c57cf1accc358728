import IndexFeed.Decimal.Integer
import IndexFeed.Text.Lines

/-!
Where two texts begin to differ, told by the first pair of lines that are not the same.
-/

namespace IndexFeed.Text

def shownLine : Option (List Char) → String
  | some line => String.ofList line
  | none => "<end>"

def differenceAt (number : Nat) (expected actual : Option (List Char)) : String :=
  "first difference at line " ++ Decimal.ofNat number ++ ":\n  expected: " ++ shownLine expected
    ++ "\n  actual:   " ++ shownLine actual

def differenceFrom (number : Nat) : List (List Char) → List (List Char) → String
  | [], [] => "texts differ only in trailing newlines"
  | e :: expected, a :: actual =>
    if e = a then differenceFrom (number + 1) expected actual
    else differenceAt number (some e) (some a)
  | e :: _, [] => differenceAt number (some e) none
  | [], a :: _ => differenceAt number none (some a)

def difference (expected actual : String) : String :=
  differenceFrom 1 (lines expected.toList) (lines actual.toList)

end IndexFeed.Text
