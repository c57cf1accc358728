import IndexFeed.Json.Number

/-!
The tokens of a JSON text: the marks between values, texts with their escapes resolved, and the
values that are written as one word. Only spaces may stand between tokens.
-/

namespace IndexFeed.Json

inductive Token where
  | openList
  | closeList
  | openObject
  | closeObject
  | comma
  | colon
  | text (s : String)
  | word (j : Json)

def hexValue? (c : Char) : Option Nat :=
  if '0' ≤ c && c ≤ '9' then some (c.toNat - 48)
  else if 'a' ≤ c && c ≤ 'f' then some (c.toNat - 87)
  else if 'A' ≤ c && c ≤ 'F' then some (c.toNat - 55)
  else none

def fourHex? : List Char → Option Nat
  | a :: b :: c :: d :: _ => do
    some ((((← hexValue? a) * 16 + (← hexValue? b)) * 16 + (← hexValue? c)) * 16 + (← hexValue? d))
  | _ => none

def lowerHalf? : List Char → Option Nat
  | '\\' :: 'u' :: rest =>
    (fourHex? rest).bind fun n =>
      if 0xDC00 ≤ n && n ≤ 0xDFFF then some (n - 0xDC00) else none
  | _ => none

/-- The character that an escape stands for, and how many characters the escape has. A half of a
character by itself is none. -/
def codeEscape? (cs : List Char) : Option (Char × Nat) :=
  (fourHex? cs).bind fun n =>
    if 0xD800 ≤ n && n ≤ 0xDBFF then
      (lowerHalf? (cs.drop 4)).map fun low =>
        (Char.ofNat (0x10000 + (n - 0xD800) * 0x400 + low), 10)
    else if 0xDC00 ≤ n && n ≤ 0xDFFF then none
    else some (Char.ofNat n, 4)

/-- The character that an escape behind its backslash stands for, and the length of the escape. -/
def escape? : List Char → Option (Char × Nat)
  | [] => none
  | c :: rest =>
    if c = '"' ∨ c = '\\' ∨ c = '/' then some (c, 1)
    else if c = 'b' then some ('\x08', 1)
    else if c = 'f' then some ('\x0c', 1)
    else if c = 'n' then some ('\n', 1)
    else if c = 'r' then some ('\r', 1)
    else if c = 't' then some ('\t', 1)
    else if c = 'u' then (codeEscape? rest).map fun (x, used) => (x, used + 1)
    else none

/-- Reads a text up to its closing quote, behind the characters `seen` in reverse. Control
characters have to be escaped. -/
def textAfter (seen : List Char) : List Char → Option (List Char × List Char)
  | [] => none
  | c :: rest =>
    if c = '"' then some (seen.reverse, rest)
    else if c = '\\' then
      match escape? rest with
      | some (x, used) => textAfter (x :: seen) (rest.drop used)
      | none => none
    else if c.toNat < 0x20 then none
    else textAfter (c :: seen) rest
termination_by cs => cs.length
decreasing_by all_goals (simp only [List.length_drop, List.length_cons]; omega)

theorem length_of_textAfter {seen cs text rest : List Char}
    (h : textAfter seen cs = some (text, rest)) : rest.length < cs.length := by
  fun_induction textAfter seen cs with
  | case1 => simp at h
  | case2 => simp_all
  | case3 seen rest' c x used he ih =>
    have := ih h
    simp only [List.length_drop, List.length_cons] at *
    omega
  | case4 => simp at h
  | case5 => simp at h
  | case6 seen c rest' _ _ _ ih =>
    have := ih h
    simp only [List.length_cons]
    omega

/-- A value written as a word of letters, and the length of the word. -/
def letters? (cs : List Char) : Option (Json × Nat) :=
  if ['t', 'r', 'u', 'e'].isPrefixOf cs then some (.boolean true, 4)
  else if ['f', 'a', 'l', 's', 'e'].isPrefixOf cs then some (.boolean false, 5)
  else if ['n', 'u', 'l', 'l'].isPrefixOf cs then some (.null, 4)
  else none

def mark? (c : Char) : Option Token :=
  if c = '[' then some .openList
  else if c = ']' then some .closeList
  else if c = '\x7b' then some .openObject
  else if c = '\x7d' then some .closeObject
  else if c = ',' then some .comma
  else if c = ':' then some .colon
  else none

private theorem length_dropWhile_le {α : Type} (p : α → Bool) (xs : List α) :
    (xs.dropWhile p).length ≤ xs.length :=
  (List.dropWhile_suffix p).length_le

/-- The tokens of a text behind the tokens `done` in reverse. -/
def tokensAfter (done : List Token) : List Char → Option (List Token)
  | [] => some done.reverse
  | c :: rest =>
    if isSpace c then tokensAfter done rest
    else
      match mark? c with
      | some t => tokensAfter (t :: done) rest
      | none =>
        if c = '"' then
          match h : textAfter [] rest with
          | some (s, behind) =>
            have := length_of_textAfter h
            tokensAfter (.text (String.ofList s) :: done) behind
          | none => none
        else if isNumberChar c then
          match number? (c :: rest.takeWhile isNumberChar) with
          | some j =>
            have := length_dropWhile_le isNumberChar rest
            tokensAfter (.word j :: done) (rest.dropWhile isNumberChar)
          | none => none
        else
          match letters? (c :: rest) with
          | some (j, used) => tokensAfter (.word j :: done) (rest.drop (used - 1))
          | none => none
termination_by cs => cs.length
decreasing_by all_goals (simp only [List.length_drop, List.length_cons]; omega)

def tokens? (cs : List Char) : Option (List Token) :=
  tokensAfter [] cs

end IndexFeed.Json
