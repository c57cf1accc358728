import IndexFeed.Text.PrintableTable

/-!
The quoted form of a text inside a message. The double quote and the backslash are escaped, tab,
line feed, carriage return and the zero character have short escapes, and every character that
would not be seen by itself is given by its code point in hexadecimal.
-/

namespace IndexFeed.Text

def isPlain (c : Char) : Bool :=
  if c.toNat < 0x7F then 0x20 ≤ c.toNat
  else
    let inside := fun (r : Nat × Nat) => r.1 ≤ c.toNat && c.toNat ≤ r.2
    !unprintableRanges.any inside && !graphemeExtendRanges.any inside

/-- A character by its code point: lower-case hexadecimal digits, as few as possible. -/
def codePointEscape (c : Char) : List Char :=
  '\\' :: 'u' :: '\x7b' :: Nat.toDigits 16 c.toNat ++ ['\x7d']

def quotedChar (c : Char) : List Char :=
  if c = '"' then ['\\', '"']
  else if c = '\\' then ['\\', '\\']
  else if c = '\t' then ['\\', 't']
  else if c = '\n' then ['\\', 'n']
  else if c = '\r' then ['\\', 'r']
  else if c = '\x00' then ['\\', '0']
  else if isPlain c then [c]
  else codePointEscape c

def quoted (s : String) : String :=
  String.ofList ('"' :: s.toList.flatMap quotedChar ++ ['"'])

end IndexFeed.Text
