/-!
The form encoding of a text. ASCII letters, digits and the four marks `*`, `-`, `.` and `_` stand
for themselves, a space becomes a plus sign, and every other byte of the UTF-8 form is a percent
sign with two upper-case hexadecimal digits.
-/

namespace IndexFeed.FormEncoded

/-- Bytes that stand for themselves. -/
def isUnchanged (b : UInt8) : Bool :=
  (65 ≤ b && b ≤ 90) || (97 ≤ b && b ≤ 122) || (48 ≤ b && b ≤ 57)
    || b == 42 || b == 45 || b == 46 || b == 95

def hexDigit (n : Nat) : Char :=
  if n < 10 then Char.ofNat (48 + n) else Char.ofNat (55 + n)

def encodeByte (b : UInt8) : List Char :=
  if isUnchanged b then [Char.ofNat b.toNat]
  else if b == 32 then ['+']
  else ['%', hexDigit (b.toNat / 16), hexDigit (b.toNat % 16)]

def encode (s : String) : String :=
  String.ofList (s.toUTF8.data.toList.flatMap encodeByte)

end IndexFeed.FormEncoded
