import IndexFeed.Codec.PieceEncoder

/-!
Base64 with the standard alphabet and padding. Three bytes become four characters, which are kept as
ASCII bytes; one or two bytes at the end are padded with equals signs. The decoder accepts exactly
the encoder's outputs.
-/

namespace IndexFeed.Base64

def padding : UInt8 := 61

def symbol (value : UInt8) : UInt8 :=
  if value < 26 then 65 + value
  else if value < 52 then 71 + value
  else if value < 62 then value - 4
  else if value == 62 then 43
  else 47

def group (a b c : UInt8) : List UInt8 :=
  [symbol (a >>> 2), symbol ((a &&& 3) <<< 4 ||| b >>> 4),
   symbol ((b &&& 15) <<< 2 ||| c >>> 6), symbol (c &&& 63)]

/-- The encoded groups of a byte sequence in order, behind the groups `done` in reverse. -/
def groupsAfter (done : List (List UInt8)) : List UInt8 → List (List UInt8)
  | a :: b :: c :: rest => groupsAfter (group a b c :: done) rest
  | [a, b] =>
    ([symbol (a >>> 2), symbol ((a &&& 3) <<< 4 ||| b >>> 4), symbol ((b &&& 15) <<< 2), padding]
      :: done).reverse
  | [a] => ([symbol (a >>> 2), symbol ((a &&& 3) <<< 4), padding, padding] :: done).reverse
  | [] => done.reverse

def groups (bytes : List UInt8) : List (List UInt8) :=
  groupsAfter [] bytes

def encode (bytes : List UInt8) : List UInt8 :=
  (groups bytes).flatten

/-- The groups of three bytes each in order, behind the groups `done` in reverse, and the bytes that
are left over. -/
def wholeGroupsAfter (done : List (List UInt8)) : List UInt8 → List (List UInt8) × List UInt8
  | a :: b :: c :: rest => wholeGroupsAfter (group a b c :: done) rest
  | rest => (done.reverse, rest)

/-- The encoder that is given its bytes in pieces. It keeps the bytes that do not make a whole group
yet. -/
def encoder : PieceEncoder where
  State := List UInt8
  start := []
  push kept piece := wholeGroupsAfter [] (kept ++ piece)
  finish := groups

def value? (c : UInt8) : Option UInt8 :=
  if 65 ≤ c && c ≤ 90 then some (c - 65)
  else if 97 ≤ c && c ≤ 122 then some (c - 71)
  else if 48 ≤ c && c ≤ 57 then some (c + 4)
  else if c == 43 then some 62
  else if c == 47 then some 63
  else none

/-- The bytes of one group. The bits that a padded group does not use must be zero. -/
def decodeGroup? (p q r s : UInt8) : Option (List UInt8) := do
  let a ← value? p
  let b ← value? q
  let first := a <<< 2 ||| b >>> 4
  if r == padding && s == padding then
    if b &&& 15 == 0 then some [first] else none
  else
    let c ← value? r
    let second := (b &&& 15) <<< 4 ||| c >>> 2
    if s == padding then
      if c &&& 3 == 0 then some [first, second] else none
    else
      let d ← value? s
      some [first, second, (c &&& 3) <<< 6 ||| d]

/-- Decodes whole groups behind the bytes `done`, which are in reverse. A group with padding ends
the text. -/
def decodeAfter? (done : List UInt8) : List UInt8 → Option (List UInt8)
  | [] => some done.reverse
  | p :: q :: r :: s :: rest =>
    match decodeGroup? p q r s with
    | none => none
    | some bytes =>
      if bytes.length < 3 && !rest.isEmpty then none
      else decodeAfter? (bytes.reverse ++ done) rest
  | _ => none

def decode? (text : List UInt8) : Option (List UInt8) :=
  decodeAfter? [] text

end IndexFeed.Base64
