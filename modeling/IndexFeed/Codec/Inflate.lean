import IndexFeed.Codec.Bits
import IndexFeed.Codec.Huffman

/-!
Reading a deflate stream: a sequence of blocks, each of which stores bytes as they are or writes
them as literals and copies of earlier output in a prefix code, fixed or given with the block. A
reading step yields what it found and the bits behind it.
-/

namespace IndexFeed.Inflate

/-- Base and number of extra bits of the copy lengths, by symbol from 257 on. -/
def lengthTable : List (Nat × Nat) :=
  [(3, 0), (4, 0), (5, 0), (6, 0), (7, 0), (8, 0), (9, 0), (10, 0), (11, 1), (13, 1), (15, 1),
   (17, 1), (19, 2), (23, 2), (27, 2), (31, 2), (35, 3), (43, 3), (51, 3), (59, 3), (67, 4),
   (83, 4), (99, 4), (115, 4), (131, 5), (163, 5), (195, 5), (227, 5), (258, 0)]

/-- Base and number of extra bits of the copy distances, by symbol. -/
def distanceTable : List (Nat × Nat) :=
  [(1, 0), (2, 0), (3, 0), (4, 0), (5, 1), (7, 1), (9, 2), (13, 2), (17, 3), (25, 3), (33, 4),
   (49, 4), (65, 5), (97, 5), (129, 6), (193, 6), (257, 7), (385, 7), (513, 8), (769, 8),
   (1025, 9), (1537, 9), (2049, 10), (3073, 10), (4097, 11), (6145, 11), (8193, 12), (12289, 12),
   (16385, 13), (24577, 13)]

def lengthOrder : List Nat :=
  [16, 17, 18, 0, 8, 7, 9, 6, 10, 5, 11, 4, 12, 3, 13, 2, 14, 1, 15]

def fixedLengths : List Nat :=
  List.replicate 144 8 ++ List.replicate 112 9 ++ List.replicate 24 7 ++ List.replicate 8 8

def fixedDistances : Huffman :=
  ⟨(List.range 15).map fun l => if l = 4 then 30 else 0, (List.range 30).toArray⟩

def tableValue (table : List (Nat × Nat)) (symbol : Nat) (bits : List Bool) :
    Option (Nat × List Bool) := do
  let (base, extra) ← table[symbol]?
  let (n, bits) ← Bits.take? extra bits
  some (base + n, bits)

/-- Repeats output from `distance` bytes back, byte by byte. -/
def copy (distance : Nat) (out : Array UInt8) : Nat → Array UInt8
  | 0 => out
  | count + 1 => copy distance (out.push (out.getD (out.size - distance) 0)) count

/-- The symbols of a block up to its end mark. Every symbol takes at least one bit, so as many steps
as there are bits suffice. -/
def symbols (literals distances : Huffman) (out : Array UInt8) :
    Nat → List Bool → Option (Array UInt8 × List Bool)
  | 0, _ => none
  | steps + 1, bits =>
    match literals.read? bits with
    | none => none
    | some (symbol, bits) =>
      if symbol < 256 then
        symbols literals distances (out.push (UInt8.ofNat symbol)) steps bits
      else if symbol = 256 then some (out, bits)
      else
        match (do
          let (length, bits) ← tableValue lengthTable (symbol - 257) bits
          let (code, bits) ← distances.read? bits
          let (distance, bits) ← tableValue distanceTable code bits
          if distance ≤ out.size then some (copy distance out length, bits) else none) with
        | none => none
        | some (out, bits) => symbols literals distances out steps bits

def storedBytes (out : Array UInt8) : Nat → List Bool → Option (Array UInt8 × List Bool)
  | 0, bits => some (out, bits)
  | count + 1, bits =>
    match Bits.take? 8 bits with
    | none => none
    | some (n, bits) => storedBytes (out.push (UInt8.ofNat n)) count bits

/-- Drops the bits up to the next byte, when `total` bits make up the whole stream. -/
def alignByte (total : Nat) (bits : List Bool) : List Bool :=
  bits.drop ((8 - (total - bits.length) % 8) % 8)

/-- A stored block: its length and the complement of it, then the bytes. -/
def stored (total : Nat) (out : Array UInt8) (bits : List Bool) :
    Option (Array UInt8 × List Bool) := do
  let (length, bits) ← Bits.take? 16 (alignByte total bits)
  let (check, bits) ← Bits.take? 16 bits
  if length + check = 65535 then storedBytes out length bits else none

/-- The lengths of `wanted` code words, written in the code `h`; `done` are those read so far, the
last one first. -/
def codeLengths (h : Huffman) (wanted : Nat) (done : List Nat) :
    Nat → List Bool → Option (List Nat × List Bool)
  | 0, _ => none
  | steps + 1, bits =>
    if done.length = wanted then some (done.reverse, bits)
    else if wanted < done.length then none
    else
      match (do
        let (symbol, bits) ← h.read? bits
        if symbol < 16 then some (symbol :: done, bits)
        else if symbol = 16 then
          let last ← done.head?
          let (n, bits) ← Bits.take? 2 bits
          some (List.replicate (n + 3) last ++ done, bits)
        else if symbol = 17 then
          let (n, bits) ← Bits.take? 3 bits
          some (List.replicate (n + 3) 0 ++ done, bits)
        else
          let (n, bits) ← Bits.take? 7 bits
          some (List.replicate (n + 11) 0 ++ done, bits)) with
      | none => none
      | some (done, bits) => codeLengths h wanted done steps bits

def smallNumbers : Nat → List Bool → Option (List Nat × List Bool)
  | 0, bits => some ([], bits)
  | count + 1, bits => do
    let (n, bits) ← Bits.take? 3 bits
    let (rest, bits) ← smallNumbers count bits
    some (n :: rest, bits)

def dynamicCodes (bits : List Bool) : Option ((Huffman × Huffman) × List Bool) := do
  let (extraLiterals, bits) ← Bits.take? 5 bits
  let (extraDistances, bits) ← Bits.take? 5 bits
  let (extraLengths, bits) ← Bits.take? 4 bits
  let literalCount := extraLiterals + 257
  let distanceCount := extraDistances + 1
  if literalCount > 286 ∨ distanceCount > 30 then none
  else
    let (given, bits) ← smallNumbers (extraLengths + 4) bits
    let ordered := (List.range 19).map fun symbol => given.getD (lengthOrder.idxOf symbol) 0
    let h ← Huffman.ofFullLengths? ordered
    let (lengths, bits) ←
      codeLengths h (literalCount + distanceCount) [] (literalCount + distanceCount + 1) bits
    if lengths.getD 256 0 = 0 then none
    else
      let literals ← Huffman.ofLengths? (lengths.take literalCount)
      let distances ← Huffman.ofLengths? (lengths.drop literalCount)
      some ((literals, distances), bits)

def block (total : Nat) (out : Array UInt8) (bits : List Bool) :
    Option (Array UInt8 × List Bool) := do
  let (kind, bits) ← Bits.take? 2 bits
  if kind = 0 then stored total out bits
  else if kind = 1 then
    let literals ← Huffman.ofLengths? fixedLengths
    symbols literals fixedDistances out (bits.length + 1) bits
  else if kind = 2 then
    let ((literals, distances), bits) ← dynamicCodes bits
    symbols literals distances out (bits.length + 1) bits
  else none

def blocks (total : Nat) (out : Array UInt8) : Nat → List Bool → Option (Array UInt8 × List Bool)
  | 0, _ => none
  | steps + 1, bits =>
    match Bits.take? 1 bits with
    | none => none
    | some (final, bits) =>
      match block total out bits with
      | none => none
      | some (out, bits) =>
        if final = 1 then some (out, bits) else blocks total out steps bits

/-- The bytes that a deflate stream stands for, and the bytes behind the stream. -/
def decode? (bytes : List UInt8) : Option (List UInt8 × List UInt8) :=
  let bits := Bits.ofBytes bytes
  (blocks bits.length #[] (bits.length + 1) bits).map fun (out, rest) =>
    (out.toList, bytes.drop (bytes.length - rest.length / 8))

end IndexFeed.Inflate
