import IndexFeed.Codec.Adler
import IndexFeed.Codec.Inflate
import IndexFeed.Codec.PieceEncoder

/-!
The zlib format: a header of two bytes, a deflate stream and the checksum of what it stands for. The
encoder writes stored blocks, which every reader of the format accepts; the decoder reads every kind
of block and insists that the bytes are one whole stream.
-/

namespace IndexFeed.Zlib

def blockLimit : Nat := 65535

def littleEndian : Nat → Nat → List UInt8
  | 0, _ => []
  | count + 1, n => UInt8.ofNat n :: littleEndian count (n / 256)

def bigEndian (count n : Nat) : List UInt8 :=
  (littleEndian count n).reverse

def storedBlock (final : Bool) (bytes : List UInt8) : List UInt8 :=
  UInt8.ofNat final.toNat :: littleEndian 2 bytes.length
    ++ littleEndian 2 (65535 - bytes.length) ++ bytes

/-- The bytes as stored blocks, all but the last of them full. -/
def storedBlocks (bytes : List UInt8) : List UInt8 :=
  if bytes.length ≤ blockLimit then storedBlock true bytes
  else storedBlock false (bytes.take blockLimit) ++ storedBlocks (bytes.drop blockLimit)
termination_by bytes.length
decreasing_by simp only [List.length_drop, blockLimit] at *; omega

/-- The header: deflate with the largest window. -/
def header : List UInt8 := [0x78, 0x01]

def encode (bytes : List UInt8) : List UInt8 :=
  header ++ storedBlocks bytes ++ bigEndian 4 (Adler.checksum bytes)

/-- The encoder that is given its bytes in pieces. It keeps them, the last piece first, until they
have all come. -/
def encoder : PieceEncoder where
  State := List (List UInt8)
  start := []
  push kept piece := ([], piece :: kept)
  finish kept := [encode kept.reverse.flatten]

/-- A header that names deflate, a window of at most 32 KiB and no preset dictionary, and whose
check bits are right. -/
def isHeader (method flags : UInt8) : Bool :=
  method &&& 15 == 8 && method >>> 4 ≤ 7 && flags &&& 32 == 0
    && (method.toNat * 256 + flags.toNat) % 31 == 0

def decode? : List UInt8 → Option (List UInt8)
  | method :: flags :: rest =>
    if isHeader method flags then
      match Inflate.decode? rest with
      | some (bytes, check) =>
        if check = bigEndian 4 (Adler.checksum bytes) then some bytes else none
      | none => none
    else none
  | _ => none

end IndexFeed.Zlib
