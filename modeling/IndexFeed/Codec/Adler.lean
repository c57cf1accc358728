/-!
The checksum at the end of a zlib stream: two sums modulo 65521, one of the bytes and one of the
first sum after every byte.
-/

namespace IndexFeed.Adler

def modulus : Nat := 65521

def add (sums : Nat × Nat) (b : UInt8) : Nat × Nat :=
  let first := (sums.1 + b.toNat) % modulus
  (first, (sums.2 + first) % modulus)

def checksum (bytes : List UInt8) : Nat :=
  let sums := bytes.foldl add (1, 0)
  sums.2 * 65536 + sums.1

end IndexFeed.Adler
