/-!
Bytes as bits, the least significant bit of each byte first, and whole numbers read from such bits.
-/

namespace IndexFeed.Bits

def ofByte (b : UInt8) : List Bool :=
  (List.range 8).map fun i => b.toNat.testBit i

def ofBytes (bytes : List UInt8) : List Bool :=
  bytes.flatMap ofByte

/-- A number of `count` bits, the least significant one first. -/
def take? : Nat → List Bool → Option (Nat × List Bool)
  | 0, bits => some (0, bits)
  | _ + 1, [] => none
  | count + 1, bit :: bits =>
    (take? count bits).map fun (n, rest) => (2 * n + bit.toNat, rest)

end IndexFeed.Bits
