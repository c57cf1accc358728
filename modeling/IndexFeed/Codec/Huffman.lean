/-!
Canonical prefix codes. A code is given by the length of every symbol's code word; the words of one
length are consecutive numbers in the order of their symbols, and shorter words come first.
-/

namespace IndexFeed

structure Huffman where
  /-- How many words there are of length 1, 2 and so on. -/
  counts : List Nat
  /-- The symbols that have a word, by length and then by number. -/
  symbols : Array Nat
  deriving Repr

namespace Huffman

def maxLength : Nat := 15

def symbolsOfLength (lengths : List Nat) (length : Nat) : List Nat :=
  lengths.zipIdx.filterMap fun (l, symbol) => if l == length then some symbol else none

/-- The part of the code space that the words fill, the whole space being `1 <<< maxLength`. -/
def filled (lengths : List Nat) : Nat :=
  lengths.foldl (fun sum l => if l == 0 then sum else sum + 1 <<< (maxLength - l)) 0

/-- The code of the given lengths, zero meaning no word. -/
def ofLengths (lengths : List Nat) : Huffman :=
  let byLength := (List.range maxLength).map fun l => symbolsOfLength lengths (l + 1)
  ⟨byLength.map List.length, byLength.flatten.toArray⟩

/-- The code of the given lengths, if its words fill the code space exactly. -/
def ofFullLengths? (lengths : List Nat) : Option Huffman :=
  if filled lengths == 1 <<< maxLength then some (ofLengths lengths) else none

/-- The code of the given lengths. Space may be left only by a code without words and by one whose
only word is a single bit. -/
def ofLengths? (lengths : List Nat) : Option Huffman :=
  let used := lengths.filter (· != 0)
  if used == [] || used == [1] then some (ofLengths lengths) else ofFullLengths? lengths

/-- Reads the rest of a code word: `code` is what has been read, `first` the first word of the next
length less one bit, and `index` the number of shorter words. -/
def readFrom (symbols : Array Nat) (code first index : Nat) :
    List Nat → List Bool → Option (Nat × List Bool)
  | [], _ => none
  | _ :: _, [] => none
  | count :: counts, bit :: bits =>
    let code := 2 * code + bit.toNat
    let first := 2 * first
    if code < first + count then
      (symbols[index + (code - first)]?).map fun symbol => (symbol, bits)
    else readFrom symbols code (first + count) (index + count) counts bits

def read? (h : Huffman) (bits : List Bool) : Option (Nat × List Bool) :=
  readFrom h.symbols 0 0 0 h.counts bits

end Huffman

end IndexFeed
