import IndexFeed.Codec.Zlib
import Mathlib.Algebra.Group.Nat.Defs

/-!
What the zlib encoder writes is read back. Numbers and bytes are read off the bits that they were
written as, stored blocks one after the other, and the checksum behind them is that of the bytes.
-/

namespace IndexFeed

namespace Bits

/-- The last `count` bits of a number, the least significant one first. -/
def ofNat (count n : Nat) : List Bool :=
  (List.range count).map n.testBit

theorem ofNat_succ (count n : Nat) : ofNat (count + 1) n = n.testBit 0 :: ofNat count (n / 2) := by
  simp only [ofNat, List.range_succ_eq_map, List.map_cons, List.map_map]
  apply congrArg
  apply List.map_congr_left
  intro i member
  exact (Nat.testBit_succ n i)

theorem take?_ofNat {count n : Nat} (h : n < 2 ^ count) (rest : List Bool) :
    take? count (ofNat count n ++ rest) = some (n, rest) := by
  induction count generalizing n with
  | zero =>
      have : n = 0 := by omega
      simp [ofNat, take?, this]
  | succ count ih =>
      have half : n / 2 < 2 ^ count := by
        rw [Nat.pow_succ] at h
        omega
      have whole : 2 * (n / 2) + (n.testBit 0).toNat = n := by
        rw [Nat.testBit_zero]
        obtain even | odd := Nat.mod_two_eq_zero_or_one n
        · simp only [even]
          simp
          omega
        · simp only [odd]
          simp
          omega
      rw [ofNat_succ, List.cons_append, take?, ih half]
      simp only [Option.map_some, whole]

theorem ofNat_add (first second n : Nat) :
    ofNat (first + second) n = ofNat first n ++ ofNat second (n / 2 ^ first) := by
  simp only [ofNat, List.range_add, List.map_append, List.map_map]
  apply congrArg
  apply List.map_congr_left
  intro i member
  simp [Nat.testBit_div_two_pow, Nat.add_comm]

theorem ofByte_ofNat (n : Nat) : ofByte (UInt8.ofNat n) = ofNat 8 n := by
  apply List.map_congr_left
  intro i member
  have small : i < 8 := List.mem_range.mp member
  rw [UInt8.toNat_ofNat', Nat.testBit_mod_two_pow]
  simp [small]

theorem ofBytes_cons (b : UInt8) (bytes : List UInt8) :
    ofBytes (b :: bytes) = ofByte b ++ ofBytes bytes := rfl

theorem ofBytes_append (first second : List UInt8) :
    ofBytes (first ++ second) = ofBytes first ++ ofBytes second :=
  List.flatMap_append

theorem length_ofBytes (bytes : List UInt8) : (ofBytes bytes).length = 8 * bytes.length := by
  induction bytes with
  | nil => rfl
  | cons b rest ih =>
      simp only [ofBytes_cons, List.length_append, ih, List.length_cons]
      simp only [ofByte, List.length_map, List.length_range]
      omega

theorem ofBytes_littleEndian (count n : Nat) :
    ofBytes (Zlib.littleEndian count n) = ofNat (8 * count) n := by
  induction count generalizing n with
  | zero => rfl
  | succ count ih =>
      have byte : ofNat (8 + 8 * count) n = ofNat 8 n ++ ofNat (8 * count) (n / 256) :=
        ofNat_add 8 (8 * count) n
      rw [Zlib.littleEndian, ofBytes_cons, ofByte_ofNat, ih, Nat.mul_succ, Nat.add_comm, byte]

end Bits

namespace Inflate

theorem storedBytes_ofBytes (out : Array UInt8) (bytes : List UInt8) (rest : List Bool) :
    storedBytes out bytes.length (Bits.ofBytes bytes ++ rest)
      = some (out ++ bytes.toArray, rest) := by
  induction bytes generalizing out with
  | nil => simp [storedBytes, Bits.ofBytes]
  | cons b bytes ih =>
      have first : Bits.ofByte b = Bits.ofNat 8 b.toNat := rfl
      rw [List.length_cons, storedBytes, Bits.ofBytes_cons, List.append_assoc, first,
        Bits.take?_ofNat b.toNat_lt]
      simp only [UInt8.ofNat_toNat, ih, Option.some.injEq, Prod.mk.injEq, and_true]
      simp

theorem alignByte_ofBytes {total : Nat} (h : 8 ∣ total) (bytes : List UInt8)
    (more : 8 * bytes.length < total) :
    alignByte total (List.replicate 5 false ++ Bits.ofBytes bytes) = Bits.ofBytes bytes := by
  obtain ⟨t, rfl⟩ := h
  have five : (8 - (8 * t - (5 + 8 * bytes.length)) % 8) % 8 = 5 := by omega
  rw [alignByte, List.length_append, List.length_replicate, Bits.length_ofBytes, five]
  rfl

theorem block_stored {total : Nat} (h : 8 ∣ total) (out : Array UInt8) {bytes : List UInt8}
    (rest : List UInt8) (small : bytes.length ≤ 65535)
    (more : 8 * (4 + bytes.length + rest.length) < total) :
    block total out
        (List.replicate 7 false
          ++ Bits.ofBytes (Zlib.littleEndian 2 bytes.length
              ++ Zlib.littleEndian 2 (65535 - bytes.length) ++ bytes ++ rest))
      = some (out ++ bytes.toArray, Bits.ofBytes rest) := by
  have kind : ∀ bits, Bits.take? 2 (List.replicate 7 false ++ bits)
      = some (0, List.replicate 5 false ++ bits) := fun _ => rfl
  have aligned := alignByte_ofBytes h (Zlib.littleEndian 2 bytes.length
    ++ Zlib.littleEndian 2 (65535 - bytes.length) ++ bytes ++ rest) (by
      simp only [List.length_append, Zlib.littleEndian, List.length_cons, List.length_nil]
      omega)
  have total_eq : bytes.length + (65535 - bytes.length) = 65535 := by omega
  simp only [block, kind, stored, Option.bind_eq_bind, Option.bind_some, if_true, aligned]
  simp only [Bits.ofBytes_append, Bits.ofBytes_littleEndian, List.append_assoc, Nat.reduceMul,
    Option.bind_some, Bits.take?_ofNat (show bytes.length < 2 ^ 16 by omega),
    Bits.take?_ofNat (show 65535 - bytes.length < 2 ^ 16 by omega), total_eq, if_true,
    storedBytes_ofBytes]

theorem ofBytes_storedBlock (final : Bool) (bytes rest : List UInt8) :
    Bits.ofBytes (Zlib.storedBlock final bytes ++ rest)
      = final :: (List.replicate 7 false
          ++ Bits.ofBytes (Zlib.littleEndian 2 bytes.length
              ++ Zlib.littleEndian 2 (65535 - bytes.length) ++ bytes ++ rest)) := by
  have mark : Bits.ofByte (UInt8.ofNat final.toNat) = final :: List.replicate 7 false := by
    cases final <;> decide
  simp only [Zlib.storedBlock, List.cons_append, Bits.ofBytes_cons, mark, List.append_assoc]

theorem length_storedBlock (final : Bool) (bytes : List UInt8) :
    (Zlib.storedBlock final bytes).length = 5 + bytes.length := by
  simp [Zlib.storedBlock, Zlib.littleEndian]
  omega

/-- Reading goes on behind a stored block, unless it is the final one. -/
theorem blocks_storedBlock {total : Nat} (h : 8 ∣ total) (out : Array UInt8) (final : Bool)
    {bytes rest : List UInt8} (small : bytes.length ≤ Zlib.blockLimit)
    (more : 8 * (Zlib.storedBlock final bytes ++ rest).length ≤ total) (steps : Nat) :
    blocks total out (steps + 1) (Bits.ofBytes (Zlib.storedBlock final bytes ++ rest))
      = if final then some (out ++ bytes.toArray, Bits.ofBytes rest)
        else blocks total (out ++ bytes.toArray) steps (Bits.ofBytes rest) := by
  have mark : ∀ bits, Bits.take? 1 (final :: bits) = some (final.toNat, bits) := by
    intro bits
    simp [Bits.take?]
  have read := block_stored h out rest small (by
    rw [List.length_append, length_storedBlock] at more
    omega)
  rw [blocks, ofBytes_storedBlock, mark]
  simp only [read]
  cases final <;> rfl

theorem blocks_storedBlocks {total : Nat} (h : 8 ∣ total) (out : Array UInt8)
    (bytes rest : List UInt8) {steps : Nat} (enough : bytes.length < steps)
    (more : 8 * (Zlib.storedBlocks bytes ++ rest).length ≤ total) :
    blocks total out steps (Bits.ofBytes (Zlib.storedBlocks bytes ++ rest))
      = some (out ++ bytes.toArray, Bits.ofBytes rest) := by
  induction bytes using Zlib.storedBlocks.induct generalizing out steps with
  | case1 bytes small =>
      obtain ⟨steps, rfl⟩ := Nat.exists_eq_succ_of_ne_zero (Nat.ne_zero_of_lt enough)
      rw [Zlib.storedBlocks, if_pos small] at more ⊢
      exact blocks_storedBlock h out true small more steps
  | case2 bytes large ih =>
      obtain ⟨steps, rfl⟩ := Nat.exists_eq_succ_of_ne_zero (Nat.ne_zero_of_lt enough)
      have first : (bytes.take Zlib.blockLimit).length ≤ Zlib.blockLimit := by
        simp only [List.length_take]
        omega
      have fewer : (bytes.drop Zlib.blockLimit).length < steps := by
        simp only [List.length_drop, Zlib.blockLimit] at large ⊢
        omega
      rw [Zlib.storedBlocks, if_neg large, List.append_assoc] at more ⊢
      have later : 8 * (Zlib.storedBlocks (bytes.drop Zlib.blockLimit) ++ rest).length ≤ total := by
        rw [List.length_append] at more
        omega
      rw [blocks_storedBlock h out false first more, if_neg (by decide), ih _ fewer later]
      have whole : (bytes.take Zlib.blockLimit).toArray ++ (bytes.drop Zlib.blockLimit).toArray
          = bytes.toArray := by
        rw [List.append_toArray, List.take_append_drop]
      rw [Array.append_assoc, whole]

theorem length_le_storedBlocks (bytes : List UInt8) :
    bytes.length ≤ (Zlib.storedBlocks bytes).length := by
  induction bytes using Zlib.storedBlocks.induct with
  | case1 bytes small =>
      rw [Zlib.storedBlocks, if_pos small, length_storedBlock]
      omega
  | case2 bytes large ih =>
      rw [Zlib.storedBlocks, if_neg large, List.length_append, length_storedBlock]
      simp only [List.length_drop, List.length_take] at ih ⊢
      omega

theorem decode?_storedBlocks (bytes rest : List UInt8) :
    decode? (Zlib.storedBlocks bytes ++ rest) = some (bytes, rest) := by
  have enough : bytes.length < (Bits.ofBytes (Zlib.storedBlocks bytes ++ rest)).length + 1 := by
    rw [Bits.length_ofBytes, List.length_append]
    have := length_le_storedBlocks bytes
    omega
  have whole : 8 ∣ (Bits.ofBytes (Zlib.storedBlocks bytes ++ rest)).length := by
    rw [Bits.length_ofBytes]
    exact Nat.dvd_mul_right 8 _
  have read := blocks_storedBlocks whole #[] bytes rest enough
    (Nat.le_of_eq (Bits.length_ofBytes _).symm)
  rw [decode?, read]
  simp [Bits.length_ofBytes]

end Inflate

/-- Whatever was encoded is what the stream stands for. -/
theorem Zlib.decode?_encode (bytes : List UInt8) : decode? (encode bytes) = some bytes := by
  have header : isHeader 0x78 0x01 = true := by decide
  simp only [encode, Zlib.header, List.cons_append, List.nil_append, decode?, header, if_true,
    Inflate.decode?_storedBlocks]

theorem Zlib.foldl_push (pieces : List (List UInt8)) (kept : List (List UInt8))
    (written : Array (List UInt8)) :
    pieces.foldl .push (⟨kept, written⟩ : encoder.Run) = ⟨pieces.reverse ++ kept, written⟩ := by
  induction pieces generalizing kept with
  | nil => rfl
  | cons piece rest ih =>
      have step : PieceEncoder.Run.push (⟨kept, written⟩ : encoder.Run) piece
          = ⟨piece :: kept, written⟩ := by
        simp [PieceEncoder.Run.push, encoder]
      rw [List.foldl_cons, step, ih]
      simp

/-- However the bytes are cut into pieces, the encoder puts out one stream that stands for them. -/
theorem Zlib.decode?_encode_encoder (pieces : List (List UInt8)) :
    decode? (encoder.encode pieces true).flatten = some pieces.flatten := by
  have run : encoder.runOn pieces = ⟨pieces.reverse ++ [], #[]⟩ := foldl_push pieces [] #[]
  have put : encoder.encode pieces true = [encode pieces.flatten] := by
    rw [PieceEncoder.encode, run]
    simp [encoder]
  rw [put, List.flatten_singleton, decode?_encode]

end IndexFeed
