import IndexFeed.Codec.Base64
import Mathlib.Algebra.Group.Nat.Defs

/-!
Base64 as numbers: three bytes are a number of 24 bits, written with four digits to the base 64. The
encoder writes these digits, and writes them in whatever pieces the bytes arrive.
-/

namespace IndexFeed.Base64

def alphabet : List UInt8 :=
  "ABCDEFGHIJKLMNOPQRSTUVWXYZabcdefghijklmnopqrstuvwxyz0123456789+/".toList.map fun c =>
    UInt8.ofNat c.toNat

def digit (value : Nat) : UInt8 := alphabet.getD value padding

def digits : Nat → Nat → List UInt8
  | 0, _ => []
  | count + 1, n => digit (n / 64 ^ count % 64) :: digits count n

/-- The standard form of a byte sequence. At the end, bits that are zero fill up the last digit, and
padding fills up the last group. -/
def standardForm : List UInt8 → List UInt8
  | a :: b :: c :: rest =>
    digits 4 ((a.toNat * 256 + b.toNat) * 256 + c.toNat) ++ standardForm rest
  | [a, b] => digits 3 ((a.toNat * 256 + b.toNat) * 4) ++ [padding]
  | [a] => digits 2 (a.toNat * 16) ++ [padding, padding]
  | [] => []

theorem mem_digits {b : UInt8} {count n : Nat} (h : b ∈ digits count n) : b ∈ alphabet := by
  induction count with
  | zero => cases h
  | succ count ih =>
      obtain rfl | rest := List.mem_cons.mp h
      · have inside : n / 64 ^ count % 64 < alphabet.length := by
          have : alphabet.length = 64 := by decide
          omega
        rw [digit, List.getD_eq_getElem?_getD, List.getElem?_eq_getElem inside, Option.getD_some]
        exact List.getElem_mem inside
      · exact ih rest

theorem mem_standardForm {b : UInt8} {bytes : List UInt8} (h : b ∈ standardForm bytes) :
    b ∈ alphabet ∨ b = padding := by
  induction bytes using standardForm.induct with
  | case1 a b c rest ih =>
      rw [standardForm] at h
      obtain first | later := List.mem_append.mp h
      · exact .inl (mem_digits first)
      · exact ih later
  | case2 a b =>
      rw [standardForm] at h
      obtain first | last := List.mem_append.mp h
      · exact .inl (mem_digits first)
      · exact .inr (List.mem_singleton.mp last)
  | case3 a =>
      rw [standardForm] at h
      obtain first | last := List.mem_append.mp h
      · exact .inl (mem_digits first)
      · simp only [List.mem_cons, List.not_mem_nil, or_false, or_self] at last
        exact .inr last
  | case4 => cases h

theorem standardForm_ne_nil {bytes : List UInt8} (h : bytes ≠ []) : standardForm bytes ≠ [] := by
  cases bytes using standardForm.fun_cases with
  | case1 a b c rest => simp [standardForm, digits]
  | case2 a b => simp [standardForm]
  | case3 a => simp [standardForm]
  | case4 => contradiction

theorem symbol_eq_digit {value : UInt8} {n : Nat} (same : value.toNat = n % 64) :
    symbol value = digit (n % 64) := by
  have all : ∀ n : Fin 64, symbol (UInt8.ofNat n.val) = digit n.val := by decide +kernel
  have value_eq : value = UInt8.ofNat (n % 64) := by rw [← same, UInt8.ofNat_toNat]
  rw [value_eq]
  exact all ⟨n % 64, Nat.mod_lt n (by decide)⟩

theorem toNat_high (a : UInt8) : (a >>> 2).toNat = a.toNat / 4 := by
  simp [Nat.shiftRight_eq_div_pow]

theorem toNat_rest (c : UInt8) : (c &&& 63).toNat = c.toNat % 64 := by
  rw [UInt8.toNat_and]
  exact Nat.and_two_pow_sub_one_eq_mod c.toNat 6

theorem toNat_lowTwo (a : UInt8) : ((a &&& 3) <<< 4).toNat = a.toNat % 4 * 16 := by
  have low : a.toNat &&& 3 = a.toNat % 4 := Nat.and_two_pow_sub_one_eq_mod a.toNat 2
  simp only [UInt8.toNat_shiftLeft, UInt8.toNat_and, UInt8.reduceToNat, low, Nat.shiftLeft_eq,
    Nat.reduceMod, Nat.reducePow]
  omega

theorem toNat_lowFour (b : UInt8) : ((b &&& 15) <<< 2).toNat = b.toNat % 16 * 4 := by
  have low : b.toNat &&& 15 = b.toNat % 16 := Nat.and_two_pow_sub_one_eq_mod b.toNat 4
  simp only [UInt8.toNat_shiftLeft, UInt8.toNat_and, UInt8.reduceToNat, low, Nat.shiftLeft_eq,
    Nat.reduceMod, Nat.reducePow]
  omega

theorem toNat_second (a b : UInt8) :
    ((a &&& 3) <<< 4 ||| b >>> 4).toNat = a.toNat % 4 * 16 + b.toNat / 16 := by
  have small : b.toNat / 16 < 2 ^ 4 := by have := b.toNat_lt; omega
  have shifted : (b >>> 4).toNat = b.toNat / 16 := by simp [Nat.shiftRight_eq_div_pow]
  rw [UInt8.toNat_or, toNat_lowTwo, shifted]
  exact (Nat.shiftLeft_eq _ 4 ▸ Nat.shiftLeft_add_eq_or_of_lt small (a.toNat % 4)).symm

theorem toNat_third (b c : UInt8) :
    ((b &&& 15) <<< 2 ||| c >>> 6).toNat = b.toNat % 16 * 4 + c.toNat / 64 := by
  have small : c.toNat / 64 < 2 ^ 2 := by have := c.toNat_lt; omega
  have shifted : (c >>> 6).toNat = c.toNat / 64 := by simp [Nat.shiftRight_eq_div_pow]
  rw [UInt8.toNat_or, toNat_lowFour, shifted]
  exact (Nat.shiftLeft_eq _ 2 ▸ Nat.shiftLeft_add_eq_or_of_lt small (b.toNat % 16)).symm

theorem group_eq_digits (a b c : UInt8) :
    group a b c = digits 4 ((a.toNat * 256 + b.toNat) * 256 + c.toNat) := by
  have := a.toNat_lt
  have := b.toNat_lt
  have := c.toNat_lt
  simp only [group, digits, List.cons.injEq, and_true]
  refine ⟨symbol_eq_digit ?_, symbol_eq_digit ?_, symbol_eq_digit ?_, symbol_eq_digit ?_⟩
  · rw [toNat_high]
    omega
  · rw [toNat_second]
    omega
  · rw [toNat_third]
    omega
  · rw [toNat_rest]
    omega

theorem pair_eq_digits (a b : UInt8) :
    [symbol (a >>> 2), symbol ((a &&& 3) <<< 4 ||| b >>> 4), symbol ((b &&& 15) <<< 2)]
      = digits 3 ((a.toNat * 256 + b.toNat) * 4) := by
  have := a.toNat_lt
  have := b.toNat_lt
  simp only [digits, List.cons.injEq, and_true]
  refine ⟨symbol_eq_digit ?_, symbol_eq_digit ?_, symbol_eq_digit ?_⟩
  · rw [toNat_high]
    omega
  · rw [toNat_second]
    omega
  · rw [toNat_lowFour]
    omega

theorem single_eq_digits (a : UInt8) :
    [symbol (a >>> 2), symbol ((a &&& 3) <<< 4)] = digits 2 (a.toNat * 16) := by
  have := a.toNat_lt
  simp only [digits, List.cons.injEq, and_true]
  refine ⟨symbol_eq_digit ?_, symbol_eq_digit ?_⟩
  · rw [toNat_high]
    omega
  · rw [toNat_lowTwo]
    omega

theorem groupsAfter_eq (done : List (List UInt8)) (bytes : List UInt8) :
    groupsAfter done bytes = done.reverse ++ groups bytes := by
  induction bytes using standardForm.induct generalizing done with
  | case1 a b c rest ih =>
      rw [groups, groupsAfter, groupsAfter, ih, ih [group a b c]]
      simp
  | case2 a b => simp [groups, groupsAfter]
  | case3 a => simp [groups, groupsAfter]
  | case4 => simp [groups, groupsAfter]

theorem encode_cons (a b c : UInt8) (rest : List UInt8) :
    encode (a :: b :: c :: rest) = group a b c ++ encode rest := by
  rw [encode, groups, groupsAfter, groupsAfter_eq]
  simp [encode]

theorem encode_eq_standardForm (bytes : List UInt8) : encode bytes = standardForm bytes := by
  induction bytes using standardForm.induct with
  | case1 a b c rest ih => rw [encode_cons, standardForm, ih, group_eq_digits]
  | case2 a b =>
      rw [standardForm, ← pair_eq_digits]
      rfl
  | case3 a =>
      rw [standardForm, ← single_eq_digits]
      rfl
  | case4 => rfl

theorem wholeGroupsAfter_eq (done : List (List UInt8)) (bytes more : List UInt8) :
    done.reverse ++ groups (bytes ++ more)
      = (wholeGroupsAfter done bytes).1 ++ groups ((wholeGroupsAfter done bytes).2 ++ more) := by
  induction bytes using standardForm.induct generalizing done with
  | case1 a b c rest ih =>
      rw [wholeGroupsAfter, ← ih]
      simp only [List.cons_append, List.reverse_cons, List.append_assoc]
      rw [groups, groupsAfter, groupsAfter_eq]
      rfl
  | case2 a b => rfl
  | case3 a => rfl
  | case4 => rfl

/-- The bytes that a run has kept. -/
def kept (r : encoder.Run) : List UInt8 := r.state

/-- The groups that a run has put out and those of the bytes it keeps stay the groups of all bytes
it was given. -/
theorem foldl_push_groups (pieces : List (List UInt8)) (r : encoder.Run) :
    (pieces.foldl .push r).written.toList ++ groups (kept (pieces.foldl .push r))
      = r.written.toList ++ groups (kept r ++ pieces.flatten) := by
  induction pieces generalizing r with
  | nil => simp
  | cons piece rest ih =>
      have step := wholeGroupsAfter_eq [] (kept r ++ piece) rest.flatten
      simp only [List.reverse_nil, List.nil_append, List.append_assoc] at step
      rw [List.foldl_cons, ih, List.flatten_cons, step, ← List.append_assoc]
      simp [PieceEncoder.Run.push, encoder, kept]

/-- However the bytes are cut into pieces, the encoder puts out their standard form. -/
theorem flatten_encode_encoder (pieces : List (List UInt8)) :
    (encoder.encode pieces true).flatten = standardForm pieces.flatten := by
  rw [← encode_eq_standardForm, encode, ← List.nil_append (groups pieces.flatten)]
  apply congrArg List.flatten
  calc encoder.encode pieces true
      = (encoder.runOn pieces).written.toList ++ groups (kept (encoder.runOn pieces)) := by
        simp [PieceEncoder.encode, encoder, kept]
    _ = [] ++ groups pieces.flatten := foldl_push_groups pieces ⟨encoder.start, #[]⟩

end IndexFeed.Base64
