import IndexFeed.Feed.Progress

/-!
When a feed is reported full. With the count of records at hand the decision hangs on the room that
is left and on the average size alone, and less room or larger records only speak for it. That its
products stop at 64 bits never shows: no feed has so much room that a product beyond that bound
would be compared with it.
-/

namespace IndexFeed

/-! ## Room and average size -/

theorem isFull_zero {capacity size : Nat} :
    isFull capacity size 0 = true ↔ capacity - size = 0 := by
  simp [isFull]

theorem isFull_counted {capacity size count : Nat} (counted : 0 < count) :
    isFull capacity size count = true ↔
      capacity - size < boundedProduct tightRecords (size / count) ∨
        (capacity - size ≤ boundedProduct roomyRecords (size / count) ∧
          capacity - size < capacity / tightPart) := by
  have records : count ≠ 0 := Nat.ne_of_gt counted
  simp only [isFull, if_neg records]
  split
  · rename_i tight
    exact iff_of_true rfl (.inl tight)
  · rename_i loose
    split
    · rename_i roomy
      refine iff_of_false Bool.false_ne_true ?_
      rintro (tight | ⟨close, -⟩)
      · exact loose tight
      · exact Nat.not_le_of_lt roomy close
    · rename_i close
      rw [decide_eq_true_eq, or_iff_right loose, and_iff_right (Nat.le_of_not_lt close)]

theorem boundedProduct_mono (factor : Nat) {average average' : Nat} (larger : average ≤ average') :
    boundedProduct factor average ≤ boundedProduct factor average' := by
  have products := Nat.mul_le_mul_left factor larger
  exact Nat.le_min.mpr ⟨Nat.le_trans (Nat.min_le_left _ _) products, Nat.min_le_right _ _⟩

/-- A feed with records that is full stays so with less room and larger records. -/
theorem isFull_of_larger {capacity size size' count count' : Nat} (counted : 0 < count)
    (counted' : 0 < count') (more : size ≤ size') (larger : size / count ≤ size' / count')
    (full : isFull capacity size count = true) : isFull capacity size' count' = true := by
  have less : capacity - size' ≤ capacity - size := Nat.sub_le_sub_left more capacity
  have bound (factor : Nat) := boundedProduct_mono factor larger
  rw [isFull_counted counted']
  obtain tight | ⟨close, part⟩ := (isFull_counted counted).mp full
  · left
    calc
      capacity - size' ≤ capacity - size := less
      _ < boundedProduct tightRecords (size / count) := tight
      _ ≤ boundedProduct tightRecords (size' / count') := bound tightRecords
  · right
    exact ⟨Nat.le_trans (Nat.le_trans less close) (bound roomyRecords),
      Nat.lt_of_le_of_lt less part⟩

/-- Whether a feed is full changes in one direction only: as it grows with its count held fast, as
fewer records take up the same size, and as records of one size are added. -/
theorem isFull_monotone (capacity : Nat) :
    (∀ count size size', size ≤ size' → isFull capacity size count = true →
      isFull capacity size' count = true) ∧
    (∀ size count count', 0 < count → count ≤ count' → isFull capacity size count' = true →
      isFull capacity size count = true) ∧
    ∀ average count count', 0 < count → count ≤ count' →
      isFull capacity (count * average) count = true →
        isFull capacity (count' * average) count' = true := by
  refine ⟨?_, ?_, ?_⟩
  · intro count size size' more full
    obtain rfl | counted := Nat.eq_zero_or_pos count
    · rw [isFull_zero] at full ⊢
      exact Nat.sub_eq_zero_of_le (Nat.le_trans (Nat.le_of_sub_eq_zero full) more)
    · exact isFull_of_larger counted counted more (Nat.div_le_div_right more) full
  · intro size count count' counted more full
    have counted' : 0 < count' := Nat.lt_of_lt_of_le counted more
    have larger : size / count' ≤ size / count := Nat.div_le_div_left more counted
    exact isFull_of_larger counted' counted (Nat.le_refl size) larger full
  · intro average count count' counted more full
    have counted' : 0 < count' := Nat.lt_of_lt_of_le counted more
    have sizes : count * average ≤ count' * average := Nat.mul_le_mul_right average more
    have averages : count * average / count = count' * average / count' := by
      rw [Nat.mul_div_cancel_left average counted, Nat.mul_div_cancel_left average counted']
    exact isFull_of_larger counted counted' sizes (Nat.le_of_eq averages) full

/-- Each of the three ways leads from a feed that is not full to one that is, and on. -/
theorem isFull_monotone_of_thousand :
    (isFull 1000 700 8 = false ∧ isFull 1000 800 8 = true ∧ isFull 1000 900 8 = true) ∧
      (isFull 1000 800 20 = false ∧ isFull 1000 800 9 = true ∧ isFull 1000 800 8 = true) ∧
      isFull 1000 (7 * 100) 7 = false ∧ isFull 1000 (8 * 100) 8 = true ∧
        isFull 1000 (9 * 100) 9 = true := by
  obtain ⟨growing, dividing, adding⟩ := isFull_monotone 1000
  have eighth : isFull 1000 800 8 = true := by decide
  have ninth : isFull 1000 800 9 = true := by decide
  refine ⟨⟨by decide, eighth, ?_⟩, ⟨by decide, ninth, ?_⟩, by decide, eighth, ?_⟩
  · exact growing 8 800 900 (by decide) eighth
  · exact dividing 800 8 9 (by decide) (by decide) ninth
  · exact adding 100 8 9 (by decide) (by decide) eighth

/-! ## The rule over numbers of any size -/

/-- The reasons for which a feed of `size` bytes with `count` records is full. -/
inductive IsDue (capacity size count : Nat) : Prop
  | noRoom (uncounted : count = 0) (nothing : capacity - size = 0)
  | fewRecords (counted : 0 < count) (few : capacity - size < 3 * (size / count))
  | smallPart (counted : 0 < count) (close : capacity - size ≤ 10 * (size / count))
      (small : capacity - size < capacity / 10)

/-- A product that stops at the bound is more than the room behind some bytes if and only if the
product itself is. -/
theorem lt_boundedProduct_iff {capacity size factor count : Nat} (fits : capacity < UInt64.size) :
    capacity - size < boundedProduct factor (size / count) ↔
      capacity - size < factor * (size / count) := by
  have nothing : size = 0 → factor * (size / count) = 0 := by
    rintro rfl
    rw [Nat.zero_div, Nat.mul_zero]
  rw [UInt64.size] at fits
  rw [boundedProduct, UInt64.size]
  generalize factor * (size / count) = product at nothing ⊢
  -- All the room there can be is left only in an empty feed, whose records have no size.
  by_cases empty : size = 0
  · rw [nothing empty, Nat.zero_min]
  · omega

theorem le_boundedProduct_iff {capacity size factor average : Nat} (fits : capacity < UInt64.size) :
    capacity - size ≤ boundedProduct factor average ↔ capacity - size ≤ factor * average := by
  rw [UInt64.size] at fits
  rw [boundedProduct, UInt64.size]
  generalize factor * average = product
  omega

theorem isFull_iff {capacity size count : Nat} (fits : capacity < UInt64.size) :
    isFull capacity size count = true ↔ IsDue capacity size count := by
  obtain rfl | counted := Nat.eq_zero_or_pos count
  · rw [isFull_zero]
    constructor
    · exact .noRoom rfl
    · rintro (⟨-, nothing⟩ | ⟨⟨⟩⟩ | ⟨⟨⟩⟩)
      exact nothing
  · rw [isFull_counted counted, lt_boundedProduct_iff fits, le_boundedProduct_iff fits]
    constructor
    · rintro (few | ⟨close, small⟩)
      · exact .fewRecords counted few
      · exact .smallPart counted close small
    · rintro (⟨rfl, -⟩ | ⟨-, few⟩ | ⟨-, close, small⟩)
      · exact absurd counted (Nat.lt_irrefl 0)
      · exact .inl few
      · exact .inr ⟨close, small⟩

/-! ## The decision in words of 64 bits -/

namespace Word

variable (a b : UInt64)

/-- The difference of two words, unless it would be less than nothing. -/
def difference? : Option UInt64 :=
  if b ≤ a then some (a - b) else none

/-- The product of two words, unless it is no word itself. -/
def product? : Option UInt64 :=
  if a.toNat * b.toNat < UInt64.size then some (a * b) else none

/-- The quotient of two words, unless the second one is zero. -/
def quotient? : Option UInt64 :=
  if b = 0 then none else some (a / b)

/-- The decision in words. A difference or product that is none is replaced by the nearest word; a
quotient that is none leaves no decision. -/
def isFull? (capacity size count : UInt64) : Option Bool :=
  let left := (difference? capacity size).getD 0
  if count = 0 then some (left == 0)
  else
    (quotient? size count).bind fun average =>
      if left < (product? (.ofNat tightRecords) average).getD (-1) then some true
      else if (product? (.ofNat roomyRecords) average).getD (-1) < left then some false
      else (quotient? capacity (.ofNat tightPart)).map fun part => decide (left < part)

theorem toNat_difference : ((difference? a b).getD 0).toNat = a.toNat - b.toNat := by
  unfold difference?
  split
  · rename_i ordered
    exact UInt64.toNat_sub_of_le _ _ ordered
  · rename_i below
    rw [UInt64.le_iff_toNat_le] at below
    exact (Nat.sub_eq_zero_of_le (Nat.le_of_not_le below)).symm

theorem toNat_product :
    ((product? a b).getD (-1)).toNat = boundedProduct a.toNat b.toNat := by
  unfold product? boundedProduct
  split
  · rename_i fits
    rw [Option.getD_some, UInt64.toNat_mul, Nat.mod_eq_of_lt fits]
    exact (Nat.min_eq_left (Nat.le_sub_one_of_lt fits)).symm
  · rename_i large
    have bound : UInt64.size - 1 ≤ a.toNat * b.toNat :=
      Nat.le_trans (Nat.sub_le _ 1) (Nat.le_of_not_lt large)
    exact (Nat.min_eq_right bound).symm

theorem quotient?_of_ne_zero {a b : UInt64} (divides : b ≠ 0) : quotient? a b = some (a / b) :=
  if_neg divides

theorem isFull?_eq (capacity size count : UInt64) :
    isFull? capacity size count = some (isFull capacity.toNat size.toNat count.toNat) := by
  by_cases none : count = 0
  · have left := toNat_difference capacity size
    rw [isFull?, if_pos none, none, Option.some.injEq, Bool.eq_iff_iff, beq_iff_eq,
      ← UInt64.toNat_inj, left]
    exact isFull_zero.symm
  · have records : count.toNat ≠ 0 := fun zero => none (UInt64.toNat_inj.mp zero)
    have three : (UInt64.ofNat tightRecords).toNat = tightRecords := by decide
    have ten : (UInt64.ofNat roomyRecords).toNat = roomyRecords := by decide
    have tenth : (UInt64.ofNat tightPart).toNat = tightPart := by decide
    have part := quotient?_of_ne_zero (a := capacity) (show UInt64.ofNat tightPart ≠ 0 by decide)
    rw [isFull?, if_neg none, quotient?_of_ne_zero none, Option.bind_some, part, Option.map_some]
    simp only [isFull, if_neg records, UInt64.lt_iff_toNat_lt, toNat_difference, toNat_product,
      UInt64.toNat_div, three, ten, tenth]
    split
    · rfl
    · split <;> rfl

end Word

/-- Reckoning in words comes to a decision, which is that of the rule over numbers of any size: no
divisor is ever zero, and where a product stops at the largest word, the room that is left compares
with it as with the product itself. -/
theorem isFull_words (capacity size count : UInt64) :
    ∃ full, Word.isFull? capacity size count = some full ∧
      isFull capacity.toNat size.toNat count.toNat = full ∧
      (full = true ↔ IsDue capacity.toNat size.toNat count.toNat) :=
  ⟨_, Word.isFull?_eq capacity size count, rfl, isFull_iff capacity.toNat_lt⟩

/-- Three records of this size are no word any more. -/
example : Word.product? 3 9223372036854775808 = none ∧
    Word.isFull? (-1) 9223372036854775808 1 = some true := by decide

end IndexFeed
