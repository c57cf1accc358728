import IndexFeed.Text.Blank
import IndexFeed.Text.Case
import IndexFeed.Text.Lowercase
import Mathlib.Data.List.DropRight

/-!
The normal form in which texts are compared. Trimming a text a second time changes nothing; a list
of words is lowered word by word; and in an ASCII text nothing but the ASCII letters is lowered.
-/

namespace IndexFeed.Text

theorem trim_trim (s : String) : trim (trim s) = trim s := by
  have kept (cs : List Char) : trimStart (trimEnd (trimStart cs)) = trimEnd (trimStart cs) := by
    apply List.dropWhile_eq_self_iff.mpr
    intro some_char
    have begins : trimEnd (trimStart cs) <+: trimStart cs := List.rdropWhile_prefix isBlank _
    have some_char' : 0 < (trimStart cs).length := some_char.trans_le begins.length_le
    rw [begins.getElem some_char]
    exact List.dropWhile_get_zero_not isBlank cs some_char'
  have ends (cs : List Char) : trimEnd (trimEnd cs) = trimEnd cs :=
    List.rdropWhile_idempotent isBlank cs
  rw [trim, trim, String.toList_ofList, kept, ends]

/-- A text is blank if trimming leaves nothing of it. -/
theorem isBlankText_iff {s : String} : isBlankText s = true ↔ trim s = "" := by
  have nothing : trim s = "" ↔ trimEnd (trimStart s.toList) = [] := by
    rw [trim, ← String.toList_inj, String.toList_ofList]
    rfl
  have ends : trimEnd (trimStart s.toList) = [] ↔ ∀ c ∈ trimStart s.toList, isBlank c = true :=
    List.rdropWhile_eq_nil_iff
  rw [nothing, ends, isBlankText, List.all_eq_true]
  constructor
  · intro blank c member
    exact blank c ((List.dropWhile_sublist isBlank).subset member)
  · intro rest c member
    rw [← List.takeWhile_append_dropWhile (p := isBlank) (l := s.toList), List.mem_append] at member
    exact member.elim List.mem_takeWhile_imp (rest c)

section Words

variable {mark : Char} (stops : (isCased mark || isCaseIgnorable mark) = false)
include stops

/-- What stands in front of a mark between words has no effect on how the words behind are lowered.
-/
theorem lowerAfter_append_before (before before' cs : List Char) :
    lowerAfter (before ++ mark :: before') cs = lowerAfter before cs := by
  induction cs generalizing before with
  | nil => rfl
  | cons c rest ih =>
      have later : lowerAfter (c :: (before ++ mark :: before')) rest
          = lowerAfter (c :: before) rest :=
        ih (c :: before)
      rw [lowerAfter, lowerAfter, later, (sigmaIsFinal_append stops before before' rest []).1]

theorem lowerAfter_append (before cs rest : List Char) (same : lowerChar mark = [mark]) :
    lowerAfter before (cs ++ mark :: rest)
      = lowerAfter before cs ++ mark :: lowerAfter [] rest := by
  induction cs generalizing before with
  | nil =>
      have other : mark ≠ 'Σ' := by
        rintro rfl
        exact absurd stops (by decide +kernel)
      have later : lowerAfter (mark :: before) rest = lowerAfter [] rest :=
        lowerAfter_append_before stops [] before rest
      show lowerAfter before (mark :: rest) = mark :: lowerAfter [] rest
      rw [lowerAfter, if_neg other, later, same]
      rfl
  | cons c cs ih =>
      rw [List.cons_append, lowerAfter, lowerAfter, ih,
        (sigmaIsFinal_append stops before [] cs rest).2, List.append_assoc]

end Words

/-- Words held together by commas are lowered one by one. -/
theorem lowercase_intercalate (words : List String) :
    lowercase (",".intercalate words) = ",".intercalate (words.map lowercase) := by
  have stops : (isCased ',' || isCaseIgnorable ',') = false := by decide +kernel
  induction words with
  | nil => rfl
  | cons first rest ih =>
      cases rest with
      | nil => simp
      | cons second rest =>
          apply String.toList_inj.mp
          have joined : (",".intercalate (first :: second :: rest)).toList
              = first.toList ++ ',' :: (",".intercalate (second :: rest)).toList := by
            rw [String.intercalate_cons_cons]
            simp
          have later := congrArg String.toList ih
          rw [lowercase, String.toList_ofList] at later
          rw [lowercase, String.toList_ofList, joined, lowerAfter_append stops _ _ _ rfl, later]
          simp [lowercase]

theorem lowercase_of_ascii {s : String} (ascii : ∀ c ∈ s.toList, c.toNat < 128) :
    lowercase s = asciiLower s := by
  have lowers (cs before : List Char) (ascii : ∀ c ∈ cs, c.toNat < 128) :
      lowerAfter before cs = cs.map Char.toLower := by
    induction cs generalizing before with
    | nil => rfl
    | cons c rest ih =>
        rw [List.forall_mem_cons] at ascii
        have other : c ≠ 'Σ' := by
          rintro rfl
          exact absurd ascii.1 (by decide)
        rw [lowerAfter, if_neg other, lowerChar, if_pos ascii.1, ih _ ascii.2]
        rfl
  rw [lowercase, asciiLower, lowers _ _ ascii]

theorem toNat_lt_of_toLower {c : Char} (ascii : c.toLower.toNat < 128) : c.toNat < 128 := by
  delta Char.toLower at ascii
  split at ascii
  · rename_i upper
    have below : c.toNat ≤ 'Z'.toNat := upper.2
    have limit : 'Z'.toNat = 90 := rfl
    omega
  · exact ascii

/-- A text that is lowered to an ASCII text is one itself. -/
theorem lowercase_eq_of_asciiLower {s word : String} (ascii : ∀ c ∈ word.toList, c.toNat < 128)
    (h : asciiLower s = word) : lowercase s = word := by
  rw [← h]
  apply lowercase_of_ascii
  intro c member
  apply toNat_lt_of_toLower
  apply ascii
  rw [← h, asciiLower, String.toList_ofList]
  exact List.mem_map_of_mem member

theorem toNat_ofNat {n : Nat} (valid : n.isValidChar) : (Char.ofNat n).toNat = n := by
  rw [Char.ofNat, dif_pos valid]
  rfl

/-- No run leads from outside ASCII into it, except that of the Kelvin sign. -/
theorem loweringRuns_beyond : ∀ run ∈ loweringRuns,
    (128 : Int) ≤ run.1 + run.2.2.2 ∧ (run.2.1 + run.2.2.2 < 0xD800 ∨
      (0xE000 : Int) ≤ run.1 + run.2.2.2 ∧ run.2.1 + run.2.2.2 < 0x110000) ∨
    run.1 = run.2.1 ∧ run.1 + run.2.2.2 = ('k'.toNat : Int) := by decide +kernel

theorem lowerChar_beyond {c x : Char} (beyond : 128 ≤ c.toNat) (member : x ∈ lowerChar c) :
    128 ≤ x.toNat ∨ x = 'i' ∨ x = 'k' := by
  rw [lowerChar, if_neg (by omega)] at member
  split at member
  · simp only [List.mem_cons, List.not_mem_nil, or_false] at member
    obtain rfl | rfl := member
    · exact .inr (.inl rfl)
    · exact .inl (by decide)
  · split at member
    · rename_i first last step distance found
      have listed := loweringRuns_beyond _ (List.mem_of_find?_eq_some found)
      have within := List.find?_some found
      simp only [Bool.and_eq_true, decide_eq_true_eq] at within listed
      rw [List.mem_singleton] at member
      subst member
      generalize target : ((c.toNat : Int) + distance).toNat = n
      obtain ⟨low, valid⟩ | kelvin := listed
      · have valid : n.isValidChar := by
          rw [Nat.isValidChar]
          omega
        rw [toNat_ofNat valid]
        omega
      · have same : n = 'k'.toNat := by omega
        rw [same]
        exact .inr (.inr rfl)
    · rw [List.mem_singleton] at member
      exact .inl (member ▸ beyond)

theorem lowerChar_ne_nil (c : Char) : lowerChar c ≠ [] := by
  rw [lowerChar]
  repeat' split
  all_goals simp

/-- Only ASCII letters are lowered to ASCII letters, if they are other than these two. -/
theorem lowerAfter_eq_map {before cs word : List Char}
    (plain : ∀ x ∈ word, x.toNat < 128 ∧ x ≠ 'i' ∧ x ≠ 'k')
    (lowered : lowerAfter before cs = word) :
    cs.map Char.toLower = word := by
  induction cs generalizing before word with
  | nil => exact lowered
  | cons c rest ih =>
      rw [lowerAfter] at lowered
      subst lowered
      rw [List.forall_mem_append] at plain
      have other : c ≠ 'Σ' := by
        rintro rfl
        rw [if_pos rfl, List.forall_mem_singleton] at plain
        have sigma := plain.1.1
        split at sigma <;> exact absurd sigma (by decide)
      rw [if_neg other] at plain ⊢
      have ascii : c.toNat < 128 := by
        obtain ⟨x, member⟩ := List.exists_mem_of_ne_nil _ (lowerChar_ne_nil c)
        have small := plain.1 x member
        apply Decidable.byContradiction
        intro beyond
        obtain large | dotted | kelvin := lowerChar_beyond (by omega) member
        · omega
        · exact small.2.1 dotted
        · exact small.2.2 kelvin
      rw [List.map_cons, ih plain.2 rfl, lowerChar, if_pos ascii]
      rfl

/-- No text in other letters passes for a word of ASCII characters without an i or a k. -/
theorem lowercase_eq_iff {s word : String}
    (plain : ∀ x ∈ word.toList, x.toNat < 128 ∧ x ≠ 'i' ∧ x ≠ 'k') :
    lowercase s = word ↔ asciiLower s = word := by
  constructor
  · rintro rfl
    rw [lowercase, String.toList_ofList] at plain
    rw [asciiLower, lowerAfter_eq_map plain rfl, lowercase]
  · exact lowercase_eq_of_asciiLower fun x member => (plain x member).1

theorem lowercase_eq_empty {s : String} : lowercase s = "" ↔ s = "" := by
  rw [lowercase_eq_iff (by simp), asciiLower, ← String.toList_inj, ← String.toList_inj,
    String.toList_ofList]
  simp

end IndexFeed.Text
