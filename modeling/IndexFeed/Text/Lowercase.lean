import IndexFeed.Text.CaseTable

/-!
Full lowering of a text. Every character is replaced by its lower-case form, which is two characters
for a capital I with a dot above; a capital sigma becomes the final form at the end of a word and
the ordinary form elsewhere.
-/

namespace IndexFeed.Text

private def inRanges (ranges : List (Nat × Nat)) (c : Char) : Bool :=
  ranges.any fun r => r.1 ≤ c.toNat && c.toNat ≤ r.2

def isCased (c : Char) : Bool :=
  inRanges casedRanges c

def isCaseIgnorable (c : Char) : Bool :=
  inRanges caseIgnorableRanges c

def lowerChar (c : Char) : List Char :=
  if c.toNat < 0x80 then [c.toLower]
  else if c.toNat = 0x130 then ['i', Char.ofNat 0x307]
  else
    match loweringRuns.find? fun (first, last, step, _) =>
        first ≤ c.toNat && c.toNat ≤ last && (c.toNat - first) % step == 0 with
    | some (_, _, _, distance) => [Char.ofNat ((c.toNat : Int) + distance).toNat]
    | none => [c]

private def nextCounted (cs : List Char) : Bool :=
  match cs.dropWhile isCaseIgnorable with
  | c :: _ => isCased c
  | [] => false

/-- Whether a capital sigma between `before`, read backwards, and `after` ends a word: a cased
character precedes it and none follows, case-ignorable characters being passed over. -/
def sigmaIsFinal (before after : List Char) : Bool :=
  nextCounted before && !nextCounted after

/-- No cased character is looked for beyond a character that is neither cased nor passed over. -/
private theorem nextCounted_append {mark : Char}
    (stops : (isCased mark || isCaseIgnorable mark) = false) (cs rest : List Char) :
    nextCounted (cs ++ mark :: rest) = nextCounted cs := by
  rw [Bool.or_eq_false_iff] at stops
  induction cs with
  | nil => simp [nextCounted, stops]
  | cons c cs ih =>
      rw [nextCounted, nextCounted] at *
      cases passed : isCaseIgnorable c with
      | true => simpa [passed] using ih
      | false => simp [passed]

theorem sigmaIsFinal_append {mark : Char} (stops : (isCased mark || isCaseIgnorable mark) = false)
    (before before' after after' : List Char) :
    sigmaIsFinal (before ++ mark :: before') after = sigmaIsFinal before after ∧
      sigmaIsFinal before (after ++ mark :: after') = sigmaIsFinal before after := by
  simp only [sigmaIsFinal, nextCounted_append stops, and_self]

/-- Lowers a text of which `before` has been read already, the last character first. -/
def lowerAfter (before : List Char) : List Char → List Char
  | [] => []
  | c :: rest =>
    let low :=
      if c = 'Σ' then [if sigmaIsFinal before rest then 'ς' else 'σ'] else lowerChar c
    low ++ lowerAfter (c :: before) rest

def lowercase (s : String) : String :=
  String.ofList (lowerAfter [] s.toList)

end IndexFeed.Text
