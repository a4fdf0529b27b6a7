/-!
# Ranges of code points

A class of characters that no short rule describes is given by the closed
ranges of code points it consists of.
-/

namespace VersionedColumns.Text

/-- A closed range of code points, first and last. -/
abbrev CodeRange := Nat × Nat

/-- Whether ranges stand in increasing order, each with a gap before it. -/
def ascending : List CodeRange → Bool
  | [] => true
  | [range] => range.1 ≤ range.2
  | range :: next :: rest =>
    range.1 ≤ range.2 && range.2 + 1 < next.1 && ascending (next :: rest)

/-- How many code points ranges that stand apart hold. -/
def codePoints (ranges : List CodeRange) : Nat :=
  ranges.foldl (fun total range => total + (range.2 + 1 - range.1)) 0

/-- Whether a range holds the character. -/
def CodeRange.holds (range : CodeRange) (character : Char) : Bool :=
  range.1 ≤ character.toNat && character.toNat ≤ range.2

/-- Whether one of the ranges holds the character. -/
def inRanges (ranges : List CodeRange) (character : Char) : Bool :=
  ranges.any fun range => range.holds character

theorem inRanges_iff {ranges : List CodeRange} {character : Char} :
    inRanges ranges character = true ↔
      ∃ range ∈ ranges,
        range.1 ≤ character.toNat ∧ character.toNat ≤ range.2 := by
  simp [inRanges, CodeRange.holds]

/-- Ranges that all lie outside an interval hold none of its characters. -/
theorem inRanges_eq_false_of_outside {ranges : List CodeRange} {low high : Nat}
    (outside :
      (ranges.all fun range => range.2 < low || high < range.1) = true)
    {character : Char}
    (least : low ≤ character.toNat) (most : character.toNat ≤ high) :
    inRanges ranges character = false := by
  rw [← Bool.not_eq_true, inRanges_iff]
  rintro ⟨range, member, first, last⟩
  have side := List.all_eq_true.mp outside range member
  rw [Bool.or_eq_true, decide_eq_true_iff, decide_eq_true_iff] at side
  omega

end VersionedColumns.Text
