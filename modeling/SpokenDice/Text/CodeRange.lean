/-!
# Ranges of code points

A class of characters is a list of ranges of code points, both ends included. `contains` asks
whether a character lies in one of them.
-/

namespace SpokenDice.Text

/-- A class of characters: ranges of code points, both ends included. -/
abbrev CodeRanges := List (Nat × Nat)

/-- Whether the code point of `c` lies in one of the ranges. -/
def CodeRanges.contains (ranges : CodeRanges) (c : Char) : Bool :=
  ranges.any fun r => decide (r.1 ≤ c.toNat ∧ c.toNat ≤ r.2)

theorem CodeRanges.contains_iff {ranges : CodeRanges} {c : Char} :
    ranges.contains c = true ↔ ∃ r ∈ ranges, r.1 ≤ c.toNat ∧ c.toNat ≤ r.2 := by
  simp [CodeRanges.contains]

/-- A character of one class is in no class that is apart from it. -/
theorem CodeRanges.contains_eq_false_of_apart {a b : CodeRanges}
    (hapart : ∀ r ∈ a, ∀ s ∈ b, r.2 < s.1 ∨ s.2 < r.1) {c : Char} (h : a.contains c = true) :
    b.contains c = false := by
  refine Bool.eq_false_iff.mpr fun hb => ?_
  obtain ⟨r, hr, hfrom, hto⟩ := contains_iff.mp h
  obtain ⟨s, hs, hsfrom, hsto⟩ := contains_iff.mp hb
  have hrs := hapart r hr s hs
  omega

end SpokenDice.Text
