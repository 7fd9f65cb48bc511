import SpokenDice.Text.CodeRange

/-!
# Blank characters

A blank is a character with the Unicode property White_Space, and a text is blank when it holds
nothing else.

- `isBlank_of_isWhitespace`: every blank of ASCII is one.
- `trim_eq_nil_iff`: trimming takes the blanks from both ends, and nothing remains of a text exactly
  when it is blank.
-/

namespace SpokenDice.Text

/-- The code points with the property White_Space. -/
def blankRanges : CodeRanges :=
  [(0x9, 0xD), (0x20, 0x20), (0x85, 0x85), (0xA0, 0xA0), (0x1680, 0x1680), (0x2000, 0x200A),
   (0x2028, 0x2029), (0x202F, 0x202F), (0x205F, 0x205F), (0x3000, 0x3000)]

/-- Whether the character has the property White_Space. -/
def isBlank (c : Char) : Bool :=
  blankRanges.contains c

theorem isBlank_of_isWhitespace {c : Char} (h : c.isWhitespace = true) : isBlank c = true := by
  simp only [Char.isWhitespace, Bool.or_eq_true, decide_eq_true_eq] at h
  rcases h with ((rfl | rfl) | rfl) | rfl <;> decide

/-- Whether the text holds blanks only; the empty text does. -/
def isBlankText (text : List Char) : Bool :=
  text.all isBlank

/-- The text without the blanks at its two ends. -/
def trim (text : List Char) : List Char :=
  ((text.dropWhile isBlank).reverse.dropWhile isBlank).reverse

/-- Dropping the leading blanks leaves something other than a blank, or nothing. -/
theorem forall_mem_dropWhile_isBlank_iff {text : List Char} :
    (∀ c ∈ text.dropWhile isBlank, isBlank c = true) ↔ ∀ c ∈ text, isBlank c = true := by
  induction text with
  | nil => simp
  | cons c rest ih =>
    by_cases hc : isBlank c = true
    · simp [hc, ih]
    · simp [hc]

theorem dropWhile_isBlank_eq_nil_iff {text : List Char} :
    text.dropWhile isBlank = [] ↔ ∀ c ∈ text, isBlank c = true := by
  induction text with
  | nil => simp
  | cons c rest ih =>
    by_cases hc : isBlank c = true
    · simp [hc, ih]
    · simp [hc]

/-- Exactly the blank texts are trimmed to nothing. -/
theorem trim_eq_nil_iff {text : List Char} : trim text = [] ↔ isBlankText text = true := by
  simp only [trim, List.reverse_eq_nil_iff, dropWhile_isBlank_eq_nil_iff, List.mem_reverse,
    forall_mem_dropWhile_isBlank_iff, isBlankText, List.all_eq_true]

end SpokenDice.Text
