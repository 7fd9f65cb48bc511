import SpokenDice.Integer
import SpokenDice.Text.Alphanumeric
import SpokenDice.Text.Blank
import SpokenDice.Text.LetterCase

/-!
# Words, signs and numbers of a request

A scanner reads something from the head of a text and leaves the rest, or it does not match. All
scanners of this library skip separators first: blanks and commas, any number of them or none.

- `afterWord_eq_some_iff`: a word matches up to the case of its letters, and only where it ends:
  the character after it is not alphanumeric.
- `keyword`, `sign` and `integer` read the tokens of a request.
-/

namespace SpokenDice.Request

/-- Reads something from the head of a text and leaves the rest, or does not match. -/
abbrev Scanner := StateT (List Char) Option

/-- Whether the character separates tokens. -/
def isSeparator (c : Char) : Bool :=
  Text.isBlank c || c == ','

/-- The text after the separators at its head. -/
def skipSeparators (text : List Char) : List Char :=
  text.dropWhile isSeparator

/-- Skips separators. -/
def separators : Scanner Unit :=
  modify skipSeparators

/-- Whether a word may end before the text: no alphanumeric character goes on with it. -/
def endsWord : List Char → Bool
  | [] => true
  | c :: _ => !Text.isAlphanumeric c

/-- What follows the word at the head of the text, if it stands there as a whole word. -/
def afterWord : List Char → List Char → Option (List Char)
  | [], text => if endsWord text then some text else none
  | _ :: _, [] => none
  | w :: word, c :: text => if w.toLower = c.toLower then afterWord word text else none

theorem afterWord_eq_some_iff {word text rest : List Char} :
    afterWord word text = some rest ↔
      ∃ head, text = head ++ rest ∧ Text.sameLetters head word = true ∧ endsWord rest = true := by
  induction word generalizing text with
  | nil =>
    simp only [afterWord, Text.sameLetters_iff, Text.lowerCase, List.map_nil, List.map_eq_nil_iff]
    constructor
    · intro h
      by_cases he : endsWord text = true
      · obtain rfl : text = rest := by simpa [he] using h
        exact ⟨[], rfl, rfl, he⟩
      · simp [he] at h
    · rintro ⟨head, rfl, rfl, he⟩
      simp [he]
  | cons w word ih =>
    cases text with
    | nil =>
      simp only [afterWord, Text.sameLetters_iff, Text.lowerCase]
      constructor
      · intro h
        simp at h
      · rintro ⟨head, htext, hsame, -⟩
        obtain ⟨rfl, -⟩ := List.append_eq_nil_iff.mp htext.symm
        simp at hsame
    | cons c text =>
      simp only [Text.sameLetters_iff, Text.lowerCase] at ih ⊢
      by_cases hc : w.toLower = c.toLower
      · rw [afterWord, if_pos hc, ih]
        constructor
        · rintro ⟨head, rfl, hsame, he⟩
          exact ⟨c :: head, rfl, by simp [hsame, hc], he⟩
        · rintro ⟨head, htext, hsame, he⟩
          cases head with
          | nil => simp at hsame
          | cons d head =>
            simp only [List.cons_append, List.cons.injEq] at htext
            simp only [List.map_cons, List.cons.injEq] at hsame
            exact ⟨head, htext.2, hsame.2, he⟩
      · rw [afterWord, if_neg hc]
        constructor
        · intro h
          simp at h
        · rintro ⟨head, htext, hsame, -⟩
          cases head with
          | nil => simp at hsame
          | cons d head =>
            simp only [List.cons_append, List.cons.injEq] at htext
            simp only [List.map_cons, List.cons.injEq] at hsame
            exact absurd (htext.1 ▸ hsame.1.symm) hc

/-- Reads a word of the language of requests. -/
def keyword (word : String) : Scanner Unit := do
  separators
  let rest ← afterWord word.toList (← get)
  set rest

/-- Reads a sign such as a plus or a parenthesis. -/
def sign (c : Char) : Scanner Unit := do
  separators
  match ← get with
  | [] => failure
  | d :: rest => if d = c then set rest else failure

/-- Reads digits that write an integer of 64 bits. -/
def integer : Scanner Int64 := do
  separators
  let text ← get
  let value ← natural? (text.takeWhile Char.isDigit)
  set (text.dropWhile Char.isDigit)
  let integer ← int64? (Int.ofNat value)
  pure integer

end SpokenDice.Request
