/-!
# Letters without their case

Names and keywords are compared without regard to the case of the letters of ASCII; every other
character stands for itself.

- `sameLetters_iff`: two texts have the same letters when they agree after lower-casing.
- `length_eq_of_sameLetters`: such texts have equally many characters.
-/

namespace SpokenDice.Text

/-- The text with the letters of ASCII in lower case. -/
def lowerCase (text : List Char) : List Char :=
  text.map Char.toLower

/-- Whether two texts differ at most in the case of letters of ASCII. -/
def sameLetters (a b : List Char) : Bool :=
  lowerCase a == lowerCase b

theorem sameLetters_iff {a b : List Char} : sameLetters a b = true ↔ lowerCase a = lowerCase b := by
  simp [sameLetters]

@[simp] theorem length_lowerCase (text : List Char) : (lowerCase text).length = text.length := by
  simp [lowerCase]

theorem length_eq_of_sameLetters {a b : List Char} (h : sameLetters a b = true) :
    a.length = b.length := by
  simpa using congrArg List.length (sameLetters_iff.mp h)

end SpokenDice.Text
