import SpokenDice.Text.DecimalDigit

/-!
# Dice in a description

A spell says in running text which dice it deals: "takes 8d6 fire damage". `findDice?` takes
the first dice from such a text: digits, a small "d", digits, and perhaps a bonus, which is a plus
sign and digits, with spaces around the sign. Digits are those of every script, and as many are
taken as stand there.

- `append_of_findDice?_eq_some`: what is found stands in the text.
-/

namespace SpokenDice

/-- Whether the character is a space. -/
def isSpace (c : Char) : Bool :=
  c == ' '

/-- The bonus at the head of the text, with the spaces in it; empty if there is none. -/
def bonusAt (text : List Char) : List Char :=
  match text.dropWhile isSpace with
  | '+' :: rest =>
    let digits := (rest.dropWhile isSpace).takeWhile Text.isDecimalDigit
    if digits = [] then []
    else text.takeWhile isSpace ++ '+' :: rest.takeWhile isSpace ++ digits
  | _ => []

/-- The dice at the head of the text. -/
def diceAt? (text : List Char) : Option (List Char) :=
  match text.dropWhile Text.isDecimalDigit with
  | 'd' :: rest =>
    let count := text.takeWhile Text.isDecimalDigit
    let sides := rest.takeWhile Text.isDecimalDigit
    if count = [] ∨ sides = [] then none
    else some (count ++ 'd' :: sides ++ bonusAt (rest.dropWhile Text.isDecimalDigit))
  | _ => none

/-- The first dice of the text. -/
def findDice? : List Char → Option (List Char)
  | [] => none
  | c :: text =>
    match diceAt? (c :: text) with
    | some dice => some dice
    | none => findDice? text

/-- The bonus stands at the head of the text. -/
theorem bonusAt_append (text : List Char) : ∃ rest, text = bonusAt text ++ rest := by
  unfold bonusAt
  split
  · rename_i rest h
    have htext : text = text.takeWhile isSpace ++ '+' :: rest := by
      rw [← h, List.takeWhile_append_dropWhile]
    dsimp only
    split
    · exact ⟨text, rfl⟩
    · refine ⟨(rest.dropWhile isSpace).dropWhile Text.isDecimalDigit, ?_⟩
      simp only [List.append_assoc, List.cons_append, List.takeWhile_append_dropWhile]
      exact htext
  · exact ⟨text, rfl⟩

/-- The dice found at the head of a text stand there. -/
theorem append_of_diceAt?_eq_some {text dice : List Char} (h : diceAt? text = some dice) :
    ∃ rest, text = dice ++ rest := by
  unfold diceAt? at h
  split at h
  · rename_i rest hd
    dsimp only at h
    split at h
    · simp at h
    · obtain ⟨tail, htail⟩ := bonusAt_append (rest.dropWhile Text.isDecimalDigit)
      obtain rfl := Option.some.inj h
      refine ⟨tail, ?_⟩
      simp only [List.append_assoc, List.cons_append, ← htail, List.takeWhile_append_dropWhile,
        ← hd]
  · simp at h

/-- The dice found in a text are a part of it. -/
theorem append_of_findDice?_eq_some {text dice : List Char} (h : findDice? text = some dice) :
    ∃ before after, text = before ++ dice ++ after := by
  induction text with
  | nil => simp [findDice?] at h
  | cons c text ih =>
    rw [findDice?] at h
    split at h
    · rename_i found hfound
      obtain rfl := Option.some.inj h
      obtain ⟨rest, hrest⟩ := append_of_diceAt?_eq_some hfound
      exact ⟨[], rest, hrest⟩
    · obtain ⟨before, after, htext⟩ := ih h
      exact ⟨c :: before, after, by simp [htext]⟩

end SpokenDice
