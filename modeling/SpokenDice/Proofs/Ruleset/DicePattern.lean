import SpokenDice.Ruleset.DiceText

/-!
# The pattern of dice in a description

The dice in a description are those that the pattern of digits, a "d", digits and perhaps spaces, a
plus sign, spaces and digits finds, where a pattern finds its first match, and of several ways to
match at one place prefers more characters to fewer.

- `Pattern.leaves`: what a pattern may leave of a text, in the order of preference.
- `Pattern.find?`: the first match of a pattern in a text, in the way it prefers.
- `leaves_seq_many`: a run ends where its characters end, if what follows does not begin with one.
- `find?_dice`: `findDice?` finds what the pattern finds.
-/

namespace SpokenDice

/-- A pattern of texts: a character of a class, any number of them, one pattern after the other, or
a pattern that may be absent. -/
inductive Pattern where
  | one (isMember : Char → Bool)
  | many (isMember : Char → Bool)
  | seq (first second : Pattern)
  | perhaps (inner : Pattern)

namespace Pattern

/-- What may be left after characters of a class at the head of the text, from the most of them to
none. -/
def leavesMany (isMember : Char → Bool) : List Char → List (List Char)
  | [] => [[]]
  | c :: text =>
    if isMember c then leavesMany isMember text ++ [c :: text] else [c :: text]

/-- What the pattern may leave of a text when it matches at its head, from the way to match that it
likes most: more characters before fewer, and what may be absent before its absence. -/
def leaves : Pattern → List Char → List (List Char)
  | one _, [] => []
  | one isMember, c :: text => if isMember c then [text] else []
  | many isMember, text => leavesMany isMember text
  | seq first second, text => (first.leaves text).flatMap second.leaves
  | perhaps inner, text => inner.leaves text ++ [text]

/-- The match at the head of the text, in the way that is liked most. -/
def matchAt? (pattern : Pattern) (text : List Char) : Option (List Char) :=
  (pattern.leaves text).head?.map fun rest => text.take (text.length - rest.length)

/-- The first match in the text. -/
def find? (pattern : Pattern) : List Char → Option (List Char)
  | [] => pattern.matchAt? []
  | c :: text =>
    match pattern.matchAt? (c :: text) with
    | some found => some found
    | none => pattern.find? text

/-- A given character. -/
def char (c : Char) : Pattern :=
  one (· == c)

/-- Digits, at least one. -/
def digits : Pattern :=
  seq (one Text.isDecimalDigit) (many Text.isDecimalDigit)

/-- A bonus, with the spaces in it. -/
def bonus : Pattern :=
  seq (many isSpace) (seq (char '+') (seq (many isSpace) digits))

/-- Dice with a bonus or without. -/
def dice : Pattern :=
  seq digits (seq (char 'd') (seq digits (perhaps bonus)))

/-! ## Runs of characters -/

variable {isMember : Char → Bool} {pattern : Pattern} {text : List Char}

/-- The pattern does not match where a member of the class stands. -/
def Shuns (pattern : Pattern) (isMember : Char → Bool) : Prop :=
  ∀ c text, isMember c = true → pattern.leaves (c :: text) = []

theorem head?_leavesMany (isMember : Char → Bool) (text : List Char) :
    (leavesMany isMember text).head? = some (text.dropWhile isMember) := by
  induction text with
  | nil => rfl
  | cons c text ih =>
    rw [leavesMany, List.dropWhile_cons]
    split
    · rw [List.head?_append, ih, Option.some_or]
    · rfl

/-- Where the second pattern does not begin with a member, all of the members come before it. -/
theorem leaves_seq_many (h : pattern.Shuns isMember) (text : List Char) :
    (seq (many isMember) pattern).leaves text = pattern.leaves (text.dropWhile isMember) := by
  show (leavesMany isMember text).flatMap pattern.leaves = _
  induction text with
  | nil => simp [leavesMany]
  | cons c text ih =>
    by_cases hc : isMember c = true
    · rw [leavesMany, if_pos hc, List.flatMap_append, ih, List.dropWhile_cons_of_pos hc,
        List.flatMap_singleton, h c text hc, List.append_nil]
    · rw [leavesMany, if_neg hc, List.dropWhile_cons_of_neg hc, List.flatMap_singleton]

theorem leaves_seq_char (c : Char) (text : List Char) :
    (seq (char c) pattern).leaves text = match text with
      | [] => []
      | d :: rest => if d = c then pattern.leaves rest else [] := by
  cases text with
  | nil => rfl
  | cons d rest =>
    show (if (d == c) = true then [rest] else []).flatMap pattern.leaves = _
    by_cases hd : d = c
    · simp [hd]
    · simp [hd]

theorem shuns_seq_char {c : Char} (h : isMember c = false) :
    (seq (char c) pattern).Shuns isMember := by
  intro d text hd
  have hne : d ≠ c := by
    rintro rfl
    cases h.symm.trans hd
  rw [leaves_seq_char]
  exact if_neg hne

/-- What follows digits begins where they end, if it does not begin with a digit. -/
theorem leaves_seq_digits (h : pattern.Shuns Text.isDecimalDigit) (text : List Char) :
    (seq digits pattern).leaves text =
      if text.takeWhile Text.isDecimalDigit = [] then []
      else pattern.leaves (text.dropWhile Text.isDecimalDigit) := by
  show (digits.leaves text).flatMap pattern.leaves = _
  cases text with
  | nil => rfl
  | cons c text =>
    by_cases hc : Text.isDecimalDigit c = true
    · rw [List.takeWhile_cons_of_pos hc, if_neg (List.cons_ne_nil _ _),
        List.dropWhile_cons_of_pos hc, ← leaves_seq_many h]
      simp [digits, leaves, hc]
    · rw [List.takeWhile_cons_of_neg hc, if_pos rfl]
      simp [digits, leaves, hc]

theorem head?_leaves_digits (text : List Char) :
    (digits.leaves text).head? =
      if text.takeWhile Text.isDecimalDigit = [] then none
      else some (text.dropWhile Text.isDecimalDigit) := by
  cases text with
  | nil => rfl
  | cons c text =>
    by_cases hc : Text.isDecimalDigit c = true
    · rw [List.takeWhile_cons_of_pos hc, if_neg (List.cons_ne_nil _ _),
        List.dropWhile_cons_of_pos hc, ← head?_leavesMany]
      simp [digits, leaves, hc]
    · rw [List.takeWhile_cons_of_neg hc, if_pos rfl]
      simp [digits, leaves, hc]

/-- The way that is liked most, where what comes first does not stand in the way of the rest. -/
theorem head?_leaves_seq {first second : Pattern} {rest last : List Char}
    (hfirst : (first.leaves text).head? = some rest)
    (hsecond : (second.leaves rest).head? = some last) :
    ((seq first second).leaves text).head? = some last := by
  obtain ⟨others, hothers⟩ := List.head?_eq_some_iff.mp hfirst
  show ((first.leaves text).flatMap second.leaves).head? = _
  rw [hothers, List.flatMap_cons, List.head?_append, hsecond, Option.some_or]

/-! ## Dice -/

theorem leaves_bonus (text : List Char) :
    bonus.leaves text = match text.dropWhile isSpace with
      | [] => []
      | c :: rest => if c = '+' then digits.leaves (rest.dropWhile isSpace) else [] := by
  have hdigits : digits.Shuns isSpace := by
    intro c rest hc
    obtain rfl : c = ' ' := beq_iff_eq.mp hc
    rfl
  rw [bonus, leaves_seq_many (shuns_seq_char (by decide)), leaves_seq_char]
  simp only [leaves_seq_many hdigits]

/-- Of a text, the bonus takes what `bonusAt` tells. -/
theorem head?_leaves_bonus (text : List Char) :
    ∃ rest, text = bonusAt text ++ rest ∧ ((perhaps bonus).leaves text).head? = some rest := by
  show ∃ rest, _ ∧ (bonus.leaves text ++ [text]).head? = some rest
  rw [List.head?_append, leaves_bonus]
  unfold bonusAt
  split
  · rename_i rest hplus
    rw [hplus]
    simp only [if_true, head?_leaves_digits]
    split
    · exact ⟨text, rfl, rfl⟩
    · refine ⟨_, ?_, rfl⟩
      simp only [List.append_assoc, List.cons_append, List.takeWhile_append_dropWhile]
      rw [← hplus, List.takeWhile_append_dropWhile]
  · rename_i hplus
    refine ⟨text, rfl, ?_⟩
    cases hskip : text.dropWhile isSpace with
    | nil => rfl
    | cons c rest =>
      have hne : c ≠ '+' := by
        rintro rfl
        exact hplus rest hskip
      simp [hne]

theorem leaves_dice (text : List Char) :
    dice.leaves text =
      if text.takeWhile Text.isDecimalDigit = [] then []
      else match text.dropWhile Text.isDecimalDigit with
        | [] => []
        | c :: rest => if c = 'd' then (seq digits (perhaps bonus)).leaves rest else [] := by
  rw [dice, leaves_seq_digits (shuns_seq_char (by decide)), leaves_seq_char]

/-- The match of a text is what stands before the text that is left. -/
theorem matchAt?_eq_some {found rest : List Char} (htext : text = found ++ rest)
    (hrest : (pattern.leaves text).head? = some rest) : pattern.matchAt? text = some found := by
  rw [matchAt?, hrest, Option.map_some, htext, List.length_append, Nat.add_sub_cancel,
    List.take_left]

theorem matchAt?_eq_none (h : pattern.leaves text = []) : pattern.matchAt? text = none := by
  rw [matchAt?, h]
  rfl

theorem matchAt?_dice (text : List Char) : dice.matchAt? text = diceAt? text := by
  have hleaves := leaves_dice text
  unfold diceAt?
  split
  · rename_i rest hletter
    have hdigits := head?_leaves_digits rest
    simp only [hletter, if_true] at hleaves
    dsimp only
    split
    · rename_i hmissing
      refine matchAt?_eq_none ?_
      rw [hleaves, ite_eq_left_iff]
      intro hcount
      rw [if_pos (hmissing.resolve_left hcount), List.head?_eq_none_iff] at hdigits
      simp [leaves, hdigits]
    · rename_i hpresent
      obtain ⟨hcount, hsides⟩ := not_or.mp hpresent
      obtain ⟨last, hrest, hlast⟩ := head?_leaves_bonus (rest.dropWhile Text.isDecimalDigit)
      rw [if_neg hsides] at hdigits
      have hleft : (dice.leaves text).head? = some last := by
        rw [hleaves, if_neg hcount, head?_leaves_seq hdigits hlast]
      refine matchAt?_eq_some ?_ hleft
      simp only [List.append_assoc, List.cons_append]
      rw [← hrest, List.takeWhile_append_dropWhile, ← hletter, List.takeWhile_append_dropWhile]
  · rename_i hletter
    refine matchAt?_eq_none ?_
    rw [hleaves, ite_eq_left_iff]
    intro _
    cases hskip : text.dropWhile Text.isDecimalDigit with
    | nil => rfl
    | cons c rest =>
      refine if_neg ?_
      rintro rfl
      exact hletter rest hskip

/-- The first dice of a text are the first match of the pattern. -/
theorem find?_dice (text : List Char) : dice.find? text = findDice? text := by
  induction text with
  | nil => rfl
  | cons c text ih =>
    rw [find?, findDice?, matchAt?_dice]
    cases diceAt? (c :: text) with
    | none => exact ih
    | some found => rfl

end Pattern

end SpokenDice
