import SpokenDice.Proofs.Request.Agreement

/-!
# The case of letters in a request

Two texts that differ only in the case of letters of ASCII are read in step: separators, signs and
digits are no letters, and words and names are compared without their case. So the two texts give
the same tree, up to the case of the names in it.

- `Text.congr_toLower`: what all letters are, or none is, does not depend on their case.
- `afterWord_lowerCase`, `longestName_lowerCase`: what is found in a text in lower case.
- `inStep_sameLetters`: such texts are read in step.
-/

namespace SpokenDice

namespace Text

/-- What is no letter is its own lower case. -/
theorem toLower_eq_self {c : Char} (h : c.isAlpha = false) : c.toLower = c := by
  simp only [Char.isAlpha, Bool.or_eq_false_iff] at h
  exact Char.toLower_eq_of_not_isUpper (by simp [h.1])

/-- A property that all letters have, or none, does not depend on their case. -/
theorem congr_toLower {p : Char → Bool} {b : Bool} (hp : ∀ c, c.isAlpha = true → p c = b)
    (c : Char) : p c.toLower = p c := by
  cases hc : c.isAlpha with
  | true => rw [hp c hc, hp c.toLower ((Char.isAlpha_toLower_eq_isAlpha c).trans hc)]
  | false => rw [toLower_eq_self hc]

/-- What is no letter is no letter in lower case either. -/
theorem toLower_eq_iff {c d : Char} (hc : c.isAlpha = false) : d.toLower = c ↔ d = c := by
  constructor
  · rintro rfl
    rw [Char.isAlpha_toLower_eq_isAlpha] at hc
    exact (toLower_eq_self hc).symm
  · rintro rfl
    exact toLower_eq_self hc

theorem toLower_eq_d_iff {c : Char} : c.toLower = 'd' ↔ c = 'd' ∨ c = 'D' := by
  constructor
  · intro h
    simp only [Char.toLower] at h
    split at h
    · refine .inr (Char.ext (UInt32.toNat_inj.mp ?_))
      have hval := congrArg (fun c => c.val.toNat) h
      grind [UInt32.toNat_add, Char.toNat_val]
    · exact .inl h
  · rintro (rfl | rfl) <;> rfl

theorem isBlank_of_isAlpha {c : Char} (h : c.isAlpha = true) : isBlank c = false := by
  have hletter : 65 ≤ c.toNat ∧ c.toNat ≤ 122 := by
    simp only [Char.isAlpha, Char.isUpper, Char.isLower] at h
    grind [Char.toNat_val, UInt32.le_iff_toNat_le]
  exact isBlank_of_visible (by omega) (by omega)

theorem isAlphanumeric_toLower (c : Char) : isAlphanumeric c.toLower = isAlphanumeric c := by
  have hletters : ∀ c : Char, c.isAlpha = true → isAlphanumeric c = true := fun c hc =>
    isAlphanumeric_of_isAlphanum (by simp [Char.isAlphanum, hc])
  exact congr_toLower hletters c

theorem lowerCase_cons (c : Char) (text : List Char) :
    lowerCase (c :: text) = c.toLower :: lowerCase text := rfl

@[simp] theorem lowerCase_lowerCase (text : List Char) :
    lowerCase (lowerCase text) = lowerCase text := by
  simp [lowerCase]

theorem lowerCase_take (n : Nat) (text : List Char) :
    lowerCase (text.take n) = (lowerCase text).take n :=
  List.map_take

theorem lowerCase_drop (n : Nat) (text : List Char) :
    lowerCase (text.drop n) = (lowerCase text).drop n :=
  List.map_drop

theorem dropWhile_lowerCase {p : Char → Bool} (hp : ∀ c, p c.toLower = p c) (text : List Char) :
    (lowerCase text).dropWhile p = lowerCase (text.dropWhile p) := by
  rw [lowerCase, List.dropWhile_map, show p ∘ Char.toLower = p from funext hp]
  rfl

/-- Digits have no case. -/
theorem takeWhile_isDigit_lowerCase (text : List Char) :
    (lowerCase text).takeWhile Char.isDigit = text.takeWhile Char.isDigit := by
  induction text with
  | nil => rfl
  | cons c text ih =>
    rw [lowerCase, List.map_cons, List.takeWhile_cons, List.takeWhile_cons, isDigit_toLower]
    cases hc : c.isDigit with
    | true =>
      rw [toLower_eq_self (isAlpha_of_isDigit hc)]
      exact congrArg (c :: ·) ih
    | false => rfl

end Text

/-- The name with its letters of ASCII in lower case. -/
def lowerName (name : String) : String :=
  String.ofList (Text.lowerCase name.toList)

namespace Request

open Text (lowerCase lowerCase_cons)

/-! ## What is found in lower case -/

theorem isSeparator_of_isAlpha {c : Char} (h : c.isAlpha = true) : isSeparator c = false := by
  have hcomma : c ≠ ',' := by
    rintro rfl
    cases h
  simp [isSeparator, Text.isBlank_of_isAlpha h, hcomma]

theorem isSeparator_toLower (c : Char) : isSeparator c.toLower = isSeparator c :=
  Text.congr_toLower (fun _ => isSeparator_of_isAlpha) c

theorem skipSeparators_lowerCase (text : List Char) :
    skipSeparators (lowerCase text) = lowerCase (skipSeparators text) :=
  Text.dropWhile_lowerCase isSeparator_toLower text

theorem endsWord_lowerCase (text : List Char) : endsWord (lowerCase text) = endsWord text := by
  cases text with
  | nil => rfl
  | cons c rest => exact congrArg not (Text.isAlphanumeric_toLower c)

theorem afterWord_lowerCase (word text : List Char) :
    afterWord word (lowerCase text) = (afterWord word text).map lowerCase := by
  induction word generalizing text with
  | nil =>
    rw [afterWord, afterWord, endsWord_lowerCase]
    split <;> rfl
  | cons w word ih =>
    cases text with
    | nil => rfl
    | cons c text =>
      show (if w.toLower = c.toLower.toLower then _ else _) =
        (if w.toLower = c.toLower then _ else _ : Option (List Char)).map lowerCase
      rw [Char.toLower_toLower_eq_toLower]
      split
      · exact ih text
      · rfl

theorem longestName_lowerCase (names : List (List Char)) (text : List Char) :
    longestName names (lowerCase text) = longestName names text := by
  have hmatches : matchesName (lowerCase text) = matchesName text := by
    funext name
    rw [matchesName, afterWord_lowerCase, Option.isSome_map, matchesName]
  rw [longestName, hmatches, longestName]

theorem dieLetter_apply (text : List Char) :
    dieLetter text = match skipSeparators text with
      | [] => none
      | c :: rest => if c.toLower = 'd' then some ((), rest) else none := by
  show (sign 'd' text <|> sign 'D' text) = _
  rw [sign_apply, sign_apply]
  cases skipSeparators text with
  | nil => rfl
  | cons c rest =>
    by_cases hsmall : c = 'd'
    · simp [hsmall]
    · by_cases hbig : c = 'D' <;> simp [Text.toLower_eq_d_iff, hsmall, hbig]

/-! ## Reading without regard to case -/

/-- The texts differ at most in the case of letters of ASCII. -/
def SameLetters (text text' : List Char) : Prop :=
  lowerCase text = lowerCase text'

variable {α γ : Type} {text text' : List Char}

/-- A scanner that makes the same of a text in lower case makes the same of texts with the same
letters. -/
theorem agree_of_lowerCase {s : Scanner α} (g : α → γ)
    (hs : ∀ text, (s (lowerCase text)).map (Prod.map g lowerCase) =
      (s text).map (Prod.map g lowerCase)) :
    Scanner.Agree SameLetters (fun a b => g a = g b) s s := by
  intro text text' htext
  have hread : (s text).map (Prod.map g lowerCase) = (s text').map (Prod.map g lowerCase) := by
    rw [← hs, htext, hs]
  generalize s text = read at hread ⊢
  generalize s text' = read' at hread ⊢
  cases read with
  | none =>
    cases read' with
    | none => exact .none
    | some b => cases hread
  | some a =>
    cases read' with
    | none => cases hread
    | some b => exact .some (Prod.mk.inj (Option.some.inj hread))

theorem keyword_agree (word : String) :
    Scanner.Agree SameLetters Eq (keyword word) (keyword word) :=
  agree_of_lowerCase id fun text => by
    simp [keyword_apply, skipSeparators_lowerCase, afterWord_lowerCase, Function.comp_def]

theorem sign_agree {c : Char} (hc : c.isAlpha = false) :
    Scanner.Agree SameLetters Eq (sign c) (sign c) :=
  agree_of_lowerCase id fun text => by
    rw [sign_apply, sign_apply, skipSeparators_lowerCase]
    match skipSeparators text with
    | [] => rfl
    | d :: rest =>
      rw [lowerCase_cons]
      simp only [Text.toLower_eq_iff hc]
      by_cases hd : d = c <;> simp [hd]

theorem dieLetter_agree : Scanner.Agree SameLetters Eq dieLetter dieLetter :=
  agree_of_lowerCase id fun text => by
    rw [dieLetter_apply, dieLetter_apply, skipSeparators_lowerCase]
    match skipSeparators text with
    | [] => rfl
    | d :: rest =>
      rw [lowerCase_cons]
      simp only [Char.toLower_toLower_eq_toLower]
      by_cases hd : d.toLower = 'd' <;> simp [hd]

theorem integer_agree : Scanner.Agree SameLetters Eq integer integer :=
  agree_of_lowerCase id fun text => by
    rw [integer_apply, integer_apply, skipSeparators_lowerCase, Text.takeWhile_isDigit_lowerCase,
      Text.dropWhile_lowerCase Text.isDigit_toLower]
    cases natural? ((skipSeparators text).takeWhile Char.isDigit) with
    | none => rfl
    | some value => simp [Function.comp_def]

theorem nameOfLength_agree (n : Nat) :
    Scanner.Agree SameLetters (fun a b => lowerName a = lowerName b) (nameOfLength n)
      (nameOfLength n) :=
  agree_of_lowerCase lowerName fun text => by
    show some (lowerName (String.ofList ((lowerCase text).take n)),
        lowerCase ((lowerCase text).drop n)) =
      some (lowerName (String.ofList (text.take n)), lowerCase (text.drop n))
    simp [lowerName, ← Text.lowerCase_take, ← Text.lowerCase_drop]

/-- Texts with the same letters are read in step. -/
theorem inStep_sameLetters (lexicon : Lexicon) :
    InStep SameLetters lowerName lexicon lexicon where
  nil text text' htext := by
    have hlength : text.length = text'.length := by
      simpa using congrArg List.length htext
    rw [← List.length_eq_zero_iff, hlength, List.length_eq_zero_iff]
  skip text text' htext := by
    rw [SameLetters, ← skipSeparators_lowerCase, htext, skipSeparators_lowerCase]
  keyword := keyword_agree
  sign _ := sign_agree
  dieLetter := dieLetter_agree
  integer := integer_agree
  name := nameOfLength_agree
  namedDice text text' htext := by
    rw [← longestName_lowerCase, htext, longestName_lowerCase]
  weapons text text' htext := by
    rw [← longestName_lowerCase, htext, longestName_lowerCase]
  spells text text' htext := by
    rw [← longestName_lowerCase, htext, longestName_lowerCase]

end Request

end SpokenDice
