import SpokenDice.Proofs.Request.Numbers
import SpokenDice.Proofs.Request.Printed
import SpokenDice.Proofs.Ruleset.DicePattern

/-!
# Reading the dice of a description

The dice that are found in a description are read as dice of these numbers, but digits of other
scripts than ASCII and numbers of more than 64 bits are not read, and then the dice are not
understood. Names that begin with two letters do not get in the way.

- `DiceDigits.Writes`: the texts that are found, with the digits of their numbers.
- `integer_of_not_readable`: of digits that are not readable no number is read, or it ends before
  one of them.
- `Astray`: a reading that fails, or that ends where text is left that goes on with nothing.
- `readDice_of_findDice?`: what is read of the dice that are found.
-/

namespace SpokenDice

/-! ## Decimal digits -/

namespace Text

/-- The digits of other scripts stand above ASCII, and none of them is a blank. -/
theorem lt_and_isBlank_of_mem_ranges {c : Char} (h : decimalDigitRanges.contains c = true) :
    128 ≤ c.toNat ∧ isBlank c = false := by
  have habove : ∀ r ∈ decimalDigitRanges, 128 ≤ r.1 := by decide +kernel
  obtain ⟨r, hr, hfrom, -⟩ := CodeRanges.contains_iff.mp h
  exact ⟨(habove r hr).trans hfrom, CodeRanges.contains_eq_false_of_apart (by decide +kernel) h⟩

theorem isAlpha_of_isDecimalDigit {c : Char} (h : isDecimalDigit c = true) :
    c.isAlpha = false := by
  rcases Bool.or_eq_true_iff.mp h with hdigit | hcontains
  · exact isAlpha_of_isDigit hdigit
  · have habove := (lt_and_isBlank_of_mem_ranges hcontains).1
    simp only [Char.isAlpha, Char.isUpper, Char.isLower, ← Bool.not_eq_true, Bool.or_eq_true,
      Bool.and_eq_true, decide_eq_true_eq, UInt32.le_iff_toNat_le, ge_iff_le]
    show ¬ ((65 ≤ c.toNat ∧ c.toNat ≤ 90) ∨ (97 ≤ c.toNat ∧ c.toNat ≤ 122))
    omega

theorem isDecimalDigit_ne {c d : Char} (h : isDecimalDigit c = true)
    (hd : isDecimalDigit d = false) : (c == d) = false := by
  refine beq_eq_false_iff_ne.mpr ?_
  rintro rfl
  cases h.symm.trans hd

end Text

open Text (isDecimalDigit)

theorem Request.isSeparator_of_isDecimalDigit {c : Char} (h : isDecimalDigit c = true) :
    isSeparator c = false := by
  rcases Bool.or_eq_true_iff.mp h with hdigit | hcontains
  · exact isSeparator_of_isDigit hdigit
  · rw [isSeparator, (Text.lt_and_isBlank_of_mem_ranges hcontains).2,
      Text.isDecimalDigit_ne h (by decide), Bool.or_self]

/-- Decimal digits, at least one. -/
def IsDigits (digits : List Char) : Prop :=
  digits ≠ [] ∧ ∀ c ∈ digits, isDecimalDigit c = true

/-- The digits are those of ASCII, and their number has 64 bits. -/
def Readable (digits : List Char) : Prop :=
  digits.all Char.isDigit = true ∧ Nat.ofDigitChars 10 digits 0 ≤ 9223372036854775807

instance (digits : List Char) : Decidable (Readable digits) :=
  inferInstanceAs (Decidable (_ ∧ _))

/-- The number that digits write. -/
def numberOf (digits : List Char) : Int64 :=
  saturate (Nat.ofDigitChars 10 digits 0)

/-- The digits of dice in a text. -/
structure DiceDigits where
  count : List Char
  sides : List Char
  bonus? : Option (List Char)

namespace DiceDigits

/-- The digits of each of the numbers. -/
def numbers (dice : DiceDigits) : List (List Char) :=
  dice.count :: dice.sides :: dice.bonus?.toList

/-- The numbers that the digits write. -/
def values (dice : DiceDigits) : BonusDice :=
  ⟨numberOf dice.count, numberOf dice.sides, dice.bonus?.map numberOf⟩

/-- The text writes dice with these digits: those of the count, a "d", those of the side count, and
for a bonus a plus sign and its digits, with spaces around the sign. -/
inductive Writes : DiceDigits → List Char → Prop
  | plain {count sides : List Char} (hcount : IsDigits count) (hsides : IsDigits sides) :
      Writes ⟨count, sides, none⟩ (count ++ 'd' :: sides)
  | bonus {count sides bonus : List Char} (hcount : IsDigits count) (hsides : IsDigits sides)
      (hbonus : IsDigits bonus) (before after : Nat) :
      Writes ⟨count, sides, some bonus⟩ (count ++ 'd' :: (sides ++
        (List.replicate before ' ' ++ '+' :: (List.replicate after ' ' ++ bonus))))

end DiceDigits

/-! ## What is found -/

theorem isDigits_takeWhile {text : List Char} (h : text.takeWhile isDecimalDigit ≠ []) :
    IsDigits (text.takeWhile isDecimalDigit) :=
  ⟨h, fun _ hc => List.mem_takeWhile_imp hc⟩

theorem takeWhile_isSpace (text : List Char) :
    text.takeWhile isSpace = List.replicate (text.takeWhile isSpace).length ' ' :=
  List.eq_replicate_of_mem fun c hc => by
    have hspace : isSpace c = true := List.mem_takeWhile_imp hc
    exact beq_iff_eq.mp hspace

theorem exists_writes_of_diceAt? {text found : List Char} (h : diceAt? text = some found) :
    ∃ dice : DiceDigits, dice.Writes found := by
  unfold diceAt? at h
  split at h
  · rename_i rest hletter
    dsimp only at h
    split at h
    · cases h
    · rename_i hpresent
      obtain ⟨hcount, hsides⟩ := not_or.mp hpresent
      obtain rfl := Option.some.inj h
      have hplain := DiceDigits.Writes.plain (isDigits_takeWhile hcount) (isDigits_takeWhile hsides)
      unfold bonusAt
      split
      · rename_i last hplus
        dsimp only
        split
        · exact ⟨_, by rwa [List.append_nil]⟩
        · rename_i hbonus
          have hwrites := DiceDigits.Writes.bonus (isDigits_takeWhile hcount)
            (isDigits_takeWhile hsides) (isDigits_takeWhile hbonus)
          rw [takeWhile_isSpace, takeWhile_isSpace last]
          simp only [List.append_assoc, List.cons_append]
          exact ⟨_, hwrites _ _⟩
      · exact ⟨_, by rwa [List.append_nil]⟩
  · cases h

theorem exists_writes_of_findDice? {text found : List Char} (h : findDice? text = some found) :
    ∃ dice : DiceDigits, dice.Writes found := by
  induction text with
  | nil => cases h
  | cons c text ih =>
    rw [findDice?] at h
    split at h
    · rename_i dice hdice
      exact exists_writes_of_diceAt? (hdice.trans h)
    · exact ih h

namespace Request

/-! ## Digits that are no number -/

/-- A digit of another script than ASCII stands at the head of the text. -/
def Stray (text : List Char) : Prop :=
  ∃ c rest, text = c :: rest ∧ isDecimalDigit c = true ∧ c.isDigit = false

/-- Something is left of the text, and it goes on neither with a product nor with a sum. -/
def Stuck (text : List Char) : Prop :=
  skipSeparators text ≠ [] ∧ productSign text = none ∧ additiveSign text = none

theorem lacks_of_isDecimalDigit {c : Char} (h : isDecimalDigit c = true) (rest : List Char)
    {p : Char → Bool} (hp : p c = false) : Lacks p (c :: rest) :=
  lacks_of_skip (skipSeparators_cons (isSeparator_of_isDecimalDigit h) rest) hp

theorem stuck_of_lacks {text : List Char} (htext : skipSeparators text ≠ [])
    (hword : Wordless text) (hsign : ∀ c ∈ ['*', '+', '-'], Lacks (· == c) text) : Stuck text :=
  ⟨htext, productSign_eq_none hword (hsign '*' (by decide)),
    additiveSign_eq_none hword (hsign '+' (by decide)) (hsign '-' (by decide))⟩

namespace Stray

variable {text : List Char} (h : Stray text)

include h

theorem idle : Idle text := by
  obtain ⟨c, rest, rfl, hdecimal, hdigit⟩ := h
  refine lacks_of_isDecimalDigit hdecimal rest ?_
  rw [Char.isAlphanum, Text.isAlpha_of_isDecimalDigit hdecimal, hdigit,
    Text.isDecimalDigit_ne hdecimal (by decide)]
  rfl

theorem stuck : Stuck text := by
  have hword := h.idle.wordless
  obtain ⟨c, rest, rfl, hdecimal, -⟩ := h
  refine stuck_of_lacks ?_ hword fun sign hsign => ?_
  · rw [skipSeparators_cons (isSeparator_of_isDecimalDigit hdecimal)]
    exact List.cons_ne_nil c rest
  · refine lacks_of_isDecimalDigit hdecimal rest (Text.isDecimalDigit_ne hdecimal ?_)
    simp only [List.mem_cons, List.not_mem_nil, or_false] at hsign
    rcases hsign with rfl | rfl | rfl <;> decide

end Stray

theorem readable_of_numeral {digits : List Char} {n : Int64} (h : Numeral digits n) :
    Readable digits := by
  have hdigits := h.isDigit
  obtain ⟨value, hvalue, hn⟩ := h
  rw [natural?, if_pos ⟨hdigits.1, List.all_eq_true.mpr hdigits.2⟩] at hvalue
  obtain rfl := Option.some.inj hvalue
  have hrange := (inRange_toInt n).2
  rw [int64?_eq_some_iff.mp hn] at hrange
  exact ⟨List.all_eq_true.mpr hdigits.2, Int.ofNat_le.mp hrange⟩

theorem numeral_of_readable {digits : List Char} (hdigits : IsDigits digits)
    (h : Readable digits) : Numeral digits (numberOf digits) := by
  refine ⟨Nat.ofDigitChars 10 digits 0, if_pos ⟨hdigits.1, h.1⟩, ?_⟩
  have hvalue := h.2
  show int64? (Nat.ofDigitChars 10 digits 0 : Int) = _
  exact if_pos ⟨by omega, by omega⟩

theorem skipSeparators_digits {digits : List Char} (hdigits : IsDigits digits)
    (rest : List Char) : skipSeparators (digits ++ rest) = digits ++ rest := by
  obtain ⟨c, tail, rfl⟩ := List.exists_cons_of_ne_nil hdigits.1
  exact skipSeparators_cons
    (isSeparator_of_isDecimalDigit (hdigits.2 c (List.mem_cons_self ..))) _

section Digits

variable {text digits rest : List Char} (hdigits : IsDigits digits)
variable (htext : skipSeparators text = digits ++ rest)

include hdigits htext

theorem lacks_digits {p : Char → Bool} (hp : ∀ c, isDecimalDigit c = true → p c = false) :
    Lacks p text := by
  obtain ⟨c, tail, rfl⟩ := List.exists_cons_of_ne_nil hdigits.1
  exact lacks_of_skip htext (hp c (hdigits.2 c (List.mem_cons_self ..)))

theorem wordless_digits : Wordless text :=
  Lacks.wordless (lacks_digits hdigits htext fun _ => Text.isAlpha_of_isDecimalDigit)

theorem sign_digits {c : Char} (hc : isDecimalDigit c = false) : sign c text = none :=
  sign_eq_none (lacks_digits hdigits htext fun _ h => Text.isDecimalDigit_ne h hc)

theorem dieLetter_digits : dieLetter text = none := by
  rw [dieLetter, Scanner.orElse_none (sign_digits hdigits htext (by decide)),
    sign_digits hdigits htext (by decide)]

/-- Where digits are not readable, no number is read, or it ends before one of them. -/
theorem integer_of_not_readable (h : ¬ Readable digits)
    (hrest : ∀ c tail, rest = c :: tail → c.isDigit = false) :
    integer text = none ∨ ∃ n left, integer text = some (n, left) ∧ Stray left := by
  cases hread : integer text with
  | none => exact .inl rfl
  | some read =>
    obtain ⟨n, left⟩ := read
    obtain ⟨numeral, hnumeral, hskip, hleft⟩ := exists_numeral_of_integer hread
    refine .inr ⟨n, left, rfl, ?_⟩
    rcases List.append_eq_append_iff.mp (htext.symm.trans hskip) with
      ⟨more, rfl, hmore⟩ | ⟨more, rfl, rfl⟩
    · cases more with
      | nil => exact absurd (readable_of_numeral (List.append_nil digits ▸ hnumeral)) h
      | cons c tail =>
        have hc := hnumeral.isDigit.2 c (List.mem_append_right _ (List.mem_cons_self ..))
        cases (hrest c _ hmore).symm.trans hc
    · cases more with
      | nil => exact absurd (readable_of_numeral ((List.append_nil numeral).symm ▸ hnumeral)) h
      | cons c tail =>
        have hc := hdigits.2 c (List.mem_append_right _ (List.mem_cons_self ..))
        exact ⟨c, tail ++ rest, rfl, hc, hleft c _ rfl⟩

variable {lexicon : Lexicon} {nested : Nested} {terms : Nat} (hlexicon : lexicon.Worded)

include hlexicon

theorem primary_digits (hinteger : integer text = none) :
    primary lexicon nested text terms = .unmatched terms := by
  have hnumber : number text = none := Scanner.bind_none hinteger
  rw [primary_apply hlexicon (wordless_digits hdigits htext)
    (sign_digits hdigits htext (by decide)) (fun n rest hread => ?_), Parser.ofScanner_none hnumber]
  cases hinteger.symm.trans hread

theorem sides_digits (hinteger : integer text = none) :
    sides lexicon nested text terms = .unmatched terms := by
  have hname := namedDie_eq_none (wordless_digits hdigits htext) hlexicon
  rw [sides, Parser.orElse_unmatched (Parser.bind_unmatched (Parser.ofScanner_none hname)),
    Parser.orElse_unmatched (primary_digits hdigits htext hlexicon hinteger),
    Parser.bind_unmatched (Parser.ofScanner_none (dieLetter_digits hdigits htext))]

theorem head_digits (hinteger : integer text = none) :
    head lexicon nested text terms = .unmatched terms := by
  have hname := namedDie_eq_none (wordless_digits hdigits htext) hlexicon
  rw [head, Parser.orElse_unmatched (Parser.bind_unmatched (Parser.ofScanner_none hname)),
    Parser.orElse_unmatched
      (Parser.bind_unmatched (primary_digits hdigits htext hlexicon hinteger)),
    Parser.bind_unmatched (Parser.ofScanner_none (dieLetter_digits hdigits htext))]

end Digits

/-! ## Readings that go astray -/

/-- The reading fails, or it ends where text is left that goes on with nothing. -/
inductive Astray : Reading Expr → Prop
  | unmatched (terms : Nat) : Astray (.unmatched terms)
  | parsed {rest : List Char} (e : Expr) (terms : Nat) (hrest : Stuck rest) :
      Astray (.parsed e rest terms)

section Chains

variable {operand : Parser Expr} {operator : Scanner BinaryOp} {text : List Char} {terms : Nat}
variable (hend : ∀ rest, Stuck rest → operator rest = none)

include hend

theorem chain_astray (h : Astray (operand text terms)) :
    Astray (chain operand operator text terms) := by
  generalize hreading : operand text terms = reading at h
  cases h with
  | unmatched terms' =>
    rw [chain, Parser.bind_unmatched hreading]
    exact .unmatched terms'
  | parsed e terms' hrest =>
    rw [chain_one hreading (hend _ hrest)]
    exact .parsed e terms' hrest

theorem chain_two_astray {rest rest' : List Char} {left : Expr} {op : BinaryOp} {terms' : Nat}
    (hleft : operand text terms = .parsed left rest terms')
    (hoperator : operator rest = some (op, rest')) (h : Astray (operand rest' terms')) :
    Astray (chain operand operator text terms) := by
  generalize hreading : operand rest' terms' = reading at h
  cases h with
  | unmatched terms'' =>
    have hlink : link operand operator left rest terms' = .unmatched terms'' := by
      rw [link, Parser.bind_parsed (Parser.optional_parsed (Parser.ofScanner_some hoperator))]
      exact Parser.bind_unmatched hreading
    rw [chain, Parser.bind_parsed hleft, show maxChain = 2000 + 1 from rfl, Parser.repeatStep,
      Parser.bind_unmatched hlink]
    exact .unmatched terms''
  | parsed e terms'' hrest =>
    rw [chain_two hleft hoperator hreading (hend _ hrest)]
    exact .parsed _ terms'' hrest

end Chains

theorem readDice_of_astray {lexicon : Lexicon} {text : List Char}
    (h : Astray (readingOf lexicon text)) :
    readDice lexicon (String.ofList text) = .error (.diceNotUnderstood (String.ofList text)) := by
  rw [readDice, readOr, String.toList_ofList]
  generalize readingOf lexicon text = reading at h
  cases h with
  | unmatched => rfl
  | parsed e terms hrest => exact if_neg hrest.1

section Values

variable {lexicon : Lexicon} {nested : Nested} {text rest : List Char} {terms : Nat}

theorem product_astray (h : Astray (value lexicon nested text terms)) :
    Astray (product lexicon nested text terms) :=
  chain_astray (fun _ hrest => hrest.2.1) h

theorem sum_astray (h : Astray (value lexicon nested text terms)) :
    Astray (sum lexicon nested text terms) :=
  chain_astray (fun _ hrest => hrest.2.2) (product_astray h)

variable (hlexicon : lexicon.Worded)

include hlexicon

/-- A value does not begin with digits that are not readable. -/
theorem value_digits_astray {digits : List Char} (hdigits : IsDigits digits)
    (hnot : ¬ Readable digits) (htext : skipSeparators text = digits ++ rest)
    (hrest : ∀ c tail, rest = c :: tail → c.isDigit = false) (hterms : terms < maxTerms) :
    Astray (value lexicon nested text terms) := by
  rcases integer_of_not_readable hdigits htext hnot hrest with hnone | ⟨n, left, hsome, hleft⟩
  · rw [value, Parser.bind_parsed (Parser.term_parsed hterms),
      Parser.bind_unmatched (head_digits hdigits htext hlexicon hnone)]
    exact .unmatched (terms + 1)
  · rw [value_number hlexicon hsome hleft.idle hterms]
    exact .parsed _ _ hleft.stuck

/-- The "d" after a count does not go on with digits that are not readable. -/
theorem value_sides_astray {countDigits digits : List Char} {count : Int64}
    (hcount : Numeral countDigits count) (hdigits : IsDigits digits) (hnot : ¬ Readable digits)
    (hrest : ∀ c tail, rest = c :: tail → c.isDigit = false) (hterms : terms + 1 < maxTerms)
    (levels : Nat) :
    Astray (value lexicon (nestedWithin lexicon (levels + 1))
      (countDigits ++ 'd' :: (digits ++ rest)) terms) := by
  have htext := skipSeparators_digits hdigits rest
  have hletter : skipSeparators ('d' :: (digits ++ rest)) = 'd' :: (digits ++ rest) :=
    skipSeparators_cons (by decide) _
  have hword : Wordless ('d' :: (digits ++ rest)) := by
    obtain ⟨c, tail, rfl⟩ := List.exists_cons_of_ne_nil hdigits.1
    rw [Wordless, hletter]
    simp [Text.startsWord, Text.isAlpha_of_isDecimalDigit (hdigits.2 c (List.mem_cons_self ..))]
  have hnumber : integer (countDigits ++ 'd' :: (digits ++ rest)) = some (count, _) :=
    integer_eq_some hcount (by rintro c tail ⟨⟩; decide) (hcount.skip _)
  have hdie : die lexicon (nestedWithin lexicon (levels + 1)) ('d' :: (digits ++ rest))
      (terms + 1) = sides lexicon (nestedWithin lexicon levels) (digits ++ rest) (terms + 1) :=
    die_letter hlexicon hletter hword
  rw [value, Parser.bind_parsed (Parser.term_parsed (Nat.lt_of_succ_lt hterms)),
    Parser.bind_parsed (head_number hlexicon hnumber hword)]
  rcases integer_of_not_readable hdigits htext hnot hrest with hnone | ⟨n, left, hsome, hleft⟩
  · rw [sides_digits hdigits htext hlexicon hnone] at hdie
    have hstep : continuation lexicon (nestedWithin lexicon (levels + 1)) (.integer count)
        ('d' :: (digits ++ rest)) (terms + 1) =
          .parsed none ('d' :: (digits ++ rest)) (terms + 1) :=
      Parser.orElse_unmatched (Parser.bind_unmatched hdie)
    rw [Parser.repeatStep_none hstep]
    refine .parsed _ _ (stuck_of_lacks (hletter ▸ List.cons_ne_nil _ _) hword fun c hc => ?_)
    refine lacks_of_skip hletter ?_
    simp only [List.mem_cons, List.not_mem_nil, or_false] at hc
    rcases hc with rfl | rfl | rfl <;> decide
  · rw [sides_number hlexicon hsome hleft.idle.wordless] at hdie
    rw [show maxChain = 2000 + 1 from rfl,
      Parser.repeatStep_some (continuation_die hdie hterms _),
      Parser.repeatStep_none (continuation_idle hlexicon hleft.idle _)]
    exact .parsed _ _ hleft.stuck

theorem sum_dice_astray {count sides : List Char} (hcount : IsDigits count)
    (hsides : IsDigits sides) (hnot : ¬ (Readable count ∧ Readable sides))
    (hrest : ∀ c tail, rest = c :: tail → c.isDigit = false) :
    Astray (sum lexicon (nestedWithin lexicon (99 + 1)) (count ++ 'd' :: (sides ++ rest)) 0) := by
  refine sum_astray ?_
  by_cases hreadable : Readable count
  · exact value_sides_astray hlexicon (numeral_of_readable hcount hreadable) hsides
      (fun h => hnot ⟨hreadable, h⟩) hrest (by decide) 99
  · exact value_digits_astray hlexicon hcount hreadable (skipSeparators_digits hcount _)
      (by rintro c tail ⟨⟩; decide) (by decide)

/-- Dice of which some number is not readable are not read to their end. -/
theorem readingOf_astray {dice : DiceDigits} (h : dice.Writes text)
    (hnot : ¬ ∀ digits ∈ dice.numbers, Readable digits) : Astray (readingOf lexicon text) := by
  show Astray (sum lexicon (nestedWithin lexicon (99 + 1)) text 0)
  cases h with
  | @plain count sides hcount hsides =>
    have hboth : ¬ (Readable count ∧ Readable sides) := by
      simpa [DiceDigits.numbers] using hnot
    have hend : ∀ (c : Char) tail, [] = c :: tail → c.isDigit = false := by rintro c tail ⟨⟩
    have hastray := sum_dice_astray hlexicon hcount hsides hboth hend
    rwa [List.append_nil] at hastray
  | @bonus count sides bonus hcount hsides hbonus before after =>
    generalize hafter : List.replicate after ' ' ++ bonus = rest
    have hsign : skipSeparators (List.replicate before ' ' ++ '+' :: rest) = '+' :: rest := by
      rw [skipSeparators_spaces, skipSeparators_cons (by decide)]
    have hidle : Idle (List.replicate before ' ' ++ '+' :: rest) :=
      lacks_of_skip hsign (by decide)
    by_cases hboth : Readable count ∧ Readable sides
    · have hplus : additiveSign (List.replicate before ' ' ++ '+' :: rest) = some (.add, rest) :=
        Scanner.orElse_some (Scanner.bind_some (sign_eq_some hsign))
      have hstar := productSign_eq_none hidle.wordless (lacks_of_skip hsign (by decide))
      have hdice := value_dice hlexicon (numeral_of_readable hcount hboth.1)
        (numeral_of_readable hsides hboth.2) hidle (by decide : 0 + 1 < maxTerms) 99
      have hskip : skipSeparators rest = bonus ++ [] := by
        rw [← hafter, skipSeparators_spaces, ← skipSeparators_digits hbonus, List.append_nil]
      refine chain_two_astray (fun _ hrest => hrest.2.2) (chain_one hdice hstar) hplus
        (product_astray (value_digits_astray hlexicon hbonus ?_ hskip ?_ (by decide)))
      · intro hreadable
        simp [DiceDigits.numbers, hboth, hreadable] at hnot
      · rintro c tail ⟨⟩
    · exact sum_dice_astray hlexicon hcount hsides hboth fun _ _ => hidle.head

end Values

theorem writes_values {dice : DiceDigits} {text : List Char} (h : dice.Writes text)
    (hreadable : ∀ digits ∈ dice.numbers, Readable digits) : dice.values.Writes text := by
  cases h with
  | plain hcount hsides =>
    simp only [DiceDigits.numbers, Option.toList, List.forall_mem_cons] at hreadable
    exact .plain (numeral_of_readable hcount hreadable.1)
      (numeral_of_readable hsides hreadable.2.1)
  | bonus hcount hsides hbonus before after =>
    simp only [DiceDigits.numbers, Option.toList, List.forall_mem_cons] at hreadable
    exact .bonus (numeral_of_readable hcount hreadable.1)
      (numeral_of_readable hsides hreadable.2.1) (numeral_of_readable hbonus hreadable.2.2.1)
      before after

/-- The dice that are found in a text are the first match of their pattern, which takes as much as
it can. They are dice of some digits, with a bonus or without. If all of these are digits of ASCII
and no number has more than 64 bits, they are read as dice of these numbers, and otherwise they are
not understood, where names begin with two letters. -/
theorem readDice_of_findDice? {rules : Ruleset} (hrules : rules.Worded) {text found : List Char}
    (h : findDice? text = some found) :
    Pattern.dice.find? text = some found ∧ (∃ dice : DiceDigits, dice.Writes found) ∧
      ∀ dice : DiceDigits, dice.Writes found →
        ((∀ digits ∈ dice.numbers, Readable digits) →
          readDice (.ofRuleset rules) (String.ofList found) = .ok (dice.values.expr .integer)) ∧
        ((¬ ∀ digits ∈ dice.numbers, Readable digits) →
          readDice (.ofRuleset rules) (String.ofList found) =
            .error (.diceNotUnderstood (String.ofList found))) := by
  have hlexicon := Lexicon.worded_ofRuleset hrules
  refine ⟨(Pattern.find?_dice text).trans h, exists_writes_of_findDice? h,
    fun dice hwrites => ⟨fun hreadable => ?_, fun hnot => ?_⟩⟩
  · exact readDice_of_writes hlexicon (writes_values hwrites hreadable)
  · exact readDice_of_astray (readingOf_astray hlexicon hwrites hnot)

/-- A bonus is a part of the dice up to its last digit. Dice of another script are found and are
not understood. -/
theorem readDice_of_findDice?_descriptions :
    (findDice? "It deals 8d6 + 2 and 3d4 damage.".toList = some "8d6 + 2".toList ∧
      readDice (.ofRuleset .standard) "8d6 + 2" =
        .ok (.binary .add (.roll (.integer 8) (.integer 6)) (.integer 2))) ∧
    (findDice? "It deals 8d\u0666 damage.".toList = some "8d\u0666".toList ∧
      readDice (.ofRuleset .standard) "8d\u0666" = .error (.diceNotUnderstood "8d\u0666")) := by
  have hrules : Ruleset.standard.Worded := by
    show ∀ name ∈ _, _ = true
    decide +kernel
  have hdigits : ∀ c : Char, isDecimalDigit c = true → IsDigits [c] := fun c hc =>
    ⟨List.cons_ne_nil c [], fun d hd => List.mem_singleton.mp hd ▸ hc⟩
  constructor
  · have hfound : findDice? "It deals 8d6 + 2 and 3d4 damage.".toList =
        some "8d6 + 2".toList := by decide +kernel
    refine ⟨hfound, ((readDice_of_findDice? hrules hfound).2.2 ⟨['8'], ['6'], some ['2']⟩ ?_).1 ?_⟩
    · exact .bonus (hdigits '8' (by decide)) (hdigits '6' (by decide)) (hdigits '2' (by decide)) 1 1
    · decide +kernel
  · have hfound : findDice? "It deals 8d\u0666 damage.".toList = some "8d\u0666".toList := by
      decide +kernel
    refine ⟨hfound, ((readDice_of_findDice? hrules hfound).2.2 ⟨['8'], ['\u0666'], none⟩ ?_).2 ?_⟩
    · exact .plain (hdigits '8' (by decide)) (hdigits '\u0666' (by decide))
    · decide +kernel

end Request

end SpokenDice
