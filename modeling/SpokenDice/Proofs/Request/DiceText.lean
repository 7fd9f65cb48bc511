import SpokenDice.Proofs.Request.Tokens

/-!
# Reading dice

The dice of a description are a number of dice of one kind and perhaps a bonus, such as `8d6 + 2`.
Where names begin with two letters, none of them gets in the way of such a text, and it is read as
what it says.

- `BonusDice.Writes`: the texts that write dice with a bonus.
- `chain_one` and `chain_two`, `value_number` and `value_dice`: what is read of its parts.
- `readDice_of_writes`: such a text is read as the dice that it writes.
-/

namespace SpokenDice

open Request (Numeral)

/-- Dice of one kind, and perhaps a bonus. -/
structure BonusDice where
  count : Int64
  sides : Int64
  bonus? : Option Int64

namespace BonusDice

/-- The text writes the dice: digits, a "d", digits, and for a bonus a plus sign and digits, with
spaces around the sign. -/
inductive Writes : BonusDice → List Char → Prop
  | plain {countDigits sidesDigits : List Char} {count sides : Int64}
      (hcount : Numeral countDigits count) (hsides : Numeral sidesDigits sides) :
      Writes ⟨count, sides, none⟩ (countDigits ++ 'd' :: sidesDigits)
  | bonus {countDigits sidesDigits bonusDigits : List Char} {count sides bonus : Int64}
      (hcount : Numeral countDigits count) (hsides : Numeral sidesDigits sides)
      (hbonus : Numeral bonusDigits bonus) (before after : Nat) :
      Writes ⟨count, sides, some bonus⟩ (countDigits ++ 'd' :: (sidesDigits ++
        (List.replicate before ' ' ++ '+' :: (List.replicate after ' ' ++ bonusDigits))))

/-- The expression of the dice, where numbers are such leaves. -/
def expr (leaf : Int64 → Expr) (dice : BonusDice) : Expr :=
  match dice.bonus? with
  | none => .roll (leaf dice.count) (leaf dice.sides)
  | some bonus => .binary .add (.roll (leaf dice.count) (leaf dice.sides)) (leaf bonus)

end BonusDice

namespace Request

/-! ## Combinators -/

namespace Parser

variable {α β : Type} {text rest : List Char} {terms terms' : Nat}

theorem ofScanner_some {s : Scanner α} {a : α} (h : s text = some (a, rest)) :
    ofScanner s text terms = .parsed a rest terms := by
  rw [ofScanner, h]

theorem ofScanner_none {s : Scanner α} (h : s text = none) :
    ofScanner s text terms = .unmatched terms := by
  rw [ofScanner, h]

theorem bind_parsed {p : Parser α} {next : α → Parser β} {a : α}
    (h : p text terms = .parsed a rest terms') :
    (p >>= next) text terms = next a rest terms' := by
  rw [bind_apply, h]

theorem bind_unmatched {p : Parser α} {next : α → Parser β}
    (h : p text terms = .unmatched terms') : (p >>= next) text terms = .unmatched terms' := by
  rw [bind_apply, h]

theorem orElse_parsed {p q : Parser α} {a : α} (h : p text terms = .parsed a rest terms') :
    (p <|> q) text terms = .parsed a rest terms' := by
  rw [orElse_apply, h]

theorem orElse_unmatched {p q : Parser α} (h : p text terms = .unmatched terms') :
    (p <|> q) text terms = q text terms' := by
  rw [orElse_apply, h]

theorem optional_parsed {p : Parser α} {a : α} (h : p text terms = .parsed a rest terms') :
    p.optional text terms = .parsed (some a) rest terms' :=
  orElse_parsed (bind_parsed h)

theorem optional_unmatched {p : Parser α} (h : p text terms = .unmatched terms') :
    p.optional text terms = .parsed none text terms' :=
  orElse_unmatched (bind_unmatched h)

theorem term_parsed (h : terms < maxTerms) : term text terms = .parsed () text (terms + 1) :=
  if_pos h

theorem repeatStep_none {step : α → Parser (Option α)} {a : α}
    (h : step a text terms = .parsed none rest terms') (bound : Nat) :
    repeatStep step bound a text terms = .parsed a rest terms' := by
  cases bound <;> exact bind_parsed h

theorem repeatStep_some {step : α → Parser (Option α)} {a b : α}
    (h : step a text terms = .parsed (some b) rest terms') (bound : Nat) :
    repeatStep step (bound + 1) a text terms = repeatStep step bound b rest terms' :=
  bind_parsed h

end Parser

open SpokenDice.Request.Parser

/-! ## Chains -/

section Chains

variable {operand : Parser Expr} {operator : Scanner BinaryOp} {text rest rest' rest'' : List Char}
variable {left right : Expr} {op : BinaryOp} {terms terms' terms'' : Nat}

theorem link_none (hoperator : operator text = none) :
    link operand operator left text terms = .parsed none text terms :=
  bind_parsed (optional_unmatched (ofScanner_none hoperator))

theorem link_some (hoperator : operator text = some (op, rest))
    (hright : operand rest terms = .parsed right rest' terms') :
    link operand operator left text terms =
      .parsed (some (.binary op left right)) rest' terms' := by
  rw [link, bind_parsed (optional_parsed (ofScanner_some hoperator))]
  exact bind_parsed hright

/-- An operand that no operator follows is the whole chain. -/
theorem chain_one (hleft : operand text terms = .parsed left rest terms')
    (hend : operator rest = none) :
    chain operand operator text terms = .parsed left rest terms' := by
  rw [chain, bind_parsed hleft]
  exact repeatStep_none (link_none hend) maxChain

theorem chain_two (hleft : operand text terms = .parsed left rest terms')
    (hoperator : operator rest = some (op, rest'))
    (hright : operand rest' terms' = .parsed right rest'' terms'') (hend : operator rest'' = none) :
    chain operand operator text terms = .parsed (.binary op left right) rest'' terms'' := by
  rw [chain, bind_parsed hleft, show maxChain = 2000 + 1 from rfl,
    repeatStep_some (link_some hoperator hright)]
  exact repeatStep_none (link_none hend) 2000

end Chains

/-! ## Values -/

section Values

variable {lexicon : Lexicon} {nested : Nested} {text rest rest' : List Char} {n m : Int64}
variable {terms : Nat}

theorem continuation_die {sides : Expr}
    (hdie : die lexicon nested text terms = .parsed sides rest terms) (hterms : terms < maxTerms)
    (value : Expr) : continuation lexicon nested value text terms =
      .parsed (some (.roll value sides)) rest (terms + 1) := by
  refine orElse_parsed ?_
  rw [bind_parsed hdie, bind_parsed (term_parsed hterms)]
  rfl

variable (hlexicon : lexicon.Worded)

include hlexicon

/-- Where no word stands and no parenthesis, only a number is left to be read. -/
theorem primary_apply (htext : Wordless text) (hparen : sign '(' text = none)
    (hrest : ∀ n rest, integer text = some (n, rest) → Wordless rest) :
    primary lexicon nested text terms = ofScanner number text terms := by
  have hsum : parenthesized nested text terms = .unmatched terms :=
    bind_unmatched (ofScanner_none hparen)
  have hgroup : damageGroup lexicon text = none :=
    Scanner.bind_none (damage_eq_none htext hlexicon hrest)
  rw [primary, orElse_unmatched hsum,
    orElse_unmatched (ofScanner_none (criticalHit_eq_none htext lexicon)),
    orElse_unmatched (ofScanner_none hgroup)]

theorem primary_number (hinteger : integer text = some (n, rest)) (hrest : Wordless rest) :
    primary lexicon nested text terms = .parsed (.integer n) rest terms := by
  have hparen : sign '(' text = none :=
    sign_eq_none (lacks_of_integer hinteger fun c hc => Text.isDigit_ne hc (by decide))
  have hnumber : number text = some (.integer n, rest) := Scanner.bind_some hinteger
  rw [primary_apply hlexicon (wordless_of_integer hinteger) hparen fun m rest' hm => ?_,
    ofScanner_some hnumber]
  obtain ⟨-, rfl⟩ := Prod.mk.inj (Option.some.inj (hinteger.symm.trans hm))
  exact hrest

theorem primary_unmatched (htext : Wordless text) (hdigit : Lacks Char.isDigit text)
    (hparen : Lacks (· == '(') text) : primary lexicon nested text terms = .unmatched terms := by
  have hinteger := integer_eq_none hdigit
  have hnumber : number text = none := Scanner.bind_none hinteger
  rw [primary_apply hlexicon htext (sign_eq_none hparen) fun m rest' hm => ?_,
    ofScanner_none hnumber]
  cases hinteger.symm.trans hm

theorem sides_number (hinteger : integer text = some (n, rest)) (hrest : Wordless rest) :
    sides lexicon nested text terms = .parsed (.integer n) rest terms := by
  have hname := namedDie_eq_none (wordless_of_integer hinteger) hlexicon
  rw [sides, orElse_unmatched (bind_unmatched (ofScanner_none hname))]
  exact orElse_parsed (primary_number hlexicon hinteger hrest)

/-- A "d" that begins no word asks for a side count. -/
theorem die_letter (hletter : skipSeparators text = 'd' :: rest) (htext : Wordless text) :
    die lexicon nested text terms = nested.sides rest terms := by
  have hname := namedDie_eq_none htext hlexicon
  have hprimary : primary lexicon nested text terms = .unmatched terms :=
    primary_unmatched hlexicon htext (lacks_of_skip hletter (by decide))
      (lacks_of_skip hletter (by decide))
  have hd : dieLetter text = some ((), rest) := Scanner.orElse_some (sign_eq_some hletter)
  rw [die, orElse_unmatched (ofScanner_none hname), orElse_unmatched (bind_unmatched hprimary),
    bind_parsed (ofScanner_some hd)]

theorem die_idle (hidle : Idle text) : die lexicon nested text terms = .unmatched terms := by
  have hname := namedDie_eq_none hidle.wordless hlexicon
  have hprimary : primary lexicon nested text terms = .unmatched terms :=
    primary_unmatched hlexicon hidle.wordless hidle.digit (hidle.sign (by decide))
  have hd : dieLetter text = none := by
    have hsmall : sign 'd' text = none := sign_eq_none (hidle.sign (by decide))
    have hbig : sign 'D' text = none := sign_eq_none (hidle.sign (by decide))
    rw [dieLetter, Scanner.orElse_none hsmall, hbig]
  rw [die, orElse_unmatched (ofScanner_none hname), orElse_unmatched (bind_unmatched hprimary),
    bind_unmatched (ofScanner_none hd)]

theorem head_number (hinteger : integer text = some (n, rest)) (hrest : Wordless rest) :
    head lexicon nested text terms = .parsed (.integer n) rest terms := by
  have hname := namedDie_eq_none (wordless_of_integer hinteger) hlexicon
  have hsided : (ofScanner sidedDie).optional rest terms = .parsed none rest terms :=
    optional_unmatched (ofScanner_none (sidedDie_eq_none hrest))
  rw [head, orElse_unmatched (bind_unmatched (ofScanner_none hname))]
  refine orElse_parsed ?_
  rw [bind_parsed (primary_number hlexicon hinteger hrest), bind_parsed hsided]
  rfl

theorem continuation_idle (hidle : Idle text) (value : Expr) :
    continuation lexicon nested value text terms = .parsed none text terms := by
  have hphrase := dicePhrase_eq_none hidle.wordless value
  rw [continuation, orElse_unmatched (bind_unmatched (die_idle hlexicon hidle))]
  split
  · exact optional_unmatched (ofScanner_none hphrase)
  · rfl

theorem value_number (hinteger : integer text = some (n, rest)) (hidle : Idle rest)
    (hterms : terms < maxTerms) :
    value lexicon nested text terms = .parsed (.integer n) rest (terms + 1) := by
  rw [value, bind_parsed (term_parsed hterms),
    bind_parsed (head_number hlexicon hinteger hidle.wordless)]
  exact repeatStep_none (continuation_idle hlexicon hidle _) maxChain

theorem value_dice {countDigits sidesDigits : List Char} {count sides : Int64}
    (hcount : Numeral countDigits count) (hsides : Numeral sidesDigits sides) (hidle : Idle rest)
    (hterms : terms + 1 < maxTerms) (levels : Nat) :
    value lexicon (nestedWithin lexicon (levels + 1)) (countDigits ++ 'd' :: (sidesDigits ++ rest))
      terms = .parsed (.roll (.integer count) (.integer sides)) rest (terms + 2) := by
  have hletter : skipSeparators ('d' :: (sidesDigits ++ rest)) = 'd' :: (sidesDigits ++ rest) :=
    skipSeparators_cons (by decide) _
  have hword : Wordless ('d' :: (sidesDigits ++ rest)) := by
    obtain ⟨c, tail, rfl, hc⟩ := hsides.exists_cons
    rw [Wordless, hletter]
    simp [Text.startsWord, Text.isAlpha_of_isDigit hc]
  have hnumber : integer (countDigits ++ 'd' :: (sidesDigits ++ rest)) = some (count, _) :=
    integer_eq_some hcount (by rintro c tail ⟨⟩; decide) (hcount.skip _)
  have hdie : die lexicon (nestedWithin lexicon (levels + 1)) ('d' :: (sidesDigits ++ rest))
      (terms + 1) = .parsed (.integer sides) rest (terms + 1) := by
    rw [die_letter hlexicon hletter hword]
    exact sides_number hlexicon (integer_eq_some hsides (fun c tail => hidle.head) (hsides.skip _))
      hidle.wordless
  rw [value, bind_parsed (term_parsed (Nat.lt_of_succ_lt hterms)),
    bind_parsed (head_number hlexicon hnumber hword), show maxChain = 2000 + 1 from rfl,
    repeatStep_some (continuation_die hdie hterms _)]
  exact repeatStep_none (continuation_idle hlexicon hidle _) 2000

/-! ## Texts of dice -/

omit hlexicon in
theorem productSign_eq_none (htext : Wordless text) (hstar : Lacks (· == '*') text) :
    productSign text = none := by
  have hkeyword := keyword_eq_none htext
  have hmultiplied := hkeyword "multiplied" (by decide)
  rw [productSign, Scanner.orElse_none (Scanner.bind_none (sign_eq_none hstar)),
    Scanner.orElse_none (Scanner.bind_none (hkeyword "times" (by decide))),
    Scanner.orElse_none (Scanner.bind_none hmultiplied), Scanner.bind_none hmultiplied]

theorem readingOf_of_writes {dice : BonusDice} (h : dice.Writes text) :
    ∃ terms, readingOf lexicon text = .parsed (dice.expr .integer) [] terms := by
  have hend : Idle [] := lacks_nil
  have hproduct : productSign [] = none := by decide
  have hsum : additiveSign [] = none := by decide
  have hterms : 1 < maxTerms := by decide
  show ∃ terms, sum lexicon (nestedWithin lexicon (99 + 1)) text 0 = _
  cases h with
  | plain hcount hsides =>
    have hdice := value_dice hlexicon hcount hsides hend hterms 99
    rw [List.append_nil] at hdice
    exact ⟨2, chain_one (chain_one hdice hproduct) hsum⟩
  | @bonus _ _ bonusDigits _ _ bonus hcount hsides hbonus before after =>
    generalize hrest : List.replicate after ' ' ++ bonusDigits = rest
    have hnumber : integer rest = some (bonus, []) := by
      refine integer_eq_some hbonus (fun c tail hc => by cases hc) ?_
      rw [← hrest, skipSeparators_spaces, ← hbonus.skip, List.append_nil]
    have hsign : skipSeparators (List.replicate before ' ' ++ '+' :: rest) = '+' :: rest := by
      rw [skipSeparators_spaces, skipSeparators_cons (by decide)]
    have hidle : Idle (List.replicate before ' ' ++ '+' :: rest) :=
      lacks_of_skip hsign (by decide)
    have hstar := productSign_eq_none hidle.wordless (lacks_of_skip hsign (by decide))
    have hplus : additiveSign (List.replicate before ' ' ++ '+' :: rest) = some (.add, rest) :=
      Scanner.orElse_some (Scanner.bind_some (sign_eq_some hsign))
    have hdice := value_dice hlexicon hcount hsides hidle hterms 99
    exact ⟨3, chain_two (chain_one hdice hstar) hplus
      (chain_one (value_number hlexicon hnumber hend (by decide)) hproduct) hsum⟩

end Values

/-- Where names begin with two letters, a text that writes dice is read as these dice. -/
theorem readDice_of_writes {lexicon : Lexicon} (hlexicon : lexicon.Worded) {dice : BonusDice}
    {text : List Char} (h : dice.Writes text) :
    readDice lexicon (String.ofList text) = .ok (dice.expr .integer) := by
  obtain ⟨terms, hreading⟩ := readingOf_of_writes hlexicon h
  rw [readDice, readOr, String.toList_ofList, hreading]
  rfl

end Request

end SpokenDice
