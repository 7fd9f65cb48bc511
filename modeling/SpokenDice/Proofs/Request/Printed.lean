import SpokenDice.Proofs.Expr.Brackets
import SpokenDice.Proofs.Request.DiceText
import SpokenDice.Ruleset.Standard

/-!
# Reading the text of an expression

The text of an expression of numbers, arithmetic and dice is read back as that expression, with a
group for every pair of parentheses, unless it is too large for a request. Where names begin with
two letters, no name gets in the way.

- `Reading.IsWithin`: a reading is another one within limits, and gives up beyond.
- `ReadsBack`: what is read of the text of a tree, for each phrase of the grammar.
- `read_text`: the text of an expression is read back, and when it is too large.
-/

namespace SpokenDice.Request

open SpokenDice.Expr (Plain)

variable {α β : Type}

/-! ## Readings within limits -/

/-- The reading is the other one if the limits are kept, and the request is too large if not. -/
def Reading.IsWithin (reading : Reading α) (limits : Prop) (other : Reading α) : Prop :=
  (limits → reading = other) ∧ (¬ limits → reading = .tooLarge)

namespace Reading.IsWithin

open SpokenDice.Request.Parser

variable {A B C : Prop} {text rest : List Char} {terms terms' : Nat} {a : α}

theorem of_eq {reading other : Reading α} (hA : A) (h : reading = other) :
    reading.IsWithin A other :=
  ⟨fun _ => h, fun hnot => absurd hA hnot⟩

theorem of_not {reading other : Reading α} (hA : ¬ A) (h : reading = .tooLarge) :
    reading.IsWithin A other :=
  ⟨fun hyes => absurd hyes hA, fun _ => h⟩

/-- The limits of one part after the other. -/
theorem bind {p : Parser α} {next : α → Parser β} {other : Reading β}
    (hp : (p text terms).IsWithin A (.parsed a rest terms'))
    (hnext : A → (next a rest terms').IsWithin B other) (hC : C ↔ A ∧ B) :
    ((p >>= next) text terms).IsWithin C other := by
  constructor
  · intro h
    obtain ⟨hA, hB⟩ := hC.mp h
    rw [bind_parsed (hp.1 hA), (hnext hA).1 hB]
  · intro h
    by_cases hA : A
    · rw [bind_parsed (hp.1 hA), (hnext hA).2 fun hB => h (hC.mpr ⟨hA, hB⟩)]
    · rw [bind_apply, hp.2 hA]

/-- A part that keeps the limits, and another that has none. -/
theorem bind_eq {p : Parser α} {next : α → Parser β} {other : Reading β}
    (hp : (p text terms).IsWithin A (.parsed a rest terms'))
    (hnext : A → next a rest terms' = other) : ((p >>= next) text terms).IsWithin A other :=
  hp.bind (fun hA => .of_eq trivial (hnext hA)) (iff_of_eq (and_true A).symm)

theorem orElse {p q : Parser α} (hp : (p text terms).IsWithin A (.parsed a rest terms')) :
    ((p <|> q) text terms).IsWithin A (.parsed a rest terms') :=
  ⟨fun hA => orElse_parsed (hp.1 hA), fun hA => by rw [orElse_apply, hp.2 hA]⟩

theorem trans {reading other last : Reading α} (h : reading.IsWithin A other)
    (hother : A → other.IsWithin B last) (hC : C ↔ A ∧ B) : reading.IsWithin C last := by
  constructor
  · intro hc
    obtain ⟨hA, hB⟩ := hC.mp hc
    rw [h.1 hA, (hother hA).1 hB]
  · intro hc
    by_cases hA : A
    · rw [h.1 hA, (hother hA).2 fun hB => hc (hC.mpr ⟨hA, hB⟩)]
    · exact h.2 hA

/-- What is left to do and has no limits. -/
theorem trans_eq {reading other last : Reading α} (h : reading.IsWithin A other)
    (hother : A → other = last) : reading.IsWithin A last :=
  h.trans (fun hA => .of_eq trivial (hother hA)) (iff_of_eq (and_true A).symm)

end Reading.IsWithin

section Steps

open SpokenDice.Request.Parser

variable {A : Prop} {text rest : List Char} {terms terms' : Nat}

theorem term_within : (term text terms).IsWithin (terms < maxTerms) (.parsed () text (terms + 1)) :=
  ⟨fun h => if_pos h, fun h => if_neg h⟩

theorem repeatStep_within {step : α → Parser (Option α)} {a b : α}
    (h : (step a text terms).IsWithin A (.parsed (some b) rest terms')) (bound : Nat) :
    (repeatStep step (bound + 1) a text terms).IsWithin A (repeatStep step bound b rest terms') :=
  h.bind_eq fun _ => rfl

theorem link_within {operand : Parser Expr} {operator : Scanner BinaryOp} {op : BinaryOp}
    {rest' : List Char} {right : Expr} (hoperator : operator text = some (op, rest))
    (hright : (operand rest terms).IsWithin A (.parsed right rest' terms')) (left : Expr) :
    (link operand operator left text terms).IsWithin A
      (.parsed (some (.binary op left right)) rest' terms') := by
  rw [link, bind_parsed (optional_parsed (ofScanner_some hoperator))]
  exact hright.bind_eq fun _ => rfl

end Steps

/-! ## The text of a tree -/

/-- The tree is not nested too deeply and not too long, when `levels` levels may be entered and
`terms` terms were met, that at its head included. -/
def Fits (levels terms : Nat) (e : Expr) : Prop :=
  e.nesting ≤ levels ∧ terms + e.steps ≤ maxTerms

/-- No word and no digit stands at the head of the text. -/
def Detached (rest : List Char) : Prop :=
  Wordless rest ∧ ∀ c tail, rest = c :: tail → c.isDigit = false

theorem Idle.detached {rest : List Char} (h : Idle rest) : Detached rest :=
  ⟨h.wordless, fun _ _ => h.head⟩

/-- What is read of the text of a tree that holds together as tightly as the phrase. After a sum or
product, the chain may go on. -/
def ReadsBack (lexicon : Lexicon) (e : Expr) : Tightness → Prop
  | .closed => ∀ levels rest terms, Detached rest → terms ≤ maxTerms →
    (primary lexicon (nestedWithin lexicon levels) (e.text.toList ++ rest) terms).IsWithin
      (Fits levels terms e) (.parsed e rest (terms + e.steps))
  | .dice => ∀ levels rest terms, Idle rest →
    (value lexicon (nestedWithin lexicon levels) (e.text.toList ++ rest) terms).IsWithin
      (Fits levels (terms + 1) e) (.parsed e rest (terms + 1 + e.steps))
  | .product => ∀ levels rest terms, Idle rest → ∃ bound, maxChain ≤ bound + e.steps ∧
    (product lexicon (nestedWithin lexicon levels) (e.text.toList ++ rest) terms).IsWithin
      (Fits levels (terms + 1) e)
      (Parser.repeatStep (link (value lexicon (nestedWithin lexicon levels)) productSign) bound e
        rest (terms + 1 + e.steps))
  | .sum => ∀ levels rest terms, Idle rest → Lacks (· == '*') rest →
    ∃ bound, maxChain ≤ bound + e.steps ∧
      (sum lexicon (nestedWithin lexicon levels) (e.text.toList ++ rest) terms).IsWithin
        (Fits levels (terms + 1) e)
        (Parser.repeatStep (link (product lexicon (nestedWithin lexicon levels)) additiveSign) bound
          e rest (terms + 1 + e.steps))

theorem numeral_decimal {n : Int64} (hn : 0 ≤ n.toInt) : Numeral (decimal n.toInt).toList n := by
  refine ⟨n.toInt.toNat, ?_, int64?_eq_some_iff.mpr ?_⟩
  · rw [Expr.decimal_of_nonneg hn]
    exact natural?_toString _
  · exact (Int.toNat_of_nonneg hn).symm

/-- Digits or a parenthesis stand at the head of a closed text. -/
theorem exists_cons_of_closed {e : Expr} (h : Plain .closed e) :
    ∃ c tail, e.text.toList = c :: tail ∧ c.isAlpha = false ∧ isSeparator c = false := by
  cases h with
  | integer hn =>
    obtain ⟨c, tail, htext, hc⟩ := (numeral_decimal hn).exists_cons
    exact ⟨c, tail, htext, Text.isAlpha_of_isDigit hc, isSeparator_of_isDigit hc⟩
  | @group e h => exact ⟨'(', e.text.toList ++ [')'], by simp [Expr.text], by decide, by decide⟩

theorem wordless_closed {e : Expr} (h : Plain .closed e) (rest : List Char) :
    Wordless (e.text.toList ++ rest) := by
  obtain ⟨c, tail, htext, halpha, hseparator⟩ := exists_cons_of_closed h
  rw [htext, List.cons_append]
  exact Lacks.wordless (lacks_of_skip (skipSeparators_cons hseparator _) halpha)

theorem wordless_letter {e : Expr} (h : Plain .closed e) (rest : List Char) :
    Wordless ('d' :: (e.text.toList ++ rest)) := by
  obtain ⟨c, tail, htext, halpha, -⟩ := exists_cons_of_closed h
  rw [Wordless, htext, skipSeparators_cons (by decide)]
  simp [Text.startsWord, halpha]

/-! ## Signs of a sum -/

/-- What follows a sum does not go on with it. -/
theorem additiveSign_eq_none {text : List Char} (htext : Wordless text)
    (hplus : Lacks (· == '+') text) (hminus : Lacks (· == '-') text) :
    additiveSign text = none := by
  have hkeyword := keyword_eq_none htext
  rw [additiveSign, Scanner.orElse_none (Scanner.bind_none (sign_eq_none hplus)),
    Scanner.orElse_none (Scanner.bind_none (hkeyword "plus" (by decide))),
    Scanner.orElse_none (Scanner.bind_none (sign_eq_none hminus)),
    Scanner.bind_none (hkeyword "minus" (by decide))]

theorem additiveSign_plus (rest : List Char) : additiveSign ('+' :: rest) = some (.add, rest) :=
  Scanner.orElse_some (Scanner.bind_some (sign_eq_some (skipSeparators_cons (by decide) rest)))

theorem additiveSign_minus (rest : List Char) : additiveSign ('-' :: rest) = some (.sub, rest) := by
  have hskip : skipSeparators ('-' :: rest) = '-' :: rest := skipSeparators_cons (by decide) rest
  have hword : Wordless ('-' :: rest) := Lacks.wordless (lacks_of_skip hskip (by decide))
  have hplus : sign '+' ('-' :: rest) = none := sign_eq_none (lacks_of_skip hskip (by decide))
  rw [additiveSign, Scanner.orElse_none (Scanner.bind_none hplus),
    Scanner.orElse_none (Scanner.bind_none (keyword_eq_none hword "plus" (by decide)))]
  exact Scanner.orElse_some (Scanner.bind_some (sign_eq_some hskip))

section Phrases

variable {lexicon : Lexicon} {e s c l r : Expr}

/-! ## Sums and products -/

/-- A chain of operands goes on by one more, as long as it is not too long. -/
theorem chain_within {operand : Parser Expr} {operator : Scanner BinaryOp} {op : BinaryOp}
    {rest rest' last : List Char} {levels terms bound : Nat} {reading : Reading Expr}
    (hbound : maxChain ≤ bound + l.steps)
    (hleft : reading.IsWithin (Fits levels (terms + 1) l)
      (Parser.repeatStep (link operand operator) bound l rest (terms + 1 + l.steps)))
    (hoperator : operator rest = some (op, rest'))
    (hright : (operand rest' (terms + 1 + l.steps)).IsWithin
      (Fits levels (terms + 1 + l.steps + 1) r)
      (.parsed r last (terms + 1 + l.steps + 1 + r.steps))) :
    ∃ bound, maxChain ≤ bound + (Expr.binary op l r).steps ∧
      reading.IsWithin (Fits levels (terms + 1) (.binary op l r))
        (Parser.repeatStep (link operand operator) bound (.binary op l r) last
          (terms + 1 + (Expr.binary op l r).steps)) := by
  have hfits : Fits levels (terms + 1) (.binary op l r) ↔ Fits levels (terms + 1) l ∧
      Fits levels (terms + 1 + l.steps + 1) r := by
    simp only [Fits, Expr.nesting, Expr.steps_binary]
    omega
  have hcount : terms + 1 + (Expr.binary op l r).steps =
      terms + 1 + l.steps + 1 + r.steps := by
    rw [Expr.steps_binary]
    omega
  rw [hfits, hcount]
  refine ⟨bound - 1, by rw [Expr.steps_binary]; omega, hleft.trans (fun hl => ?_) Iff.rfl⟩
  -- The links so far are terms, so there may be more links as long as there may be more terms.
  obtain ⟨bound, rfl⟩ : ∃ b, bound = b + 1 := by
    have hterms := hl.2
    rw [show maxChain = 2 * maxTerms + 1 from rfl] at hbound
    exact ⟨bound - 1, by omega⟩
  exact repeatStep_within (link_within hoperator hright l) bound

theorem readsBack_dice (h : ReadsBack lexicon e .dice) : ReadsBack lexicon e .product := by
  intro levels rest terms hidle
  refine ⟨maxChain, Nat.le_add_right .., ?_⟩
  rw [product, chain]
  exact (h levels rest terms hidle).bind_eq fun _ => rfl

theorem product_within (h : ReadsBack lexicon e .product) {rest : List Char} (hidle : Idle rest)
    (hstar : Lacks (· == '*') rest) (levels terms : Nat) :
    (product lexicon (nestedWithin lexicon levels) (e.text.toList ++ rest) terms).IsWithin
      (Fits levels (terms + 1) e) (.parsed e rest (terms + 1 + e.steps)) := by
  obtain ⟨bound, -, hchain⟩ := h levels rest terms hidle
  have hend := productSign_eq_none hidle.wordless hstar
  exact hchain.trans_eq fun _ => Parser.repeatStep_none (link_none hend) bound

theorem readsBack_product (h : ReadsBack lexicon e .product) : ReadsBack lexicon e .sum := by
  intro levels rest terms hidle hstar
  refine ⟨maxChain, Nat.le_add_right .., ?_⟩
  rw [sum, chain]
  exact (product_within h hidle hstar levels terms).bind_eq fun _ => rfl

/-- A sum ends where no sign goes on with it. -/
theorem sum_within (h : ReadsBack lexicon e .sum) {rest : List Char} (hidle : Idle rest)
    (hstar : Lacks (· == '*') rest) (hend : additiveSign rest = none) (levels terms : Nat) :
    (sum lexicon (nestedWithin lexicon levels) (e.text.toList ++ rest) terms).IsWithin
      (Fits levels (terms + 1) e) (.parsed e rest (terms + 1 + e.steps)) := by
  obtain ⟨bound, -, hchain⟩ := h levels rest terms hidle hstar
  exact hchain.trans_eq fun _ => Parser.repeatStep_none (link_none hend) bound

theorem readsBack_times (hlplain : Plain .product l) (hrplain : Plain .dice r)
    (hl : ReadsBack lexicon l .product) (hr : ReadsBack lexicon r .dice) :
    ReadsBack lexicon (.binary .mul l r) .product := by
  intro levels rest terms hidle
  have htext : (Expr.binary .mul l r).text.toList ++ rest =
      l.text.toList ++ '*' :: (r.text.toList ++ rest) := by
    simp [hlplain.text_times hrplain]
  have hskip : skipSeparators ('*' :: (r.text.toList ++ rest)) = '*' :: (r.text.toList ++ rest) :=
    skipSeparators_cons (by decide) _
  have hoperator : productSign ('*' :: (r.text.toList ++ rest)) =
      some (.mul, r.text.toList ++ rest) :=
    Scanner.orElse_some (Scanner.bind_some (sign_eq_some hskip))
  obtain ⟨bound, hbound, hleft⟩ := hl levels _ terms (lacks_of_skip hskip (by decide))
  rw [htext]
  exact chain_within hbound hleft hoperator (hr levels rest _ hidle)

/-- A sum or difference is read back, whichever of the signs stands in it. -/
theorem readsBack_additive {op : BinaryOp} (sign : Char)
    (htext : (Expr.binary op l r).text.toList = l.text.toList ++ sign :: r.text.toList)
    (hsign : (sign.isAlphanum || sign == '(' || sign == '*' || isSeparator sign) = false)
    (hoperator : ∀ rest, additiveSign (sign :: rest) = some (op, rest))
    (hl : ReadsBack lexicon l .sum) (hr : ReadsBack lexicon r .product) :
    ReadsBack lexicon (.binary op l r) .sum := by
  intro levels rest terms hidle hstar
  simp only [Bool.or_eq_false_iff] at hsign
  have hskip : skipSeparators (sign :: (r.text.toList ++ rest)) =
      sign :: (r.text.toList ++ rest) := skipSeparators_cons hsign.2 _
  obtain ⟨bound, hbound, hleft⟩ := hl levels _ terms
    (lacks_of_skip hskip (by simp only [hsign, Bool.or_self]))
    (lacks_of_skip hskip hsign.1.2)
  rw [htext, List.append_assoc, List.cons_append]
  exact chain_within hbound hleft (hoperator _) (product_within hr hidle hstar levels _)

/-! ## Groups -/

theorem nestedSum_within (h : ReadsBack lexicon e .sum) (levels terms : Nat) (rest : List Char) :
    ((nestedWithin lexicon levels).sum (e.text.toList ++ ')' :: rest) terms).IsWithin
      (Fits levels terms (.group e)) (.parsed e (')' :: rest) (terms + 1 + e.steps)) := by
  cases levels with
  | zero => exact .of_not (fun hfits => absurd hfits.1 (Nat.not_succ_le_zero _)) rfl
  | succ levels =>
    have hskip : skipSeparators (')' :: rest) = ')' :: rest := skipSeparators_cons (by decide) rest
    have hidle : Idle (')' :: rest) := lacks_of_skip hskip (by decide)
    have hend : additiveSign (')' :: rest) = none :=
      additiveSign_eq_none hidle.wordless (lacks_of_skip hskip (by decide))
        (lacks_of_skip hskip (by decide))
    have hsum := sum_within h hidle (lacks_of_skip hskip (by decide)) hend levels terms
    have hfits : Fits (levels + 1) terms (.group e) ↔ Fits levels (terms + 1) e := by
      simp only [Fits, Expr.nesting, Expr.steps_group]
      omega
    rw [hfits]
    exact hsum

/-- A sum between parentheses is a group. -/
theorem parenthesized_within {nested : Nested} {text rest more : List Char} {terms terms' : Nat}
    {A : Prop} (hsum : (nested.sum text terms).IsWithin A (.parsed e rest terms'))
    (hclose : skipSeparators rest = ')' :: more) :
    (parenthesized nested ('(' :: text) terms).IsWithin A (.parsed (.group e) more terms') := by
  have hopen : sign '(' ('(' :: text) = some ((), text) :=
    sign_eq_some (skipSeparators_cons (by decide) text)
  rw [parenthesized, Parser.bind_parsed (Parser.ofScanner_some hopen)]
  refine hsum.bind_eq fun _ => ?_
  rw [Parser.bind_parsed (Parser.ofScanner_some (sign_eq_some hclose))]
  rfl

theorem readsBack_group (h : ReadsBack lexicon e .sum) : ReadsBack lexicon (.group e) .closed := by
  intro levels rest terms _ _
  have htext : (Expr.group e).text.toList ++ rest = '(' :: (e.text.toList ++ ')' :: rest) := by
    simp [Expr.text]
  have hterms : terms + (Expr.group e).steps = terms + 1 + e.steps := by
    rw [Expr.steps_group]
    omega
  rw [htext, primary, hterms]
  exact (parenthesized_within (nestedSum_within h levels terms rest)
    (skipSeparators_cons (by decide) rest)).orElse

/-! ## Values -/

/-- A value counts as a term, and goes on from its head. -/
theorem value_within {text rest : List Char} {levels terms : Nat} {A : Prop}
    {other : Reading Expr}
    (hhead : ∀ {terms}, terms ≤ maxTerms →
      (head lexicon (nestedWithin lexicon levels) text terms).IsWithin (Fits levels terms e)
        (.parsed e rest (terms + e.steps)))
    (hnext : Fits levels (terms + 1) e →
      (Parser.repeatStep (continuation lexicon (nestedWithin lexicon levels)) maxChain e rest
        (terms + 1 + e.steps)).IsWithin A other) :
    (value lexicon (nestedWithin lexicon levels) text terms).IsWithin
      (Fits levels (terms + 1) e ∧ A) other := by
  rw [value]
  refine term_within.bind (fun hterms => (hhead hterms).bind hnext Iff.rfl) ?_
  constructor
  · rintro ⟨hfits, hA⟩
    have hterms := hfits.2
    exact ⟨by omega, hfits, hA⟩
  · exact And.right

variable (hlexicon : lexicon.Worded)

include hlexicon

theorem readsBack_integer {n : Int64} (hn : 0 ≤ n.toInt) :
    ReadsBack lexicon (.integer n) .closed := by
  intro levels rest terms hrest hterms
  have hnumeral := numeral_decimal hn
  have hinteger : integer ((Expr.integer n).text.toList ++ rest) = some (n, rest) :=
    integer_eq_some hnumeral hrest.2 (hnumeral.skip rest)
  exact .of_eq ⟨Nat.zero_le _, hterms⟩ (primary_number hlexicon hinteger hrest.1)

theorem nestedSides_within (hplain : Plain .closed s) (h : ReadsBack lexicon s .closed)
    {rest : List Char} (hrest : Detached rest) {terms : Nat} (hterms : terms ≤ maxTerms)
    (levels : Nat) :
    ((nestedWithin lexicon levels).sides (s.text.toList ++ rest) terms).IsWithin
      (Fits levels terms (.rollOne s)) (.parsed s rest (terms + s.steps)) := by
  cases levels with
  | zero => exact .of_not (fun hfits => absurd hfits.1 (Nat.not_succ_le_zero _)) rfl
  | succ levels =>
    have hname := namedDie_eq_none (wordless_closed hplain rest) hlexicon
    have hfits : Fits (levels + 1) terms (.rollOne s) ↔ Fits levels terms s := by
      simp only [Fits, Expr.nesting, Expr.steps_rollOne]
      omega
    rw [hfits]
    show (sides lexicon (nestedWithin lexicon levels) _ _).IsWithin _ _
    rw [sides, Parser.orElse_unmatched (Parser.bind_unmatched (Parser.ofScanner_none hname))]
    exact (h levels rest terms hrest hterms).orElse

/-- What is read as no die is the head of a value, where no phrase makes a die of it. -/
theorem head_within_of_primary {nested : Nested} {text rest : List Char} {terms terms' : Nat}
    {A : Prop} (htext : Wordless text) (hrest : Wordless rest)
    (h : (primary lexicon nested text terms).IsWithin A (.parsed e rest terms')) :
    (head lexicon nested text terms).IsWithin A (.parsed e rest terms') := by
  have hname := namedDie_eq_none htext hlexicon
  rw [head, Parser.orElse_unmatched (Parser.bind_unmatched (Parser.ofScanner_none hname))]
  refine Reading.IsWithin.orElse (h.bind_eq fun _ => ?_)
  rw [Parser.bind_parsed
    (Parser.optional_unmatched (Parser.ofScanner_none (sidedDie_eq_none hrest)))]
  rfl

/-- A closed text is the head of a value. -/
theorem head_within (hplain : Plain .closed e) (h : ReadsBack lexicon e .closed)
    {rest : List Char} (hrest : Detached rest) {terms : Nat} (hterms : terms ≤ maxTerms)
    (levels : Nat) :
    (head lexicon (nestedWithin lexicon levels) (e.text.toList ++ rest) terms).IsWithin
      (Fits levels terms e) (.parsed e rest (terms + e.steps)) :=
  head_within_of_primary hlexicon (wordless_closed hplain rest) hrest.1
    (h levels rest terms hrest hterms)

/-- A "d" and a closed text are the head of a value. -/
theorem letterHead_within (hplain : Plain .closed s) (h : ReadsBack lexicon s .closed)
    {rest : List Char} (hrest : Detached rest) {terms : Nat} (hterms : terms ≤ maxTerms)
    (levels : Nat) :
    (head lexicon (nestedWithin lexicon levels) ('d' :: (s.text.toList ++ rest)) terms).IsWithin
      (Fits levels terms (.rollOne s))
      (.parsed (.rollOne s) rest (terms + (Expr.rollOne s).steps)) := by
  have hskip : skipSeparators ('d' :: (s.text.toList ++ rest)) = 'd' :: (s.text.toList ++ rest) :=
    skipSeparators_cons (by decide) _
  have hword := wordless_letter hplain rest
  have hname := namedDie_eq_none hword hlexicon
  have hprimary : primary lexicon (nestedWithin lexicon levels) ('d' :: (s.text.toList ++ rest))
      terms = .unmatched terms :=
    primary_unmatched hlexicon hword (lacks_of_skip hskip (by decide))
      (lacks_of_skip hskip (by decide))
  have hletter : dieLetter ('d' :: (s.text.toList ++ rest)) = some ((), s.text.toList ++ rest) :=
    Scanner.orElse_some (sign_eq_some hskip)
  rw [head, Parser.orElse_unmatched (Parser.bind_unmatched (Parser.ofScanner_none hname)),
    Parser.orElse_unmatched (Parser.bind_unmatched hprimary),
    Parser.bind_parsed (Parser.ofScanner_some hletter), Expr.steps_rollOne]
  exact (nestedSides_within hlexicon hplain h hrest hterms levels).bind_eq fun _ => rfl

/-- A head that nothing goes on with is the whole value. -/
theorem value_of_head {text rest : List Char} (hidle : Idle rest) {levels terms : Nat}
    (hhead : ∀ {terms}, terms ≤ maxTerms →
      (head lexicon (nestedWithin lexicon levels) text terms).IsWithin (Fits levels terms e)
        (.parsed e rest (terms + e.steps))) :
    (value lexicon (nestedWithin lexicon levels) text terms).IsWithin (Fits levels (terms + 1) e)
      (.parsed e rest (terms + 1 + e.steps)) := by
  have hvalue : (value lexicon (nestedWithin lexicon levels) text terms).IsWithin
      (Fits levels (terms + 1) e ∧ True) (.parsed e rest (terms + 1 + e.steps)) :=
    value_within hhead fun _ =>
      .of_eq trivial (Parser.repeatStep_none (continuation_idle hlexicon hidle e) maxChain)
  rwa [and_true] at hvalue

theorem readsBack_closed (hplain : Plain .closed e) (h : ReadsBack lexicon e .closed) :
    ReadsBack lexicon e .dice := fun levels _ _ hidle =>
  value_of_head hlexicon hidle fun hterms =>
    head_within hlexicon hplain h hidle.detached hterms levels

theorem readsBack_rollOne (hplain : Plain .closed s) (h : ReadsBack lexicon s .closed) :
    ReadsBack lexicon (.rollOne s) .dice := by
  intro levels rest terms hidle
  have htext : (Expr.rollOne s).text.toList ++ rest = 'd' :: (s.text.toList ++ rest) := by
    simp [hplain.text_rollOne]
  rw [htext]
  exact value_of_head hlexicon hidle fun hterms =>
    letterHead_within hlexicon hplain h hidle.detached hterms levels

/-- A "d" and a closed text go on with a value, and are one more term. -/
theorem continuation_within (hplain : Plain .closed s) (h : ReadsBack lexicon s .closed)
    {rest : List Char} (hrest : Detached rest) {terms : Nat} (hterms : terms ≤ maxTerms)
    (levels : Nat) (c : Expr) :
    (continuation lexicon (nestedWithin lexicon levels) c ('d' :: (s.text.toList ++ rest))
      terms).IsWithin (Fits levels (terms + 1) (.rollOne s))
        (.parsed (some (.roll c s)) rest (terms + s.steps + 1)) := by
  have hskip : skipSeparators ('d' :: (s.text.toList ++ rest)) = 'd' :: (s.text.toList ++ rest) :=
    skipSeparators_cons (by decide) _
  have hdie : (die lexicon (nestedWithin lexicon levels) ('d' :: (s.text.toList ++ rest))
      terms).IsWithin (Fits levels terms (.rollOne s)) (.parsed s rest (terms + s.steps)) := by
    rw [die_letter hlexicon hskip (wordless_letter hplain rest)]
    exact nestedSides_within hlexicon hplain h hrest hterms levels
  refine Reading.IsWithin.orElse (hdie.bind (fun _ => term_within.bind_eq fun _ => rfl) ?_)
  simp only [Fits, Expr.steps_rollOne]
  omega

theorem readsBack_roll (hcplain : Plain .closed c) (hsplain : Plain .closed s)
    (hc : ReadsBack lexicon c .closed) (hs : ReadsBack lexicon s .closed) :
    ReadsBack lexicon (.roll c s) .dice := by
  intro levels rest terms hidle
  have htext : (Expr.roll c s).text.toList ++ rest =
      c.text.toList ++ 'd' :: (s.text.toList ++ rest) := by
    simp [hcplain.text_roll hsplain]
  have hdetached : Detached ('d' :: (s.text.toList ++ rest)) :=
    ⟨wordless_letter hsplain rest, by rintro _ _ ⟨⟩; decide⟩
  have hfits : Fits levels (terms + 1) (.roll c s) ↔ Fits levels (terms + 1) c ∧
      Fits levels (terms + 1 + c.steps + 1) (.rollOne s) := by
    simp only [Fits, Expr.nesting, Expr.steps_roll, Expr.steps_rollOne]
    omega
  have hcount : terms + 1 + (Expr.roll c s).steps = terms + 1 + c.steps + s.steps + 1 := by
    rw [Expr.steps_roll]
    omega
  rw [htext, hfits, hcount]
  refine value_within (fun hterms => head_within hlexicon hcplain hc hdetached hterms levels)
    fun hfits => ?_
  rw [show maxChain = 2000 + 1 from rfl]
  exact (repeatStep_within
    (continuation_within hlexicon hsplain hs hidle.detached hfits.2 levels c) 2000).trans_eq
      fun _ => Parser.repeatStep_none (continuation_idle hlexicon hidle _) 2000

/-- The text of a plain tree is read back as the tree, with every phrase it is. -/
theorem readsBack_of_plain {tightness : Tightness} (h : Plain tightness e) :
    ReadsBack lexicon e tightness := by
  induction h with
  | integer hn => exact readsBack_integer hlexicon hn
  | group _ ih => exact readsBack_group ih
  | rollOne hs ih => exact readsBack_rollOne hlexicon hs ih
  | roll hc hs ihc ihs => exact readsBack_roll hlexicon hc hs ihc ihs
  | times hl hr ihl ihr => exact readsBack_times hl hr ihl ihr
  | plus hl hr ihl ihr =>
    exact readsBack_additive '+' (by simp [hl.text_plus hr]) (by decide) additiveSign_plus ihl ihr
  | minus hl hr ihl ihr =>
    exact readsBack_additive '-' (by simp [hl.text_minus hr]) (by decide) additiveSign_minus ihl ihr
  | closedDice hplain ih => exact readsBack_closed hlexicon hplain ih
  | diceProduct _ ih => exact readsBack_dice ih
  | productSum _ ih => exact readsBack_product ih

end Phrases

/-! ## Whole requests -/

/-- The text of a numeric expression is read as the expression, with groups for its parentheses, or
it is too large. -/
theorem read_text_within {rules : Ruleset} (hrules : rules.Worded) {t : Expr} (ht : t.Numeric) :
    (Fits maxNesting 1 t.bracketed → read (.ofRuleset rules) t.text = .ok t.bracketed) ∧
      (¬ Fits maxNesting 1 t.bracketed → read (.ofRuleset rules) t.text = .error .tooLarge) := by
  have hplain : Plain .sum t.bracketed := (Expr.plain_bracketed ht).loosen (Nat.zero_le _)
  have hreads := readsBack_of_plain (Lexicon.worded_ofRuleset hrules) hplain
  have hreading := sum_within hreads lacks_nil lacks_nil (by decide) maxNesting 0
  rw [Expr.text_bracketed, List.append_nil] at hreading
  rw [read, readOr, readingOf]
  constructor
  · intro hfits
    rw [hreading.1 hfits]
    rfl
  · intro hfits
    rw [hreading.2 hfits]

/-- The limits of a request, said of the leaves and nodes of an expression. -/
theorem not_fits_bracketed_iff {t : Expr} (ht : t.Numeric) :
    ¬ Fits maxNesting 1 t.bracketed ↔ (∃ n ∈ t.bracketed.leafLevels, 100 < n) ∨
      1000 < t.count .arithmetic + t.count .dice + t.text.toList.count '(' + 1 := by
  have hparentheses : t.text.toList.count '(' = t.bracketed.count .group := by
    rw [← (Expr.plain_bracketed ht).count_parenthesis, Expr.text_bracketed]
  rw [← Expr.lt_nesting_iff, hparentheses, ← Expr.count_bracketed (by decide) t,
    ← Expr.count_bracketed (by decide) t, Fits, Expr.steps,
    show maxNesting = 100 from rfl, show maxTerms = 1000 from rfl]
  omega

/-- Where names begin with two letters, the text of an expression of numbers, arithmetic, dice and
groups is read as that expression up to groups, or it is too large. It is too large exactly when a
leaf of it is enclosed by more than 100 levels, or when its operations, its dice, its parentheses
and one are more than 1000. -/
theorem read_text {rules : Ruleset} (hrules : rules.Worded) {t : Expr} (ht : t.Numeric) :
    ((∃ u, read (.ofRuleset rules) t.text = .ok u ∧ u.withoutGroups = t.withoutGroups) ∨
      read (.ofRuleset rules) t.text = .error .tooLarge) ∧
    (read (.ofRuleset rules) t.text = .error .tooLarge ↔
      (∃ n ∈ t.bracketed.leafLevels, 100 < n) ∨
        1000 < t.count .arithmetic + t.count .dice + t.text.toList.count '(' + 1) := by
  obtain ⟨hread, hlarge⟩ := read_text_within hrules ht
  rw [← not_fits_bracketed_iff ht]
  by_cases hfits : Fits maxNesting 1 t.bracketed
  · refine ⟨.inl ⟨_, hread hfits, t.withoutGroups_bracketed⟩, fun h => ?_, fun h => absurd hfits h⟩
    cases (hread hfits).symm.trans h
  · exact ⟨.inr (hlarge hfits), fun _ => hfits, hlarge⟩

/-- Dice in counts and in sides, and a difference in a difference. -/
def diceOfDice : Expr :=
  .binary .sub (.roll (.binary .add (.integer 1) (.integer 2)) (.rollOne (.integer 6)))
    (.binary .sub (.integer 3) (.binary .mul (.integer 4) (.integer 5)))

/-- Parentheses are read back with the names of the standard ruleset, but not 101 of them around a
number. -/
theorem read_text_dice_of_dice :
    (∃ u, read (.ofRuleset .standard) "(1+2)d(d6)-(3-4*5)" = .ok u ∧
      u.withoutGroups = diceOfDice.withoutGroups) ∧
    read (.ofRuleset .standard) (Nat.repeat Expr.group 101 (.integer 7)).text =
      .error .tooLarge := by
  have hrules : Ruleset.standard.Worded := by
    show ∀ name ∈ _, _ = true
    decide +kernel
  have hdice : diceOfDice.Numeric := by
    simp [diceOfDice, Expr.Numeric, Expr.NumericNode, BinaryOp.isCall]
  have hgroups : (Nat.repeat Expr.group 101 (.integer 7)).Numeric := by
    simp [Nat.repeat, Expr.Numeric, Expr.NumericNode]
  have htext : "(1+2)d(d6)-(3-4*5)" = diceOfDice.text := by decide +kernel
  constructor
  · rw [htext]
    refine (read_text hrules hdice).1.resolve_right fun hlarge => ?_
    exact absurd ((read_text hrules hdice).2.mp hlarge) (by decide +kernel)
  · exact (read_text hrules hgroups).2.mpr (.inl (by decide +kernel))

end SpokenDice.Request
