import SpokenDice.Proofs.Request.Yields

/-!
# The grammar of requests

The trees that a request can be read as, as an inductive definition beside the parser: one rule
for each way in which the grammar makes a phrase out of phrases. Names stand in the text and in
the tables of the ruleset, and numbers are not negative.

- `Derives`: the grammar derives a tree as a phrase.
- `derives_of_readOr_eq_ok`: what is read is derived as a sum.
-/

namespace SpokenDice.Request

/-- The phrases of a request, as in the grammar of the parser. The sides of a die are a phrase of
their own, and so is the damage of a weapon or spell. -/
inductive Phrase where
  | damage
  | primary
  | sides
  | value
  | product
  | sum
  deriving DecidableEq

/-- The grammar derives the tree as the phrase, with the names of the ruleset, in the text. -/
inductive Derives (rules : Ruleset) (whole : List Char) : Phrase → Expr → Prop
  | weapon {name : String} (h : Scanner.Spelled whole (rules.weapons.map Weapon.name) name) :
      Derives rules whole .damage (.weapon name)
  | spell {name : String} (h : Scanner.Spelled whole (rules.spells.map Spell.name) name) :
      Derives rules whole .damage (.spell name)
  | spellAt {name : String} {level : Int64}
      (h : Scanner.Spelled whole (rules.spells.map Spell.name) name) (hlevel : 0 ≤ level.toInt) :
      Derives rules whole .damage (.spellAt name (.integer level))
  | integer {n : Int64} (hn : 0 ≤ n.toInt) : Derives rules whole .primary (.integer n)
  | parentheses {e : Expr} (h : Derives rules whole .sum e) :
      Derives rules whole .primary (.group e)
  | damageGroup {e : Expr} (h : Derives rules whole .damage e) :
      Derives rules whole .primary (.group e)
  | critical {e : Expr} (h : Derives rules whole .damage e) :
      Derives rules whole .primary (.critical e)
  | namedDie {name : String}
      (h : Scanner.Spelled whole (rules.namedDice.map NamedDie.name) name) :
      Derives rules whole .sides (.namedDie name)
  | primarySides {e : Expr} (h : Derives rules whole .primary e) : Derives rules whole .sides e
  | rolledSides {s : Expr} (h : Derives rules whole .sides s) :
      Derives rules whole .sides (.rollOne s)
  | primaryValue {e : Expr} (h : Derives rules whole .primary e) : Derives rules whole .value e
  | loneDie {s : Expr} (h : Derives rules whole .sides s) : Derives rules whole .value (.rollOne s)
  | dice {c s : Expr} (hc : Derives rules whole .value c) (hs : Derives rules whole .sides s) :
      Derives rules whole .value (.roll c s)
  | advantage {e : Expr} (h : Derives rules whole .value e) (hdice : e.isDice = true) :
      Derives rules whole .value (.advantage e)
  | disadvantage {e : Expr} (h : Derives rules whole .value e) (hdice : e.isDice = true) :
      Derives rules whole .value (.disadvantage e)
  | valueProduct {e : Expr} (h : Derives rules whole .value e) : Derives rules whole .product e
  | times {l r : Expr} (hl : Derives rules whole .product l) (hr : Derives rules whole .value r) :
      Derives rules whole .product (.binary .mul l r)
  | productSum {e : Expr} (h : Derives rules whole .product e) : Derives rules whole .sum e
  | plus {l r : Expr} (hl : Derives rules whole .sum l) (hr : Derives rules whole .product r) :
      Derives rules whole .sum (.binary .add l r)
  | minus {l r : Expr} (hl : Derives rules whole .sum l) (hr : Derives rules whole .product r) :
      Derives rules whole .sum (.binary .sub l r)

variable {rules : Ruleset} {whole : List Char}

/-! ## Weapons, spells and critical hits -/

section Damage

open Scanner

theorem ordinal_yields : Yields whole ordinal (fun _ => True) :=
  (keyword_yields _).orElse <| (keyword_yields _).orElse <|
    (keyword_yields _).orElse (keyword_yields _)

theorem ordinalLevel_yields : Yields whole ordinalLevel (fun n => 0 ≤ n.toInt) :=
  integer_yields.bind fun _ hn => ordinal_yields.bind fun _ _ =>
    (keyword_yields _).bind fun _ _ => yields_pure hn

theorem numberedLevel_yields : Yields whole numberedLevel (fun n => 0 ≤ n.toInt) :=
  (keyword_yields _).bind fun _ _ => integer_yields

theorem levelAfter_yields : Yields whole levelAfter (fun n => 0 ≤ n.toInt) :=
  ((keyword_yields _).bind fun _ _ => numberedLevel_yields).orElse
    ((keyword_yields _).optional.bind fun _ _ => ordinalLevel_yields)

theorem levelledSpell_yields :
    Yields whole (levelledSpell (.ofRuleset rules)) (Derives rules whole .damage) :=
  (numberedLevel_yields.orElse ordinalLevel_yields).bind fun _ hlevel =>
    (nameAmong_yields _).bind fun _ hname => yields_pure (.spellAt hname hlevel)

theorem weaponOfLength_yieldsAt {text : List Char} {n : Nat}
    (hn : longestName (Lexicon.ofRuleset rules).weapons text = some n) (htext : text <:+ whole) :
    YieldsAt whole text (weaponOfLength n) (Derives rules whole .damage) :=
  (nameOfLength_yieldsAt hn htext).bind fun _ hname => yields_pure (.weapon hname)

theorem spellOfLength_yieldsAt {text : List Char} {n : Nat}
    (hn : longestName (Lexicon.ofRuleset rules).spells text = some n) (htext : text <:+ whole) :
    YieldsAt whole text (spellOfLength n) (Derives rules whole .damage) := by
  refine (nameOfLength_yieldsAt hn htext).bind fun name hname => ?_
  refine levelAfter_yields.optional.bind fun level hlevel => ?_
  cases level with
  | none => exact yields_pure (.spell hname)
  | some level => exact yields_pure (.spellAt hname (hlevel level rfl))

theorem namedDamage_yields :
    Yields whole (namedDamage (.ofRuleset rules)) (Derives rules whole .damage) := by
  refine yields_token fun text htext => ?_
  split
  · exact yieldsAt_failure
  · rename_i hw _
    exact weaponOfLength_yieldsAt hw htext
  · rename_i hs
    exact spellOfLength_yieldsAt hs htext
  · rename_i w s hw hs
    split
    · exact weaponOfLength_yieldsAt hw htext
    · exact spellOfLength_yieldsAt hs htext

theorem damage_yields :
    Yields whole (damage (.ofRuleset rules)) (Derives rules whole .damage) :=
  levelledSpell_yields.orElse namedDamage_yields

theorem criticalHit_yields :
    Yields whole (criticalHit (.ofRuleset rules)) (Derives rules whole .primary) :=
  (keyword_yields _).bind fun _ _ => (keyword_yields _).optional.bind fun _ _ =>
    (keyword_yields _).optional.bind fun _ _ => (keyword_yields _).optional.bind fun _ _ =>
      (keyword_yields _).optional.bind fun _ _ =>
        damage_yields.bind fun _ h => yields_pure (.critical h)

theorem namedDie_yields :
    Yields whole (namedDie (.ofRuleset rules)) (Derives rules whole .sides) :=
  (nameAmong_yields _).bind fun _ h => yields_pure (.namedDie h)

theorem dieLetter_yields : Yields whole dieLetter (fun _ => True) :=
  (sign_yields _).orElse (sign_yields _)

theorem sidedDie_yields : Yields whole sidedDie (fun _ => True) :=
  (keyword_yields _).bind fun _ _ => (keyword_yields _).orElse (keyword_yields _)

theorem dicePhrase_yields {e : Expr} (h : Derives rules whole .value e)
    (hdice : e.isDice = true) : Yields whole (dicePhrase e) (Derives rules whole .value) := by
  have hphrase (word : String) (e' : Expr) (h' : Derives rules whole .value e') :
      Yields whole (do keyword "with"; keyword word; pure e') (Derives rules whole .value) :=
    (keyword_yields _).bind fun _ _ => (keyword_yields _).bind fun _ _ => yields_pure h'
  exact (hphrase _ _ (.advantage h hdice)).orElse (hphrase _ _ (.disadvantage h hdice))

theorem productSign_yields : Yields whole productSign (fun op => op = .mul) :=
  have hmul : Yields whole (pure BinaryOp.mul) (fun op => op = .mul) := yields_pure rfl
  ((sign_yields _).bind fun _ _ => hmul).orElse <|
    ((keyword_yields _).bind fun _ _ => hmul).orElse <|
      ((keyword_yields _).bind fun _ _ => (keyword_yields _).bind fun _ _ => hmul).orElse <|
        (keyword_yields _).bind fun _ _ => (keyword_yields _).bind fun _ _ => hmul

theorem additiveSign_yields :
    Yields whole additiveSign (fun op => op = .add ∨ op = .sub) :=
  ((sign_yields _).bind fun _ _ => yields_pure (.inl rfl)).orElse <|
    ((keyword_yields _).bind fun _ _ => yields_pure (.inl rfl)).orElse <|
      ((sign_yields _).bind fun _ _ => yields_pure (.inr rfl)).orElse <|
        (keyword_yields _).bind fun _ _ => yields_pure (.inr rfl)

end Damage

/-! ## Phrases -/

section Phrases

open SpokenDice.Request.Parser

/-- One level deeper, sums and side counts are read as the grammar derives them. -/
structure Nested.Sound (rules : Ruleset) (whole : List Char) (nested : Nested) : Prop where
  sum : Yields whole nested.sum (Derives rules whole .sum)
  sides : Yields whole nested.sides (Derives rules whole .sides)

variable {nested : Nested} (hnested : nested.Sound rules whole)
include hnested

theorem primary_yields :
    Yields whole (primary (.ofRuleset rules) nested) (Derives rules whole .primary) := by
  have hparentheses : Yields whole (parenthesized nested) (Derives rules whole .primary) :=
    (yields_ofScanner (Scanner.sign_yields _)).bind fun _ _ => hnested.sum.bind fun _ h =>
      (yields_ofScanner (Scanner.sign_yields _)).bind fun _ _ => yields_pure (.parentheses h)
  have hdamage : Scanner.Yields whole (damageGroup (.ofRuleset rules))
      (Derives rules whole .primary) :=
    damage_yields.bind fun _ h => Scanner.yields_pure (.damageGroup h)
  have hnumber : Scanner.Yields whole number (Derives rules whole .primary) :=
    Scanner.integer_yields.bind fun _ h => Scanner.yields_pure (.integer h)
  exact hparentheses.orElse <| (yields_ofScanner criticalHit_yields).orElse <|
    (yields_ofScanner hdamage).orElse (yields_ofScanner hnumber)

theorem sides_yields :
    Yields whole (sides (.ofRuleset rules) nested) (Derives rules whole .sides) := by
  have hnamed : Yields whole
      (do let sides ← ofScanner (namedDie (.ofRuleset rules)); pure (.rollOne sides))
      (Derives rules whole .sides) :=
    (yields_ofScanner namedDie_yields).bind fun _ h => yields_pure (.rolledSides h)
  refine hnamed.orElse <| ((primary_yields hnested).mono fun _ h => .primarySides h).orElse ?_
  exact (yields_ofScanner dieLetter_yields).bind fun _ _ => hnested.sides.bind fun _ h =>
    yields_pure (.rolledSides h)

theorem die_yields :
    Yields whole (die (.ofRuleset rules) nested) (Derives rules whole .sides) := by
  refine (yields_ofScanner namedDie_yields).orElse (.orElse ?_ ?_)
  · exact (primary_yields hnested).bind fun _ h =>
      (yields_ofScanner sidedDie_yields).bind fun _ _ => yields_pure (.primarySides h)
  · exact (yields_ofScanner dieLetter_yields).bind fun _ _ => hnested.sides

theorem head_yields :
    Yields whole (head (.ofRuleset rules) nested) (Derives rules whole .value) := by
  have hnamed : Yields whole
      (do let sides ← ofScanner (namedDie (.ofRuleset rules)); pure (.rollOne sides))
      (Derives rules whole .value) :=
    (yields_ofScanner namedDie_yields).bind fun _ h => yields_pure (.loneDie h)
  refine hnamed.orElse (.orElse ?_ ?_)
  · refine (primary_yields hnested).bind fun e h => ?_
    refine (yields_ofScanner sidedDie_yields).optional.bind fun sided _ => ?_
    cases sided with
    | none => exact yields_pure (.primaryValue h)
    | some _ => exact yields_pure (.loneDie (.primarySides h))
  · exact (yields_ofScanner dieLetter_yields).bind fun _ _ => hnested.sides.bind fun _ h =>
      yields_pure (.loneDie h)

theorem continuation_yields {e : Expr} (h : Derives rules whole .value e) :
    Yields whole (continuation (.ofRuleset rules) nested e)
      (fun next => ∀ e', next = some e' → Derives rules whole .value e') := by
  refine Yields.orElse ?_ ?_
  · refine (die_yields hnested).bind fun s hs => term_yields.bind fun _ _ => yields_pure ?_
    rintro _ ⟨⟩
    exact .dice h hs
  · by_cases hdice : e.isDice = true
    · rw [if_pos hdice]
      exact (yields_ofScanner (dicePhrase_yields h hdice)).optional
    · rw [if_neg hdice]
      exact yields_pure (by simp)

theorem value_yields :
    Yields whole (value (.ofRuleset rules) nested) (Derives rules whole .value) :=
  term_yields.bind fun _ _ => (head_yields hnested).bind fun _ h =>
    yields_repeatStep (fun _ => continuation_yields hnested) maxChain h

omit hnested in
/-- A chain yields what its first operand is and each of its links keeps. -/
theorem chain_yields {operand : Parser Expr} {operator : Scanner BinaryOp} {P Q : Expr → Prop}
    {O : BinaryOp → Prop} (hoperand : Yields whole operand P)
    (hoperator : Scanner.Yields whole operator O) (hfirst : ∀ e, P e → Q e)
    (hlink : ∀ op l r, O op → Q l → P r → Q (.binary op l r)) :
    Yields whole (chain operand operator) Q := by
  -- Every link of the chain keeps what its first operand is.
  refine hoperand.bind fun first h => yields_repeatStep (fun l hl => ?_) maxChain (hfirst _ h)
  refine (yields_ofScanner hoperator).optional.bind fun sign hsign => ?_
  cases sign with
  | none => exact yields_pure (by simp)
  | some op =>
    refine hoperand.bind fun r hr => yields_pure ?_
    rintro _ ⟨⟩
    exact hlink op l r (hsign op rfl) hl hr

theorem product_yields :
    Yields whole (product (.ofRuleset rules) nested) (Derives rules whole .product) := by
  refine chain_yields (value_yields hnested) productSign_yields (fun _ => .valueProduct) ?_
  rintro op l r rfl hl hr
  exact .times hl hr

theorem sum_yields :
    Yields whole (sum (.ofRuleset rules) nested) (Derives rules whole .sum) := by
  refine chain_yields (product_yields hnested) additiveSign_yields (fun _ => .productSum) ?_
  rintro op l r (rfl | rfl) hl hr
  · exact .plus hl hr
  · exact .minus hl hr

omit hnested in
/-- However many levels may still be entered, what is read there is derived. -/
theorem nestedWithin_sound (rules : Ruleset) (whole : List Char) (levels : Nat) :
    (nestedWithin (.ofRuleset rules) levels).Sound rules whole := by
  induction levels with
  | zero => exact ⟨yields_tooLarge, yields_tooLarge⟩
  | succ levels ih =>
    -- Where a level may still be entered, the phrases are made of what lies one level deeper.
    exact ⟨sum_yields ih, sides_yields ih⟩

end Phrases

/-! ## Whole requests -/

theorem derives_of_readOr_eq_ok {otherwise : RollError} {text : String} {e : Expr}
    (h : readOr otherwise (.ofRuleset rules) text = .ok e) :
    Derives rules text.toList .sum e := by
  rw [readOr] at h
  -- Only a reading that uses up the text gives a tree.
  split at h
  · rename_i e' rest terms hreading
    split at h
    · obtain rfl := Except.ok.inj h
      exact (sum_yields (nestedWithin_sound rules text.toList maxNesting) _ _ _ _ _
        List.suffix_rfl hreading).2
    · cases h
  · cases h
  · cases h

end SpokenDice.Request
