import SpokenDice.Proofs.Expr.Names
import SpokenDice.Proofs.Request.Tokens

/-!
# Two readings side by side

Two texts are read side by side, each with its own table of names, and at every point the two
readings agree: both read something, neither matches, or both requests are too large, and both have
met the same number of terms. How the texts that are left are related is a parameter, and so is
what names may differ in. What tokens and names owe to such a relation is listed in `TokensAgree`;
every rule of the grammar then keeps it.

- `Scanner.Agree` and `Parser.Agree`: two readings agree, and what they give is related.
- `TokensAgree`: the tokens agree that the grammar looks for, and so do the names.
- `mapNames_readOr`: texts in which the tokens agree give the same tree, up to names.
- `InStep`: tokens and names agree whatever they are, so that the two texts are read in step.
-/

namespace SpokenDice.Request

variable {α β : Type} {Same : List Char → List Char → Prop}

/-! ## Scanners -/

namespace Scanner

/-- On these two texts both scanners read something, or neither does; the values are related, and
the texts left behind are the same in some sense. -/
def AgreeAt (Same : List Char → List Char → Prop) (R : α → α → Prop) (text text' : List Char)
    (s t : Scanner α) : Prop :=
  Option.Rel (fun read read' => R read.1 read'.1 ∧ Same read.2 read'.2) (s text) (t text')

/-- On texts that are the same in some sense both scanners read something, or neither does; the
values are related, and the texts left behind are the same again. -/
def Agree (Same : List Char → List Char → Prop) (R : α → α → Prop) (s t : Scanner α) : Prop :=
  ∀ text text', Same text text' →
    Option.Rel (fun read read' => R read.1 read'.1 ∧ Same read.2 read'.2) (s text) (t text')

theorem agree_pure {R : α → α → Prop} {a b : α} (h : R a b) :
    Agree Same R (pure a) (pure b) :=
  fun _ _ htext => .some ⟨h, htext⟩

theorem AgreeAt.bind {R : α → α → Prop} {Q : β → β → Prop} {text text' : List Char}
    {s t : Scanner α} {next next' : α → Scanner β} (hs : AgreeAt Same R text text' s t)
    (hnext : ∀ a b, R a b → Agree Same Q (next a) (next' b)) :
    AgreeAt Same Q text text' (s >>= next) (t >>= next') := by
  rw [AgreeAt] at hs
  show Option.Rel _ ((s text).bind _) ((t text').bind _)
  generalize s text = read at hs ⊢
  generalize t text' = read' at hs ⊢
  cases hs with
  | none => exact .none
  | some h => exact hnext _ _ h.1 _ _ h.2

theorem Agree.bind {R : α → α → Prop} {Q : β → β → Prop} {s t : Scanner α}
    {next next' : α → Scanner β} (hs : Agree Same R s t)
    (hnext : ∀ a b, R a b → Agree Same Q (next a) (next' b)) :
    Agree Same Q (s >>= next) (t >>= next') :=
  fun text text' htext => AgreeAt.bind (hs text text' htext) hnext

theorem Agree.orElse {R : α → α → Prop} {s s' t t' : Scanner α} (hs : Agree Same R s s')
    (ht : Agree Same R t t') : Agree Same R (s <|> t) (s' <|> t') := by
  intro text text' htext
  have hread := hs text text' htext
  show Option.Rel _ (s text <|> t text) (s' text' <|> t' text')
  generalize s text = read at hread ⊢
  generalize s' text' = read' at hread ⊢
  cases hread with
  | none => exact ht text text' htext
  | some h => exact .some h

/-- What reads the same value twice goes on with it twice. -/
theorem Agree.bind_eq {R : β → β → Prop} {s t : Scanner α} {next next' : α → Scanner β}
    (hs : Agree Same Eq s t) (hnext : ∀ a, Agree Same R (next a) (next' a)) :
    Agree Same R (s >>= next) (t >>= next') := by
  refine hs.bind fun a b h => ?_
  rw [← h]
  exact hnext a

theorem Agree.optional {s t : Scanner α} (hs : Agree Same Eq s t) :
    Agree Same Eq (optional s) (optional t) := by
  refine Agree.orElse ?_ (agree_pure rfl)
  show Agree Same _ (s >>= fun a => pure (some a)) (t >>= fun a => pure (some a))
  exact hs.bind_eq fun a => agree_pure rfl

end Scanner

/-! ## Parsers -/

/-- Two readings agree: both parsed related values and left texts that are the same in some sense,
neither matches, or both requests are too large. They have met the same number of terms. -/
inductive Reading.Agree (Same : List Char → List Char → Prop) (R : α → α → Prop) :
    Reading α → Reading α → Prop
  | parsed {a b : α} {rest rest' : List Char} (h : R a b) (hrest : Same rest rest') (terms : Nat) :
      Agree Same R (.parsed a rest terms) (.parsed b rest' terms)
  | unmatched (terms : Nat) : Agree Same R (.unmatched terms) (.unmatched terms)
  | tooLarge : Agree Same R .tooLarge .tooLarge

namespace Parser

/-- On texts that are the same in some sense the readings agree. -/
def Agree (Same : List Char → List Char → Prop) (R : α → α → Prop) (p q : Parser α) : Prop :=
  ∀ text text' terms, Same text text' → (p text terms).Agree Same R (q text' terms)

theorem agree_pure {R : α → α → Prop} {a b : α} (h : R a b) : Agree Same R (pure a) (pure b) :=
  fun _ _ terms htext => .parsed h htext terms

theorem agree_tooLarge {R : α → α → Prop} : Agree Same R tooLarge tooLarge :=
  fun _ _ _ _ => .tooLarge

theorem Agree.bind {R : α → α → Prop} {Q : β → β → Prop} {p q : Parser α}
    {next next' : α → Parser β} (hp : Agree Same R p q)
    (hnext : ∀ a b, R a b → Agree Same Q (next a) (next' b)) :
    Agree Same Q (p >>= next) (q >>= next') := by
  intro text text' terms htext
  have hread := hp text text' terms htext
  rw [bind_apply, bind_apply]
  generalize p text terms = reading at hread ⊢
  generalize q text' terms = reading' at hread ⊢
  cases hread with
  | parsed h hrest terms' => exact hnext _ _ h _ _ terms' hrest
  | unmatched terms' => exact .unmatched terms'
  | tooLarge => exact .tooLarge

theorem Agree.bind_eq {R : β → β → Prop} {p q : Parser α} {next next' : α → Parser β}
    (hp : Agree Same Eq p q) (hnext : ∀ a, Agree Same R (next a) (next' a)) :
    Agree Same R (p >>= next) (q >>= next') := by
  refine hp.bind fun a b h => ?_
  rw [← h]
  exact hnext a

theorem Agree.orElse {R : α → α → Prop} {p p' q q' : Parser α} (hp : Agree Same R p p')
    (hq : Agree Same R q q') : Agree Same R (p <|> q) (p' <|> q') := by
  intro text text' terms htext
  have hread := hp text text' terms htext
  rw [orElse_apply, orElse_apply]
  generalize p text terms = reading at hread ⊢
  generalize p' text' terms = reading' at hread ⊢
  cases hread with
  | parsed h hrest terms' => exact .parsed h hrest terms'
  | unmatched terms' => exact hq text text' terms' htext
  | tooLarge => exact .tooLarge

theorem agree_ofScanner {R : α → α → Prop} {s t : Scanner α} (hs : Scanner.Agree Same R s t) :
    Agree Same R (ofScanner s) (ofScanner t) := by
  intro text text' terms htext
  have hread := hs text text' htext
  rw [ofScanner, ofScanner]
  generalize s text = read at hread ⊢
  generalize t text' = read' at hread ⊢
  cases hread with
  | none => exact .unmatched terms
  | some h => exact .parsed h.1 h.2 terms

theorem term_agree : Agree Same Eq term term := by
  intro text text' terms htext
  rw [term, term]
  split
  · exact .parsed rfl htext _
  · exact .tooLarge

theorem Agree.optional {R : α → α → Prop} {p q : Parser α} (hp : Agree Same R p q) :
    Agree Same (Option.Rel R) p.optional q.optional := by
  refine Agree.orElse ?_ (agree_pure .none)
  exact hp.bind fun a b h => agree_pure (.some h)

/-- Where the steps agree, so do the repetitions. -/
theorem repeatStep_agree {R : α → α → Prop} {step step' : α → Parser (Option α)}
    (hstep : ∀ a b, R a b → Agree Same (Option.Rel R) (step a) (step' b)) (bound : Nat) {a b : α}
    (h : R a b) : Agree Same R (repeatStep step bound a) (repeatStep step' bound b) := by
  induction bound generalizing a b with
  | zero =>
    refine (hstep a b h).bind fun next next' hnext => ?_
    cases hnext with
    | none => exact agree_pure h
    | some _ => exact agree_tooLarge
  | succ bound ih =>
    -- The values that the two repetitions have come to stay related.
    refine (hstep a b h).bind fun next next' hnext => ?_
    cases hnext with
    | none => exact agree_pure h
    | some h' => exact ih h'

end Parser

/-! ## Phrases -/

variable {f : String → String} {lexicon lexicon' : Lexicon}

/-- After the separators, the longest names that stand in texts that are the same in some sense are
equally long and differ only in what the change `f` drops. -/
def NamesAgree (Same : List Char → List Char → Prop) (f : String → String)
    (names names' : List (List Char)) : Prop :=
  ∀ text text', Same text text' →
    longestName names (skipSeparators text) = longestName names' (skipSeparators text') ∧
      ∀ n, longestName names (skipSeparators text) = some n →
        Scanner.AgreeAt Same (fun a b => f a = f b) (skipSeparators text) (skipSeparators text')
          (nameOfLength n) (nameOfLength n)

theorem NamesAgree.nameAmong {names names' : List (List Char)}
    (h : NamesAgree Same f names names') :
    Scanner.Agree Same (fun a b => f a = f b) (nameAmong names) (nameAmong names') := by
  intro text text' htext
  obtain ⟨hlength, hname⟩ := h text text' htext
  rw [nameAmong_apply, nameAmong_apply, ← hlength]
  cases hn : longestName names (skipSeparators text) with
  | none => exact .none
  | some n => exact hname n hn

/-- With these two lexicons, all tokens agree that the grammar looks for in texts that are the same
in some sense, and so do the names. -/
structure TokensAgree (Same : List Char → List Char → Prop) (f : String → String)
    (lexicon lexicon' : Lexicon) : Prop where
  /-- The texts end together. -/
  ended : ∀ text text', Same text text' → (skipSeparators text = [] ↔ skipSeparators text' = [])
  /-- Every keyword ends with a letter. -/
  keyword : ∀ word : String, word.toList.getLast?.any Char.isAlpha = true →
    Scanner.Agree Same Eq (keyword word) (keyword word)
  sign : ∀ c : Char, c.isAlpha = false → Scanner.Agree Same Eq (sign c) (sign c)
  dieLetter : Scanner.Agree Same Eq dieLetter dieLetter
  integer : Scanner.Agree Same Eq integer integer
  namedDice : NamesAgree Same f lexicon.namedDice lexicon'.namedDice
  weapons : NamesAgree Same f lexicon.weapons lexicon'.weapons
  spells : NamesAgree Same f lexicon.spells lexicon'.spells

namespace TokensAgree

variable (h : TokensAgree Same f lexicon lexicon')

section Damage

open Scanner

include h

theorem ordinal : Agree Same Eq ordinal ordinal :=
  (h.keyword "st" (by decide)).orElse <| (h.keyword "nd" (by decide)).orElse <|
    (h.keyword "rd" (by decide)).orElse (h.keyword "th" (by decide))

theorem ordinalLevel : Agree Same Eq ordinalLevel ordinalLevel :=
  h.integer.bind_eq fun _ => h.ordinal.bind_eq fun _ => (h.keyword _ (by decide)).bind_eq fun _ =>
    agree_pure rfl

theorem numberedLevel : Agree Same Eq numberedLevel numberedLevel :=
  (h.keyword _ (by decide)).bind_eq fun _ => h.integer

theorem levelAfter : Agree Same Eq levelAfter levelAfter := by
  refine Agree.orElse ?_ ?_
  · exact (h.keyword _ (by decide)).bind_eq fun _ => h.numberedLevel
  · exact (h.keyword _ (by decide)).optional.bind_eq fun _ => h.ordinalLevel

theorem namedDie : Agree Same (Expr.SameUpTo f) (namedDie lexicon) (namedDie lexicon') :=
  h.namedDice.nameAmong.bind fun _ _ hname => agree_pure (congrArg Expr.namedDie hname)

theorem levelledSpell :
    Agree Same (Expr.SameUpTo f) (levelledSpell lexicon) (levelledSpell lexicon') := by
  have hlevel : Agree Same Eq levelBefore levelBefore := h.numberedLevel.orElse h.ordinalLevel
  refine hlevel.bind_eq fun level => h.spells.nameAmong.bind fun _ _ hname => agree_pure ?_
  exact congrArg (fun name => Expr.spellAt name (.integer level)) hname

/-- The names that are found agree, whichever of them is taken, and so do levels after a spell. -/
theorem namedDamage :
    Agree Same (Expr.SameUpTo f) (namedDamage lexicon) (namedDamage lexicon') := by
  intro text text' htext
  obtain ⟨hweapons, hweapon⟩ := h.weapons text text' htext
  obtain ⟨hspells, hspell⟩ := h.spells text text' htext
  rw [namedDamage_apply, namedDamage_apply, ← hweapons, ← hspells]
  refine damageOfLengths_cases (p := fun s => AgreeAt Same (Expr.SameUpTo f) (skipSeparators text)
    (skipSeparators text') s s) .none (fun w hw => ?_) fun s hs => ?_
  · exact (hweapon w hw).bind fun _ _ hname => agree_pure (congrArg Expr.weapon hname)
  · refine (hspell s hs).bind fun name name' hname => h.levelAfter.optional.bind_eq fun level => ?_
    cases level with
    | none => exact agree_pure (congrArg Expr.spell hname)
    | some level =>
      exact agree_pure (congrArg (fun name => Expr.spellAt name (.integer level)) hname)

theorem damage : Agree Same (Expr.SameUpTo f) (damage lexicon) (damage lexicon') :=
  h.levelledSpell.orElse h.namedDamage

theorem criticalHit :
    Agree Same (Expr.SameUpTo f) (criticalHit lexicon) (criticalHit lexicon') :=
  (h.keyword _ (by decide)).bind_eq fun _ => (h.keyword _ (by decide)).optional.bind_eq fun _ =>
    (h.keyword _ (by decide)).optional.bind_eq fun _ =>
      (h.keyword _ (by decide)).optional.bind_eq fun _ =>
        (h.keyword _ (by decide)).optional.bind_eq fun _ =>
          h.damage.bind fun _ _ he => agree_pure (congrArg Expr.critical he)

theorem damageGroup :
    Agree Same (Expr.SameUpTo f) (damageGroup lexicon) (damageGroup lexicon') :=
  h.damage.bind fun _ _ he => agree_pure (congrArg Expr.group he)

theorem number : Agree Same (Expr.SameUpTo f) number number :=
  h.integer.bind_eq fun _ => agree_pure rfl

theorem sidedDie : Agree Same Eq sidedDie sidedDie :=
  (h.keyword _ (by decide)).bind_eq fun _ =>
    (h.keyword _ (by decide)).orElse (h.keyword _ (by decide))

theorem dicePhrase {e e' : Expr} (he : e.SameUpTo f e') :
    Agree Same (Expr.SameUpTo f) (dicePhrase e) (dicePhrase e') := by
  have hwith := h.keyword "with" (by decide)
  refine Agree.orElse ?_ ?_
  · exact hwith.bind_eq fun _ => (h.keyword _ (by decide)).bind_eq fun _ =>
      agree_pure (congrArg Expr.advantage he)
  · exact hwith.bind_eq fun _ => (h.keyword _ (by decide)).bind_eq fun _ =>
      agree_pure (congrArg Expr.disadvantage he)

theorem productSign : Agree Same Eq productSign productSign := by
  have hmul : Agree Same Eq (pure BinaryOp.mul) (pure BinaryOp.mul) := agree_pure rfl
  have hmultiplied := h.keyword "multiplied" (by decide)
  refine Agree.orElse ?_ (.orElse ?_ (.orElse ?_ ?_))
  · exact (h.sign _ (by decide)).bind_eq fun _ => hmul
  · exact (h.keyword _ (by decide)).bind_eq fun _ => hmul
  · exact hmultiplied.bind_eq fun _ => (h.keyword _ (by decide)).bind_eq fun _ => hmul
  · exact hmultiplied.bind_eq fun _ => (h.keyword _ (by decide)).bind_eq fun _ => hmul

theorem additiveSign : Agree Same Eq additiveSign additiveSign := by
  refine Agree.orElse ?_ (.orElse ?_ (.orElse ?_ ?_))
  · exact (h.sign _ (by decide)).bind_eq fun _ => agree_pure rfl
  · exact (h.keyword _ (by decide)).bind_eq fun _ => agree_pure rfl
  · exact (h.sign _ (by decide)).bind_eq fun _ => agree_pure rfl
  · exact (h.keyword _ (by decide)).bind_eq fun _ => agree_pure rfl

end Damage

section Phrases

open SpokenDice.Request.Parser

/-- What is read one level deeper agrees, up to names. -/
structure NestedAgree (Same : List Char → List Char → Prop) (f : String → String)
    (nested nested' : Nested) : Prop where
  sum : Agree Same (Expr.SameUpTo f) nested.sum nested'.sum
  sides : Agree Same (Expr.SameUpTo f) nested.sides nested'.sides

variable {nested nested' : Nested} (hnested : NestedAgree Same f nested nested')

/-- A lone die with the sides that are read. -/
theorem loneDie {p p' : Parser Expr} (hp : Agree Same (Expr.SameUpTo f) p p') :
    Agree Same (Expr.SameUpTo f) (do let sides ← p; pure (.rollOne sides))
      (do let sides ← p'; pure (.rollOne sides)) :=
  hp.bind fun _ _ hs => agree_pure (congrArg Expr.rollOne hs)

include h hnested

theorem primary :
    Agree Same (Expr.SameUpTo f) (primary lexicon nested) (primary lexicon' nested') := by
  have hparentheses : Agree Same (Expr.SameUpTo f) (parenthesized nested)
      (parenthesized nested') :=
    (agree_ofScanner (h.sign _ (by decide))).bind_eq fun _ => hnested.sum.bind fun _ _ he =>
      (agree_ofScanner (h.sign _ (by decide))).bind_eq fun _ =>
        agree_pure (congrArg Expr.group he)
  exact hparentheses.orElse <| (agree_ofScanner h.criticalHit).orElse <|
    (agree_ofScanner h.damageGroup).orElse (agree_ofScanner h.number)

theorem lettered : Agree Same (Expr.SameUpTo f)
    (do ofScanner Request.dieLetter; nested.sides)
    (do ofScanner Request.dieLetter; nested'.sides) :=
  (agree_ofScanner h.dieLetter).bind_eq fun _ => hnested.sides

theorem letteredDie : Agree Same (Expr.SameUpTo f)
    (do ofScanner Request.dieLetter; let sides ← nested.sides; pure (.rollOne sides))
    (do ofScanner Request.dieLetter; let sides ← nested'.sides; pure (.rollOne sides)) :=
  (agree_ofScanner h.dieLetter).bind_eq fun _ => loneDie hnested.sides

theorem sides : Agree Same (Expr.SameUpTo f) (sides lexicon nested) (sides lexicon' nested') :=
  (loneDie (agree_ofScanner h.namedDie)).orElse <| (h.primary hnested).orElse <|
    h.letteredDie hnested

theorem die : Agree Same (Expr.SameUpTo f) (die lexicon nested) (die lexicon' nested') := by
  refine (agree_ofScanner h.namedDie).orElse (.orElse ?_ (h.lettered hnested))
  exact (h.primary hnested).bind fun _ _ hs => (agree_ofScanner h.sidedDie).bind_eq fun _ =>
    agree_pure hs

theorem head : Agree Same (Expr.SameUpTo f) (head lexicon nested) (head lexicon' nested') := by
  refine (loneDie (agree_ofScanner h.namedDie)).orElse (.orElse ?_ (h.letteredDie hnested))
  refine (h.primary hnested).bind fun e e' he => ?_
  refine (agree_ofScanner h.sidedDie).optional.bind fun sided sided' hsided => ?_
  cases hsided with
  | none => exact agree_pure he
  | some _ => exact agree_pure (congrArg Expr.rollOne he)

theorem continuation {e e' : Expr} (he : e.SameUpTo f e') :
    Agree Same (Option.Rel (Expr.SameUpTo f)) (continuation lexicon nested e)
      (continuation lexicon' nested' e') := by
  have hdice : e'.isDice = e.isDice := by
    rw [← Expr.isDice_mapNames f e', ← he, Expr.isDice_mapNames]
  refine Agree.orElse ?_ ?_
  · refine (h.die hnested).bind fun s s' hs => term_agree.bind_eq fun _ => agree_pure (.some ?_)
    show Expr.roll (e.mapNames f) (s.mapNames f) = .roll (e'.mapNames f) (s'.mapNames f)
    rw [he, hs]
  · rw [hdice]
    split
    · exact (agree_ofScanner (h.dicePhrase he)).optional
    · exact agree_pure .none

theorem value : Agree Same (Expr.SameUpTo f) (value lexicon nested) (value lexicon' nested') :=
  term_agree.bind_eq fun _ => (h.head hnested).bind fun _ _ he =>
    repeatStep_agree (fun _ _ => h.continuation hnested) maxChain he

omit h hnested in
theorem chain {operand operand' : Parser Expr} {operator : Scanner BinaryOp}
    (hoperand : Agree Same (Expr.SameUpTo f) operand operand')
    (hoperator : Scanner.Agree Same Eq operator operator) :
    Agree Same (Expr.SameUpTo f) (chain operand operator) (chain operand' operator) := by
  refine hoperand.bind fun _ _ hfirst => repeatStep_agree (fun l l' hl => ?_) maxChain hfirst
  refine (agree_ofScanner hoperator).optional.bind fun sign sign' hsign => ?_
  cases hsign with
  | none => exact agree_pure .none
  | @some op op' hop =>
    obtain rfl : op = op' := hop
    refine hoperand.bind fun r r' hr => agree_pure (.some ?_)
    show Expr.binary op (l.mapNames f) (r.mapNames f) = .binary op (l'.mapNames f) (r'.mapNames f)
    rw [hl, hr]

theorem sum : Agree Same (Expr.SameUpTo f) (sum lexicon nested) (sum lexicon' nested') :=
  chain (chain (h.value hnested) h.productSign) h.additiveSign

omit hnested in
theorem nestedWithin (levels : Nat) :
    NestedAgree Same f (nestedWithin lexicon levels) (nestedWithin lexicon' levels) := by
  induction levels with
  | zero => exact ⟨agree_tooLarge, agree_tooLarge⟩
  | succ levels ih => exact ⟨h.sum ih, h.sides ih⟩

end Phrases

include h

/-- Texts in which the tokens agree give the same tree up to names, or none for the same cause. -/
theorem mapNames_readOr {text text' : String} (htext : Same text.toList text'.toList)
    (otherwise : RollError) :
    (readOr otherwise lexicon text).map (Expr.mapNames f) =
      (readOr otherwise lexicon' text').map (Expr.mapNames f) := by
  have hreading : (readingOf lexicon text.toList).Agree Same (Expr.SameUpTo f)
      (readingOf lexicon' text'.toList) := h.sum (h.nestedWithin maxNesting) _ _ 0 htext
  rw [readOr, readOr]
  revert hreading
  generalize readingOf lexicon text.toList = reading
  generalize readingOf lexicon' text'.toList = reading'
  intro hreading
  cases hreading with
  | unmatched terms => rfl
  | tooLarge => rfl
  | @parsed e e' rest rest' he hrest terms =>
    -- The readings end together: what is left of one text is nothing where the other's is.
    have hend := h.ended rest rest' hrest
    show Except.map _ (if skipSeparators rest = [] then _ else _) =
      Except.map _ (if skipSeparators rest' = [] then _ else _)
    by_cases hnil : skipSeparators rest = []
    · rw [if_pos hnil, if_pos (hend.mp hnil)]
      exact congrArg Except.ok he
    · rw [if_neg hnil, if_neg fun hnil' => hnil (hend.mpr hnil')]

end TokensAgree

/-! ## Texts that are read in step -/

/-- With these two lexicons, texts that are the same in some sense are read in step: their tokens
are the same, as long are the names that stand in them, and such names differ only in what the
change `f` drops. -/
structure InStep (Same : List Char → List Char → Prop) (f : String → String)
    (lexicon lexicon' : Lexicon) : Prop where
  /-- No text is the same as one that holds something. -/
  nil : ∀ text text', Same text text' → (text = [] ↔ text' = [])
  /-- After the separators the texts are still the same. -/
  skip : ∀ text text', Same text text' → Same (skipSeparators text) (skipSeparators text')
  keyword : ∀ word, Scanner.Agree Same Eq (keyword word) (keyword word)
  sign : ∀ c : Char, c.isAlpha = false → Scanner.Agree Same Eq (sign c) (sign c)
  dieLetter : Scanner.Agree Same Eq dieLetter dieLetter
  integer : Scanner.Agree Same Eq integer integer
  name : ∀ n, Scanner.Agree Same (fun a b => f a = f b) (nameOfLength n) (nameOfLength n)
  namedDice : ∀ text text', Same text text' →
    longestName lexicon.namedDice text = longestName lexicon'.namedDice text'
  weapons : ∀ text text', Same text text' →
    longestName lexicon.weapons text = longestName lexicon'.weapons text'
  spells : ∀ text text', Same text text' →
    longestName lexicon.spells text = longestName lexicon'.spells text'

namespace InStep

variable (h : InStep Same f lexicon lexicon')

include h

theorem namesAgree {names names' : List (List Char)}
    (hnames : ∀ text text', Same text text' → longestName names text = longestName names' text') :
    NamesAgree Same f names names' := by
  intro text text' htext
  have hskip := h.skip text text' htext
  exact ⟨hnames _ _ hskip, fun n _ => h.name n _ _ hskip⟩

/-- Where the texts are read in step, the tokens of the grammar agree. -/
theorem tokensAgree : TokensAgree Same f lexicon lexicon' where
  ended text text' htext := h.nil _ _ (h.skip text text' htext)
  keyword word _ := h.keyword word
  sign := h.sign
  dieLetter := h.dieLetter
  integer := h.integer
  namedDice := h.namesAgree h.namedDice
  weapons := h.namesAgree h.weapons
  spells := h.namesAgree h.spells

/-- Texts that are read in step give the same tree up to names, or none for the same cause. -/
theorem mapNames_readOr {text text' : String} (htext : Same text.toList text'.toList)
    (otherwise : RollError) :
    (readOr otherwise lexicon text).map (Expr.mapNames f) =
      (readOr otherwise lexicon' text').map (Expr.mapNames f) :=
  h.tokensAgree.mapNames_readOr htext otherwise

end InStep

end SpokenDice.Request
