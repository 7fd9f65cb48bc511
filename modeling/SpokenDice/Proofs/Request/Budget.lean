import SpokenDice.Proofs.Request.Openings
import SpokenDice.Proofs.Request.Postconditions

/-!
# What a request may cost

A request that is short and does not open too much is never too large. Every term that is counted
on the way to a tree is paid for with a character of the text, and each level that is entered with
an opening. What is counted on a way that is given up is not paid for, but then the reading stands
before the opening of a group or of a side count again, where nothing else matches: so no group is
read twice, and no more terms are counted.

- `Reading.Settles`: a reading is not too large, and what holds of it if it matches or not. There
  is one rule for each combinator.
- `Operand` and `Closed`: what the parsers of operands, and of values and side counts, may cost.
- `nestedWithin_frugal`: what is read one level deeper keeps to that.
- `read_of_short`: a short request is a tree or not understood.
-/

namespace SpokenDice.Request

variable {α β : Type}

/-! ## Readings that settle -/

/-- The reading is not too large. If something is parsed it has the first property, and if nothing
matches the terms have the second one. -/
def Reading.Settles (P : α → List Char → Nat → Prop) (U : Nat → Prop) : Reading α → Prop
  | .parsed a rest terms => P a rest terms
  | .unmatched terms => U terms
  | .tooLarge => False

namespace Reading.Settles

variable {P : β → List Char → Nat → Prop} {Q : α → List Char → Nat → Prop} {U V : Nat → Prop}
variable {text : List Char} {terms : Nat}

theorem mono {Q' : α → List Char → Nat → Prop} {reading : Reading α} (h : reading.Settles Q V)
    (hQ : ∀ a rest terms, Q a rest terms → Q' a rest terms) (hV : ∀ terms, V terms → U terms) :
    reading.Settles Q' U :=
  Holds.mono (L := False) h hQ hV

theorem bind {p : Parser α} {next : α → Parser β} (hp : (p text terms).Settles Q V)
    (hparsed : ∀ a rest terms, Q a rest terms → (next a rest terms).Settles P U)
    (hunmatched : ∀ terms, V terms → U terms) : ((p >>= next) text terms).Settles P U :=
  Holds.bind (L := False) hp hparsed hunmatched

theorem orElse {p q : Parser α} (hp : (p text terms).Settles Q V)
    (hq : ∀ terms, V terms → (q text terms).Settles Q U) :
    ((p <|> q) text terms).Settles Q U :=
  Holds.orElse (L := False) hp hq

/-- What is parsed is only given another form. -/
theorem map {R : List Char → Nat → Prop} {p : Parser α}
    (hp : (p text terms).Settles (fun _ => R) U) (f : α → β) :
    ((do let a ← p; pure (f a)) text terms).Settles (fun _ => R) U :=
  hp.bind (fun _ _ _ h => h) fun _ => id

/-- A scanner counts no terms. -/
theorem scan {s : Scanner α} (hsome : ∀ a rest, s text = some (a, rest) → Q a rest terms)
    (hnone : U terms) : (Parser.ofScanner s text terms).Settles Q U :=
  Holds.scan (L := False) hsome hnone

theorem scan_bind {s : Scanner α} {next : α → Parser β}
    (hsome : ∀ a rest, s text = some (a, rest) → (next a rest terms).Settles P U)
    (hnone : U terms) : ((Parser.ofScanner s >>= next) text terms).Settles P U :=
  Holds.scan_bind (L := False) hsome hnone

theorem optional_scan_bind {s : Scanner α} {next : Option α → Parser β}
    (hsome : ∀ a rest, s text = some (a, rest) → (next (some a) rest terms).Settles P U)
    (hnone : (next none text terms).Settles P U) :
    (((Parser.ofScanner s).optional >>= next) text terms).Settles P U :=
  Holds.optional_scan_bind (L := False) hsome hnone

theorem term_bind {next : Unit → Parser β} (h : terms < maxTerms)
    (hnext : (next () text (terms + 1)).Settles P U) :
    ((Parser.term >>= next) text terms).Settles P U :=
  Holds.term_bind (L := False) (Nat.not_le_of_lt h) fun _ => hnext

/-- A repetition ends when each step leaves less of the text. What holds before each step is the
invariant, and when no step goes on, the postcondition of the last one holds. -/
theorem repeatStep {step : α → Parser (Option α)} {I R : List Char → Nat → Prop}
    (hstep : ∀ a text terms, I text terms → (step a text terms).Settles
      (fun next rest terms => next.elim (R rest terms) fun _ =>
        rest.length < text.length ∧ I rest terms) U)
    {bound : Nat} (hbound : text.length ≤ bound) (h : I text terms) (a : α) :
    (Parser.repeatStep step bound a text terms).Settles (fun _ => R) U := by
  induction bound generalizing text terms a with
  | zero =>
    refine (hstep a text terms h).bind (fun next rest terms' hnext => ?_) fun _ => id
    cases next with
    | none => exact hnext
    | some b => exact absurd hnext.1 (by omega)
  | succ bound ih =>
    refine (hstep a text terms h).bind (fun next rest terms' hnext => ?_) fun _ => id
    cases next with
    | none => exact hnext
    | some b =>
      obtain ⟨hshorter, hnext⟩ := hnext
      exact ih (by omega) hnext b

end Reading.Settles

/-! ## Costs -/

/-- On the way from `text` to `rest` every term was paid for with a character. -/
structure Paid (text : List Char) (terms : Nat) (rest : List Char) (terms' : Nat) : Prop where
  suffix : rest <:+ text
  terms_le : terms' + rest.length ≤ terms + text.length

/-- Every term was paid for on the way; or `rest` goes on with an opening that came to nothing, and
the terms behind it could be paid for. -/
def Halted (text : List Char) (terms : Nat) (rest : List Char) (terms' : Nat) : Prop :=
  Paid text terms rest terms' ∨
    rest <:+ text ∧ Opens rest ∧ terms' ≤ terms + text.length

/-- Something was read of `text` and paid for, with a character to spare. Terms were only counted if
the text is of a kind. -/
structure Bought (At : List Char → Prop) (text : List Char) (terms : Nat) (rest : List Char)
    (terms' : Nat) : Prop where
  shorter : ShorterEnd text rest
  terms_lt : terms' + rest.length < terms + text.length
  counted : terms' = terms ∨ At text

/-- Nothing was read of `text`, but terms may have been counted if the text is of a kind, and could
be paid for. -/
structure Missed (At : List Char → Prop) (text : List Char) (terms terms' : Nat) : Prop where
  terms_le : terms' ≤ terms + text.length
  counted : terms' = terms ∨ At text

section Costs

variable {At At' : List Char → Prop} {text rest rest' : List Char} {terms terms' terms'' : Nat}

theorem Paid.refl (text : List Char) (terms : Nat) : Paid text terms text terms :=
  ⟨List.suffix_rfl, Nat.le_refl _⟩

theorem Paid.trans (h : Paid text terms rest terms') (h' : Paid rest terms' rest' terms'') :
    Paid text terms rest' terms'' :=
  ⟨h'.suffix.trans h.suffix, Nat.le_trans h'.terms_le h.terms_le⟩

theorem Paid.trans_halted (h : Paid text terms rest terms')
    (h' : Halted rest terms' rest' terms'') : Halted text terms rest' terms'' := by
  obtain hpaid | ⟨hsuffix, hopens, hterms⟩ := h'
  · exact .inl (h.trans hpaid)
  · exact .inr ⟨hsuffix.trans h.suffix, hopens, Nat.le_trans hterms h.terms_le⟩

theorem Halted.suffix (h : Halted text terms rest terms') : rest <:+ text := by
  obtain hpaid | ⟨hsuffix, -, -⟩ := h
  · exact hpaid.suffix
  · exact hsuffix

theorem Halted.terms_le (h : Halted text terms rest terms') : terms' ≤ terms + text.length := by
  obtain hpaid | ⟨-, -, hterms⟩ := h
  · exact Nat.le_trans (Nat.le_add_right ..) hpaid.terms_le
  · exact hterms

/-- What goes on behind no opening has been paid for. -/
theorem Halted.paid {s : Scanner α} {read : α × List Char} (h : Halted text terms rest terms')
    (hs : Opens rest → s rest = none) (hread : s rest = some read) :
    Paid text terms rest terms' := by
  obtain hpaid | ⟨-, hopens, -⟩ := h
  · exact hpaid
  · cases (hs hopens).symm.trans hread

theorem Bought.mono (h : Bought At text terms rest terms') (hAt : At text → At' text) :
    Bought At' text terms rest terms' :=
  ⟨h.shorter, h.terms_lt, h.counted.imp_right hAt⟩

theorem Bought.trans_suffix (h : Bought At text terms rest terms') (h' : rest' <:+ rest) :
    Bought At text terms rest' terms' :=
  ⟨h.shorter.trans_suffix h',
    Nat.lt_of_le_of_lt (Nat.add_le_add_left h'.length_le terms') h.terms_lt, h.counted⟩

theorem Bought.missed (h : Bought At text terms rest terms') : Missed At text terms terms' :=
  ⟨Nat.le_of_lt (Nat.lt_of_le_of_lt (Nat.le_add_right ..) h.terms_lt), h.counted⟩

theorem Missed.refl (At : List Char → Prop) (text : List Char) (terms : Nat) :
    Missed At text terms terms :=
  ⟨Nat.le_add_right .., .inl rfl⟩

theorem Missed.mono (h : Missed At text terms terms') (hAt : At text → At' text) :
    Missed At' text terms terms' :=
  ⟨h.terms_le, h.counted.imp_right hAt⟩

/-- Where something is read, no terms were counted in vain before. -/
theorem Missed.terms_eq {s : Scanner α} {read : α × List Char} (h : Missed At text terms terms')
    (hs : At text → s text = none) (hread : s text = some read) : terms' = terms := by
  refine h.counted.resolve_right fun hat => ?_
  cases (hs hat).symm.trans hread

end Costs

/-- A parser of operands: a text with fewer openings than levels, and with fewer characters than
there may be more terms, is not too large for it. -/
def Operand (levels : Nat) (p : Parser Expr) : Prop :=
  ∀ text terms, openings text < levels → terms + text.length < maxTerms →
    (p text terms).Settles (fun _ => Halted text terms) (· ≤ terms + text.length + 1)

/-- A parser of values or side counts: a text of at most as many characters as there may be more
terms is not too large for it. What it reads has a character to spare, and it counts terms only
where the text is of a kind. -/
def Closed (At : List Char → Prop) (levels : Nat) (p : Parser Expr) : Prop :=
  ∀ text terms, openings text < levels → terms + text.length ≤ maxTerms →
    (p text terms).Settles (fun _ => Bought At text terms) (Missed At text terms)

/-- What is read one level deeper keeps to its means. -/
structure Nested.Frugal (levels : Nat) (nested : Nested) : Prop where
  sum : Operand levels nested.sum
  sides : Closed Opens levels nested.sides

/-! ## Values -/

section Phrases

open Reading

variable {rules : Ruleset} {nested : Nested} {levels : Nat} {text : List Char} {terms terms' : Nat}

/-- A scanner pays for what it reads, as it counts nothing. -/
theorem scan_bought {s : Scanner Expr} (hs : Scanner.Consumes s) (At : List Char → Prop)
    (text : List Char) (terms : Nat) :
    (Parser.ofScanner s text terms).Settles (fun _ => Bought At text terms) (· = terms) := by
  refine Settles.scan (fun e rest h => ?_) rfl
  have hshorter := hs text e rest h
  exact ⟨hshorter, Nat.add_lt_add_left hshorter.length_lt terms, .inl rfl⟩

/-- Where terms were counted in vain, the scanner does not match. -/
theorem Missed.scan {s : Scanner Expr} {At : List Char → Prop} (h : Missed At text terms terms')
    (hs : Scanner.Consumes s) (hnone : At text → s text = none) :
    (Parser.ofScanner s text terms').Settles (fun _ => Bought At text terms)
      (Missed At text terms) := by
  refine Settles.scan (fun e rest hread => ?_) h
  obtain rfl := h.terms_eq hnone hread
  have hshorter := hs text e rest hread
  exact ⟨hshorter, Nat.add_lt_add_left hshorter.length_lt terms', .inl rfl⟩

section Nested

variable (hnested : nested.Frugal levels)

include hnested

/-- A group may be given up with its terms counted, but then the text stands at the group. -/
theorem parenthesized_closed : Closed AtGroup (levels + 1) (parenthesized nested) := by
  intro text terms hopenings hterms
  refine Settles.scan_bind (fun _ inner hopen => ?_) (.refl ..)
  have hskip := Scanner.skip_of_sign hopen
  have hshorter := Scanner.sign_consumes _ text _ inner hopen
  have hlength := hshorter.length_lt
  have hfewer : openings inner < openings text := openings_lt hskip (by decide)
  have hgroup : AtGroup text := ⟨inner, hskip⟩
  refine (hnested.sum inner terms (by omega) (by omega)).bind (fun e rest terms' hsum => ?_)
    fun terms' hsum => ⟨by omega, .inr hgroup⟩
  have hsumTerms := hsum.terms_le
  refine Settles.scan_bind (fun _ rest' hclose => ?_) ⟨by omega, .inr hgroup⟩
  -- The parenthesis is closed, so that the sum did not halt before an opening.
  have hpaid := hsum.paid (fun hopens => hopens.sign_eq_none (by decide)) hclose
  have hpaidTerms := hpaid.terms_le
  have hend := Scanner.sign_consumes _ rest _ rest' hclose
  have hendLength := hend.length_lt
  exact ⟨hshorter.trans_suffix (hend.suffix.trans hpaid.suffix), by omega, .inr hgroup⟩

/-- Behind a "d" a side count may be given up with its terms counted, but then the text stands at
the "d". -/
theorem lettered_settles (hopenings : openings text < levels + 1)
    (hterms : terms + text.length ≤ maxTerms) (hmissed : Missed AtGroup text terms terms') :
    ((do Parser.ofScanner dieLetter; nested.sides) text terms').Settles
      (fun _ => Bought Opens text terms) (Missed Opens text terms) := by
  refine Settles.scan_bind (fun _ inner hletter => ?_) (hmissed.mono AtGroup.opens)
  obtain rfl := hmissed.terms_eq AtGroup.dieLetter_eq_none hletter
  obtain ⟨c, hskip, hc⟩ := exists_opening_of_dieLetter hletter
  have hopens : Opens text := ⟨c, inner, hskip, hc⟩
  have hshorter := dieLetter_consumes text _ inner hletter
  have hlength := hshorter.length_lt
  have hfewer := openings_lt hskip hc
  refine (hnested.sides inner terms' (by omega) (by omega)).mono
    (fun e rest terms'' hbought => ?_) fun terms'' hmissed => ?_
  · have hterms'' := hbought.terms_lt
    exact ⟨hbought.shorter.of_suffix hshorter.suffix, by omega, .inr hopens⟩
  · have hterms'' := hmissed.terms_le
    exact ⟨by omega, .inr hopens⟩

theorem letteredDie_settles (hopenings : openings text < levels + 1)
    (hterms : terms + text.length ≤ maxTerms) (hmissed : Missed AtGroup text terms terms') :
    ((do
      Parser.ofScanner dieLetter
      let sides ← nested.sides
      pure (Expr.rollOne sides)) text terms').Settles
      (fun _ => Bought Opens text terms) (Missed Opens text terms) := by
  rw [← bind_assoc]
  exact (lettered_settles hnested hopenings hterms hmissed).map Expr.rollOne

variable (hrules : rules.Unparenthesized)

include hrules

theorem primary_closed : Closed AtGroup (levels + 1) (primary (.ofRuleset rules) nested) := by
  intro text terms hopenings hterms
  refine (parenthesized_closed hnested text terms hopenings hterms).orElse fun _ hgroup => ?_
  refine (hgroup.scan criticalHit_consumes fun h => h.criticalHit_eq_none _).orElse
    fun _ hcritical => ?_
  refine (hcritical.scan damageGroup_consumes fun h => h.damageGroup_eq_none hrules).orElse
    fun _ hdamage => ?_
  exact hdamage.scan number_consumes AtGroup.number_eq_none

theorem sides_closed : Closed Opens (levels + 1) (sides (.ofRuleset rules) nested) := by
  intro text terms hopenings hterms
  refine ((scan_bought namedDie_consumes Opens text terms).map Expr.rollOne).orElse ?_
  rintro _ rfl
  have hprimary := primary_closed hnested hrules text _ hopenings hterms
  refine (hprimary.mono (fun _ _ _ h => h.mono AtGroup.opens) fun _ => id).orElse
    fun _ hmissed => ?_
  exact letteredDie_settles hnested hopenings hterms hmissed

theorem die_closed : Closed Opens (levels + 1) (die (.ofRuleset rules) nested) := by
  intro text terms hopenings hterms
  refine (scan_bought namedDie_consumes Opens text terms).orElse ?_
  rintro _ rfl
  have hprimary := primary_closed hnested hrules text _ hopenings hterms
  refine (hprimary.bind (fun e rest terms' hbought => ?_) fun _ => id).orElse fun _ hmissed => ?_
  · refine Settles.scan_bind (fun _ rest' hsided => ?_) hbought.missed
    exact (hbought.mono AtGroup.opens).trans_suffix (sidedDie_consumes rest _ rest' hsided).suffix
  · exact lettered_settles hnested hopenings hterms hmissed

theorem head_closed : Closed Opens (levels + 1) (head (.ofRuleset rules) nested) := by
  intro text terms hopenings hterms
  refine ((scan_bought namedDie_consumes Opens text terms).map Expr.rollOne).orElse ?_
  rintro _ rfl
  have hprimary := primary_closed hnested hrules text _ hopenings hterms
  refine (hprimary.bind (fun e rest terms' hbought => ?_) fun _ => id).orElse fun _ hmissed => ?_
  · have hopens := hbought.mono AtGroup.opens
    refine Settles.optional_scan_bind (fun _ rest' hsided => ?_) hopens
    exact hopens.trans_suffix (sidedDie_consumes rest _ rest' hsided).suffix
  · exact letteredDie_settles hnested hopenings hterms hmissed

/-- A value goes on with a die that is paid for or with a phrase; or it ends, perhaps before an
opening. -/
theorem continuation_settles (e : Expr) (hopenings : openings text < levels + 1)
    (hterms : terms + text.length < maxTerms) {U : Nat → Prop} :
    (continuation (.ofRuleset rules) nested e text terms).Settles
      (fun next rest terms' => next.elim (Halted text terms rest terms') fun _ =>
        rest.length < text.length ∧ Paid text terms rest terms') U := by
  have hdie := die_closed hnested hrules text terms hopenings (Nat.le_of_lt hterms)
  refine (hdie.bind (fun sides rest terms' hbought => ?_) fun _ => id).orElse
    fun terms' hmissed => ?_
  · have hshorter := hbought.shorter
    have hterms' := hbought.terms_lt
    exact Settles.term_bind (by omega) ⟨hshorter.length_lt, hshorter.suffix, by omega⟩
  · have hhalted : Halted text terms text terms' := by
      rcases hmissed.counted with rfl | hopens
      · exact .inl (.refl ..)
      · exact .inr ⟨List.suffix_rfl, hopens, hmissed.terms_le⟩
    split
    · rw [← bind_pure (Parser.optional _)]
      refine Settles.optional_scan_bind (fun e rest hphrase => ?_) hhalted
      -- A phrase does not stand at an opening, so that no terms were counted in vain.
      have hterms' := (hhalted.paid (fun hopens => hopens.dicePhrase_eq_none _) hphrase).terms_le
      have hshorter := dicePhrase_consumes _ text e rest hphrase
      have hlength := hshorter.length_lt
      exact ⟨hlength, hshorter.suffix, by omega⟩
    · exact hhalted

theorem value_operand : Operand (levels + 1) (value (.ofRuleset rules) nested) := by
  intro text terms hopenings hterms
  refine Settles.term_bind (by omega) ?_
  have hhead := head_closed hnested hrules text (terms + 1) hopenings (by omega)
  refine hhead.bind (fun e rest terms' hbought => ?_) fun terms' hmissed => ?_
  · have hterms' := hbought.terms_lt
    have hpaid : Paid text terms rest terms' := ⟨hbought.shorter.suffix, by omega⟩
    have hlength := hpaid.suffix.length_le
    have hbound : maxTerms ≤ maxChain := by decide
    refine Settles.repeatStep (I := Paid text terms) (fun e rest terms' hpaid => ?_) (by omega)
      hpaid e
    have hrest := openings_le hpaid.suffix
    have hpaidTerms := hpaid.terms_le
    refine (continuation_settles hnested hrules e (by omega) (by omega)).mono
      (fun next rest' terms'' hnext => ?_) fun _ => id
    cases next with
    | none => exact hpaid.trans_halted hnext
    | some _ => exact ⟨hnext.1, hpaid.trans hnext.2⟩
  · have hterms' := hmissed.terms_le
    omega

end Nested

/-! ## Sums and products -/

/-- A chain goes on behind a sign, which pays for the term of the operand. Where the operand before
halted at an opening, there is no sign. -/
theorem link_settles {operand : Parser Expr} {operator : Scanner BinaryOp}
    (hoperand : Operand levels operand) (hoperator : Scanner.Consumes operator)
    (hnone : ∀ text, Opens text → operator text = none) (left : Expr)
    (hopenings : openings text < levels) (hterms : terms + text.length < maxTerms)
    {rest : List Char} (hhalted : Halted text terms rest terms') :
    (link operand operator left rest terms').Settles
      (fun next rest' terms'' => next.elim (Halted text terms rest' terms'') fun _ =>
        rest'.length < rest.length ∧ Halted text terms rest' terms'')
      (· ≤ terms + text.length + 1) := by
  refine Settles.optional_scan_bind (fun op behind hsign => ?_) hhalted
  have hpaid := hhalted.paid (hnone rest) hsign
  have hshorter := hoperator rest op behind hsign
  have hpaidTerms := hpaid.terms_le
  have hlength := hshorter.length_lt
  have hbehind : Paid text terms behind terms' :=
    ⟨hshorter.suffix.trans hpaid.suffix, by omega⟩
  have hfewer := openings_le hbehind.suffix
  refine (hoperand behind terms' (by omega) (by omega)).bind
    (fun right rest' terms'' hright => ?_) fun terms'' hright => by omega
  have hright' := hright.suffix.length_le
  exact ⟨by omega, hbehind.trans_halted hright⟩

/-- A chain of operands costs no more than its operands, as its signs are paid for. -/
theorem chain_operand {operand : Parser Expr} {operator : Scanner BinaryOp}
    (hoperand : Operand levels operand) (hoperator : Scanner.Consumes operator)
    (hnone : ∀ text, Opens text → operator text = none) :
    Operand levels (chain operand operator) := by
  intro text terms hopenings hterms
  refine (hoperand text terms hopenings hterms).bind (fun first rest terms' hfirst => ?_)
    fun _ => id
  have hlength := hfirst.suffix.length_le
  have hbound : maxTerms ≤ maxChain := by decide
  exact Settles.repeatStep
    (fun left rest terms' => link_settles hoperand hoperator hnone left hopenings hterms)
    (by omega) hfirst first

variable (hrules : rules.Unparenthesized)

include hrules

theorem sum_operand (hnested : nested.Frugal levels) :
    Operand (levels + 1) (sum (.ofRuleset rules) nested) := by
  have hproduct : Operand (levels + 1) (product (.ofRuleset rules) nested) :=
    chain_operand (value_operand hnested hrules) productSign_consumes
      fun _ hopens => hopens.productSign_eq_none
  exact chain_operand hproduct additiveSign_consumes fun _ hopens => hopens.additiveSign_eq_none

/-- As each level is entered with an opening, the levels do not run out before the openings. -/
theorem nestedWithin_frugal (levels : Nat) :
    (nestedWithin (.ofRuleset rules) levels).Frugal levels := by
  induction levels with
  | zero =>
    exact ⟨fun _ _ hopenings => absurd hopenings (Nat.not_lt_zero _),
      fun _ _ hopenings => absurd hopenings (Nat.not_lt_zero _)⟩
  | succ levels ih => exact ⟨sum_operand hrules ih, sides_closed ih hrules⟩

end Phrases

/-! ## Whole requests -/

/-- No text has more characters than bytes. -/
theorem length_le_utf8ByteSize (text : String) : text.toList.length ≤ text.utf8ByteSize := by
  rw [← String.utf8Len_toList]
  induction text.toList with
  | nil => exact Nat.le_refl 0
  | cons c rest ih =>
    have hsize := Char.utf8Size_pos c
    rw [List.length_cons, String.utf8Len_cons]
    omega

/-- A text whose reading settles is read as a tree, or fails as told. -/
theorem readOr_of_settles {lexicon : Lexicon} {text : String}
    {P : Expr → List Char → Nat → Prop} {U : Nat → Prop}
    (h : (readingOf lexicon text.toList).Settles P U) (otherwise : RollError) :
    (∃ e, readOr otherwise lexicon text = .ok e) ∨
      readOr otherwise lexicon text = .error otherwise := by
  rw [readOr]
  cases hreading : readingOf lexicon text.toList with
  | parsed e rest terms =>
    by_cases hrest : skipSeparators rest = []
    · exact .inl ⟨e, if_pos hrest⟩
    · exact .inr (if_neg hrest)
  | unmatched terms => exact .inr rfl
  | tooLarge =>
    rw [hreading] at h
    exact h.elim

/-- Where no name begins with a parenthesis, a text of fewer than 1000 bytes with at most 100
openings is never too large for a request, whatever stands in it: it is read as a tree, or it is not
understood. -/
theorem read_of_short {rules : Ruleset} (hrules : rules.Unparenthesized) {text : String}
    (hsize : text.utf8ByteSize < 1000) (hopenings : openings text.toList ≤ 100) :
    (∃ e, read (.ofRuleset rules) text = .ok e) ∨
      read (.ofRuleset rules) text = .error .notUnderstood := by
  have hlength := length_le_utf8ByteSize text
  have hterms : 0 + text.toList.length < maxTerms := by
    rw [maxTerms]
    omega
  have hsettles : (readingOf (.ofRuleset rules) text.toList).Settles _ _ :=
    sum_operand hrules (nestedWithin_frugal hrules maxNesting) text.toList 0
      (Nat.lt_succ_of_le hopenings) hterms
  exact readOr_of_settles hsettles .notUnderstood

/-- Groups that are tried as side counts and never closed. -/
theorem read_of_short_unclosed_groups :
    read (.ofRuleset hailRules) "2(2d(2(2d(2" = .error .notUnderstood := by
  have hrules : hailRules.Unparenthesized := by decide
  have hsize : "2(2d(2(2d(2".utf8ByteSize < 1000 := by decide
  have hopenings : openings "2(2d(2(2d(2".toList ≤ 100 := by decide
  have hnone : (read (.ofRuleset hailRules) "2(2d(2(2d(2").toOption = none := by decide +kernel
  rcases read_of_short hrules hsize hopenings with ⟨e, he⟩ | hread
  · rw [he] at hnone
    cases hnone
  · exact hread

end SpokenDice.Request
