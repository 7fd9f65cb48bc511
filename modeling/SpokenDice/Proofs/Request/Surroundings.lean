import SpokenDice.Proofs.Request.Closing

/-!
# Requests inside requests

A text that is read by itself is read in the same way inside a larger request: before a closing
parenthesis, after terms that were counted before, and with fewer levels left to enter, as long as
neither terms nor levels run out. Only a group that is not closed in the text may be closed by the
parenthesis behind it. But then the reading of the text alone stops before an opening, and no sum
that uses up its text does.

- `Surroundings`: what stands behind a text, and what was counted before it.
- `Surroundings.Continues`: what the reading inside the surroundings is, given the reading of the
  text alone; there is one rule for each combinator.
- `nestedWithin_nests`: what is read one level deeper continues in the same way.
- `keeps_of_sum`: a sum that uses up its text is read in its surroundings as well.
-/

namespace SpokenDice.Request

open Scanner (Leaves)

variable {α β : Type}

/-- What surrounds a text that is read. -/
structure Surroundings where
  /-- What stands behind the text. -/
  behind : List Char
  closes : Closes behind
  /-- How many terms were met before the text. -/
  before : Nat
  /-- Whether the request may be too large in these surroundings once so many terms were met in the
  text. -/
  Lost : Nat → Prop
  lost_of_lt : ∀ {terms}, maxTerms < terms + before → Lost terms
  lost_mono : ∀ {terms terms'}, terms ≤ terms' → Lost terms → Lost terms'

namespace Surroundings

open SpokenDice.Request.Parser

variable (around : Surroundings)

/-- After so many terms in the text the reading is this one, or it is given up. -/
def Keeps (terms : Nat) (reading expected : Reading α) : Prop :=
  terms + around.before ≤ maxTerms ∧ reading = expected ∨
    around.Lost terms ∧ reading = .tooLarge

/-- Inside the surroundings the second parser reads what the first one reads of the text alone. This
need not be so where the reading of the text is parsed or unmatched in the ways of `E` and `U`, or
too large. -/
structure Continues (E : α → List Char → Prop) (U : List Char → Prop) (p p' : Parser α) :
    Prop where
  counts : p.Pays fun _ _ => True
  reading : ∀ text terms, terms + around.before ≤ maxTerms → (p text terms).Holds
    (fun a rest terms' => E a rest ∨
      around.Keeps terms' (p' (text ++ around.behind) (terms + around.before))
        (.parsed a (rest ++ around.behind) (terms' + around.before)))
    (fun terms' => U text ∨
      around.Keeps terms' (p' (text ++ around.behind) (terms + around.before))
        (.unmatched (terms' + around.before)))
    True

variable {around} {E : α → List Char → Prop} {F : β → List Char → Prop} {U V W : List Char → Prop}

/-- Once the request may be too large, it may be so at every later point. -/
theorem holds_lost {p : Parser α} (hp : p.Pays fun _ _ => True) {P : Prop} {text : List Char}
    {terms : Nat} (hterms : terms ≤ maxTerms) (hlost : around.Lost terms) :
    (p text terms).Holds
      (fun a rest terms' => E a rest ∨ around.Keeps terms' .tooLarge
        (.parsed a (rest ++ around.behind) (terms' + around.before)))
      (fun terms' => P ∨ around.Keeps terms' .tooLarge
        (.unmatched (terms' + around.before) : Reading α)) True := by
  refine (hp text terms hterms).mono ?_ fun terms' h =>
    .inr (.inr ⟨around.lost_mono h.1 hlost, rfl⟩)
  rintro a rest terms' ⟨-, n, hn, -⟩
  exact .inr (.inr ⟨around.lost_mono (by omega) hlost, rfl⟩)

namespace Continues

theorem mono {E' : α → List Char → Prop} {p p' : Parser α} (h : around.Continues E U p p')
    (hE : ∀ a rest, E a rest → E' a rest) (hU : ∀ text, U text → V text) :
    around.Continues E' V p p' :=
  ⟨h.counts, fun text terms hterms => (h.reading text terms hterms).mono
    (fun a rest _ => Or.imp_left (hE a rest)) fun _ => Or.imp_left (hU text)⟩

theorem bind {p p' : Parser α} {next next' : α → Parser β} (hp : around.Continues E U p p')
    (hnext : ∀ a, around.Continues F W (next a) (next' a))
    (hE : ∀ a rest terms, E a rest →
      (next a rest terms).Holds (fun b rest' _ => F b rest') (fun _ => ∀ text, V text) True)
    (hU : ∀ text, U text → V text) (hW : ∀ rest, W rest → ∀ text, V text) :
    around.Continues F V (p >>= next) (p' >>= next') := by
  refine ⟨hp.counts.bind fun a n _ => (hnext a).counts, fun text terms hterms => ?_⟩
  have hcounts := hp.counts text terms (by omega)
  have hread := hp.reading text terms hterms
  rw [bind_apply, bind_apply]
  generalize p text terms = reading at hcounts hread ⊢
  cases reading with
  | tooLarge => trivial
  | unmatched terms' =>
    rcases hread with hstop | ⟨hmax, heq⟩ | ⟨hlost, heq⟩
    · exact .inl (hU text hstop)
    · exact .inr (.inl ⟨hmax, by rw [heq]⟩)
    · exact .inr (.inr ⟨hlost, by rw [heq]⟩)
  | parsed a rest terms' =>
    rcases hread with hstop | ⟨hmax, heq⟩ | ⟨hlost, heq⟩
    · exact (hE a rest terms' hstop).mono (fun _ _ _ => .inl) fun _ h => .inl (h text)
    · rw [heq]
      exact ((hnext a).reading rest terms' hmax).mono (fun _ _ _ => id)
        fun _ => Or.imp_left fun h => hW rest h text
    · rw [heq]
      exact holds_lost (hnext a).counts hcounts.1 hlost

/-- What goes on behind something that is only read as a whole. -/
theorem bind_whole {p p' : Parser α} {next next' : α → Parser β}
    (hp : around.Continues (fun _ _ => False) U p p')
    (hnext : ∀ a, around.Continues F (fun _ => False) (next a) (next' a)) :
    around.Continues F U (p >>= next) (p' >>= next') :=
  hp.bind hnext (fun _ _ _ => False.elim) (fun _ => id) fun _ => False.elim

/-- What goes on where it does not matter if nothing matches. -/
theorem bind_any {p p' : Parser α} {next next' : α → Parser β} (hp : around.Continues E U p p')
    (hnext : ∀ a, around.Continues F (fun _ => True) (next a) (next' a))
    (hE : ∀ a rest terms, E a rest →
      (next a rest terms).Holds (fun b rest' _ => F b rest') (fun _ => True) True) :
    around.Continues F (fun _ => True) (p >>= next) (p' >>= next') :=
  hp.bind hnext (fun a rest terms h => (hE a rest terms h).mono (fun _ _ _ => id) fun _ h _ => h)
    (fun _ _ => trivial) fun _ _ _ => trivial

theorem orElse {p p' q q' : Parser α} (hp : around.Continues E U p p')
    (hq : around.Continues E V q q')
    (hU : ∀ text terms, U text →
      (q text terms).Holds (fun a rest _ => E a rest) (fun _ => V text) True) :
    around.Continues E V (p <|> q) (p' <|> q') := by
  refine ⟨hp.counts.orElse hq.counts, fun text terms hterms => ?_⟩
  have hcounts := hp.counts text terms (by omega)
  have hread := hp.reading text terms hterms
  rw [orElse_apply, orElse_apply]
  generalize p text terms = reading at hcounts hread ⊢
  cases reading with
  | tooLarge => trivial
  | parsed a rest terms' =>
    rcases hread with hstop | ⟨hmax, heq⟩ | ⟨hlost, heq⟩
    · exact .inl hstop
    · exact .inr (.inl ⟨hmax, by rw [heq]⟩)
    · exact .inr (.inr ⟨hlost, by rw [heq]⟩)
  | unmatched terms' =>
    rcases hread with hstop | ⟨hmax, heq⟩ | ⟨hlost, heq⟩
    · exact (hU text terms' hstop).mono (fun _ _ _ => .inl) fun _ => .inl
    · rw [heq]
      exact hq.reading text terms' hmax
    · rw [heq]
      exact holds_lost hq.counts hcounts.2 hlost

end Continues

theorem continues_pure (a : α) :
    around.Continues (fun _ _ => False) (fun _ => False) (pure a) (pure a) :=
  ⟨pays_pure trivial, fun _ _ hterms => .inr (.inl ⟨hterms, rfl⟩)⟩

theorem continues_tooLarge (p : Parser α) : around.Continues E U tooLarge p :=
  ⟨pays_tooLarge, fun _ _ _ => trivial⟩

/-- Where no request is too large to be given up, giving up is right in place of anything. -/
theorem continues_of_lost (hlost : ∀ terms, around.Lost terms) {p : Parser α}
    (hp : p.Pays fun _ _ => True) : around.Continues E U p tooLarge :=
  ⟨hp, fun _ terms hterms => holds_lost hp (by omega) (hlost terms)⟩

/-- A term that fits behind the text fits inside the surroundings, or the request is too large. -/
theorem continues_term : around.Continues (fun _ _ => False) (fun _ => False) term term := by
  refine ⟨term_pays.mono fun _ _ _ => trivial, fun text terms hterms => ?_⟩
  rw [← bind_pure term]
  refine .term_bind (fun _ => trivial) fun hfits => ?_
  by_cases h : terms + around.before < maxTerms
  · refine .inr (.inl ⟨by omega, ?_⟩)
    rw [bind_pure, term_parsed h, Nat.add_right_comm]
  · refine .inr (.inr ⟨around.lost_of_lt (by omega), ?_⟩)
    rw [bind_pure, term, if_neg h]

theorem continues_scan {s : Scanner α} (hs : Leaves around.behind s) :
    around.Continues (fun _ _ => False) (fun _ => False) (ofScanner s) (ofScanner s) := by
  refine ⟨fun text terms hterms => .scan (fun a rest _ => ⟨hterms, 0, Nat.le_refl terms, trivial⟩)
    ⟨Nat.le_refl terms, hterms⟩, fun text terms hterms => ?_⟩
  have hread := hs text
  rw [Scanner.LeavesAt] at hread
  cases hs' : s text with
  | none =>
    rw [hs'] at hread
    rw [ofScanner_none hs', ofScanner_none hread]
    exact .inr (.inl ⟨hterms, rfl⟩)
  | some read =>
    rw [hs'] at hread
    rw [ofScanner_some hs', ofScanner_some hread]
    exact .inr (.inl ⟨hterms, rfl⟩)

/-- What goes on behind a token that was read, where the text may be told by the token. -/
theorem continues_scan_bind {s : Scanner α} {next next' : α → Parser β}
    (hs : Leaves around.behind s) (hnext : ∀ a, around.Continues F W (next a) (next' a))
    (hW : ∀ text a rest, s text = some (a, rest) → W rest → V text) :
    around.Continues F V (ofScanner s >>= next) (ofScanner s >>= next') := by
  refine ⟨(continues_scan hs).counts.bind fun a _ _ => (hnext a).counts,
    fun text terms hterms => ?_⟩
  have hread := hs text
  rw [Scanner.LeavesAt] at hread
  cases hs' : s text with
  | none =>
    rw [hs'] at hread
    rw [bind_unmatched (ofScanner_none hs'), bind_unmatched (ofScanner_none hread)]
    exact .inr (.inl ⟨hterms, rfl⟩)
  | some read =>
    rw [hs'] at hread
    rw [bind_parsed (ofScanner_some hs'), bind_parsed (ofScanner_some hread)]
    exact ((hnext read.1).reading read.2 terms hterms).mono (fun _ _ _ => id)
      fun _ => Or.imp_left (hW text read.1 read.2 hs')

/-- A closing parenthesis that is missing may be the one behind the text. -/
theorem continues_closing : around.Continues (fun _ _ => False) (fun _ => True)
    (ofScanner (sign ')')) (ofScanner (sign ')')) := by
  refine ⟨fun text terms hterms => .scan (fun a rest _ => ⟨hterms, 0, Nat.le_refl terms, trivial⟩)
    ⟨Nat.le_refl terms, hterms⟩, fun text terms hterms => ?_⟩
  refine .scan (fun a rest hread => .inr (.inl ⟨hterms, ?_⟩)) (.inl trivial)
  refine ofScanner_some (sign_eq_some ?_)
  rw [skipSeparators_append around.closes, Scanner.skip_of_sign hread, List.cons_append]

theorem continues_optional_scan {s : Scanner α} (hs : Leaves around.behind s) :
    around.Continues (fun _ _ => False) (fun _ => False) (ofScanner s).optional
      (ofScanner s).optional := by
  refine Continues.orElse ?_ (continues_pure none) fun _ _ => False.elim
  exact continues_scan_bind hs (fun a => continues_pure (some a)) fun _ _ _ _ => id

/-- What goes on with a repetition goes on with it in the surroundings, too. Where a step was not
kept, nothing goes on behind it. -/
theorem continues_repeatStep {step step' : α → Parser (Option α)} {E : Option α → List Char → Prop}
    {G : List Char → Prop} {U : Prop}
    (hstep : ∀ a, around.Continues E (fun _ => U) (step a) (step' a))
    (hE : ∀ next rest, E next rest → G rest)
    (hstop : ∀ b rest, E (some b) rest → ∀ terms, step b rest terms = .parsed none rest terms)
    (bound : Nat) (a : α) :
    around.Continues (fun _ rest => G rest) (fun _ => U) (repeatStep step bound a)
      (repeatStep step' bound a) := by
  have hpure (a : α) : around.Continues (fun _ rest => G rest) (fun _ => U) (pure a) (pure a) :=
    (continues_pure a).mono (fun _ _ => False.elim) fun _ => False.elim
  induction bound generalizing a with
  | zero =>
    refine (hstep a).bind (fun next => ?_) (fun next rest terms h => ?_) (fun _ => id)
      fun _ h _ => h
    · cases next with
      | none => exact hpure a
      | some b => exact continues_tooLarge tooLarge
    · cases next with
      | none => exact hE _ _ h
      | some b => trivial
  | succ bound ih =>
    refine (hstep a).bind (fun next => ?_) (fun next rest terms h => ?_) (fun _ => id)
      fun _ h _ => h
    · cases next with
      | none => exact hpure a
      | some b => exact ih b
    · cases next with
      | none => exact hE _ _ h
      | some b =>
        show (repeatStep step bound b rest terms).Holds _ _ _
        rw [repeatStep_none (hstop b rest h terms)]
        exact hE _ _ h

/-! ## Phrases -/

/-- What is read one level deeper goes on in the surroundings. A sum may stop before an opening, and
a side count is missing only where there is one. -/
structure Nests (around : Surroundings) (nested nested' : Nested) : Prop where
  sum : around.Continues (fun _ rest => Opens rest) (fun _ => True) nested.sum nested'.sum
  sides : around.Continues (fun _ _ => False) Opens nested.sides nested'.sides

section Phrases

variable {nested nested' : Nested} {rules : Ruleset}

/-- What is read is only given another form. -/
theorem Continues.map {p p' : Parser α} (hp : around.Continues (fun _ _ => False) U p p')
    (f : α → β) : around.Continues (fun _ _ => False) U (do let a ← p; pure (f a))
      (do let a ← p'; pure (f a)) :=
  hp.bind_whole fun a => continues_pure (f a)

/-- A group is kept, unless its parenthesis is not closed in the text. -/
theorem parenthesized_continues (hnested : around.Nests nested nested') :
    around.Continues (fun _ _ => False) AtGroup (parenthesized nested) (parenthesized nested') := by
  refine continues_scan_bind (W := fun _ => True) (Scanner.sign_leaves around.closes (by decide))
    (fun _ => ?_) fun text _ rest hread _ => ⟨rest, Scanner.skip_of_sign hread⟩
  refine hnested.sum.bind_any (fun e => continues_closing.map fun _ => Expr.group e)
    fun e rest terms hopens => ?_
  have hclose : sign ')' rest = none := hopens.sign_eq_none (by decide)
  rw [bind_unmatched (ofScanner_none hclose)]
  trivial

section Values

variable (hnested : around.Nests nested nested') (hrules : rules.Unparenthesized)
  (hlexicon : (Lexicon.ofRuleset rules).Unclosed)

include hnested in
theorem lettered_continues :
    around.Continues (fun _ _ => False) Opens
      (do ofScanner dieLetter; nested.sides) (do ofScanner dieLetter; nested'.sides) := by
  refine continues_scan_bind (dieLetter_leaves around.closes) (fun _ => hnested.sides) ?_
  intro text _ rest hread _
  obtain ⟨c, hskip, hc⟩ := exists_opening_of_dieLetter hread
  exact ⟨c, rest, hskip, hc⟩

include hnested in
theorem letteredDie_continues :
    around.Continues (fun _ _ => False) Opens
      (do ofScanner dieLetter; let sides ← nested.sides; pure (Expr.rollOne sides))
      (do ofScanner dieLetter; let sides ← nested'.sides; pure (Expr.rollOne sides)) := by
  have hmap := (lettered_continues hnested).map Expr.rollOne
  rwa [bind_assoc, bind_assoc] at hmap

include hlexicon in
theorem namedDie_continues :
    around.Continues (fun _ _ => False) (fun _ => False)
      (ofScanner (namedDie (.ofRuleset rules))) (ofScanner (namedDie (.ofRuleset rules))) :=
  continues_scan (namedDie_leaves around.closes hlexicon)

include hnested hrules hlexicon

theorem primary_continues :
    around.Continues (fun _ _ => False) AtGroup (primary (.ofRuleset rules) nested)
      (primary (.ofRuleset rules) nested') := by
  have hscanners : around.Continues (fun _ _ => False) (fun _ => False)
      (ofScanner (criticalHit (.ofRuleset rules)) <|> ofScanner (damageGroup (.ofRuleset rules))
        <|> ofScanner number)
      (ofScanner (criticalHit (.ofRuleset rules)) <|> ofScanner (damageGroup (.ofRuleset rules))
        <|> ofScanner number) := by
    refine (continues_scan (criticalHit_leaves around.closes hlexicon)).orElse ?_
      fun _ _ => False.elim
    exact (continues_scan (damageGroup_leaves around.closes hlexicon)).orElse
      (continues_scan (number_leaves around.closes)) fun _ _ => False.elim
  refine (parenthesized_continues hnested).orElse
    (hscanners.mono (fun _ _ => id) fun _ => False.elim) fun text terms hgroup => ?_
  rw [hgroup.tokens_unmatched hrules]
  exact hgroup

theorem sides_continues :
    around.Continues (fun _ _ => False) Opens (sides (.ofRuleset rules) nested)
      (sides (.ofRuleset rules) nested') := by
  refine ((namedDie_continues hlexicon).map Expr.rollOne).orElse ?_ fun _ _ => False.elim
  refine (primary_continues hnested hrules hlexicon).orElse (letteredDie_continues hnested) ?_
  intro text terms hgroup
  rw [hgroup.lettered_unmatched]
  exact hgroup.opens

theorem die_continues :
    around.Continues (fun _ _ => False) Opens (die (.ofRuleset rules) nested)
      (die (.ofRuleset rules) nested') := by
  refine (namedDie_continues hlexicon).orElse ?_ fun _ _ => False.elim
  refine Continues.orElse (U := AtGroup) ?_ (lettered_continues hnested) fun text terms hgroup => ?_
  · exact (primary_continues hnested hrules hlexicon).bind_whole fun e =>
      (continues_scan (sidedDie_leaves around.closes)).map fun _ => e
  · rw [hgroup.lettered_unmatched]
    exact hgroup.opens

theorem head_continues :
    around.Continues (fun _ _ => False) Opens (head (.ofRuleset rules) nested)
      (head (.ofRuleset rules) nested') := by
  refine ((namedDie_continues hlexicon).map Expr.rollOne).orElse ?_ fun _ _ => False.elim
  refine Continues.orElse (U := AtGroup) ?_ (letteredDie_continues hnested)
    fun text terms hgroup => ?_
  · refine (primary_continues hnested hrules hlexicon).bind_whole fun e => ?_
    refine (continues_optional_scan (sidedDie_leaves around.closes)).bind_whole fun sided => ?_
    cases sided <;> exact continues_pure _
  · rw [hgroup.lettered_unmatched]
    exact hgroup.opens

/-- A value may stop before an opening where a die that goes on with it is missing. -/
theorem continuation_continues (e : Expr) :
    around.Continues (fun next rest => next = none ∧ Opens rest) (fun _ => False)
      (continuation (.ofRuleset rules) nested e) (continuation (.ofRuleset rules) nested' e) := by
  refine Continues.orElse (U := Opens) ?_ ?_ fun text terms hopens => ?_
  · refine Continues.mono ?_ (fun _ _ => False.elim) fun _ => id
    refine (die_continues hnested hrules hlexicon).bind_whole fun s => ?_
    exact continues_term.map fun _ => some (Expr.roll e s)
  · refine Continues.mono ?_ (fun _ _ => False.elim) fun _ => id
    split
    · exact continues_optional_scan (dicePhrase_leaves around.closes e)
    · exact continues_pure none
  · split
    · rw [optional_unmatched (ofScanner_none (hopens.dicePhrase_eq_none e))]
      exact ⟨rfl, hopens⟩
    · exact ⟨rfl, hopens⟩

theorem value_continues :
    around.Continues (fun _ rest => Opens rest) (fun _ => True) (value (.ofRuleset rules) nested)
      (value (.ofRuleset rules) nested') := by
  refine continues_term.bind_any (fun _ => ?_) fun _ _ _ => False.elim
  refine (head_continues hnested hrules hlexicon).bind_any (fun e => ?_) fun _ _ _ => False.elim
  refine Continues.mono ?_ (fun _ _ => id) fun _ => False.elim
  refine continues_repeatStep (fun e => continuation_continues hnested hrules hlexicon e)
    (fun _ _ h => h.2) (fun b rest h => ?_) maxChain e
  cases h.1

end Values

theorem link_continues {operand operand' : Parser Expr} {operator : Scanner BinaryOp}
    (hoperand : around.Continues (fun _ rest => Opens rest) (fun _ => True) operand operand')
    (hoperator : Leaves around.behind operator) (left : Expr) :
    around.Continues (fun _ rest => Opens rest) (fun _ => True) (link operand operator left)
      (link operand' operator left) := by
  refine (continues_optional_scan hoperator).bind_any (fun sign => ?_) fun _ _ _ => False.elim
  cases sign with
  | none => exact (continues_pure none).mono (fun _ _ => False.elim) fun _ => False.elim
  | some op =>
    refine hoperand.bind_any (fun right => ?_) fun right rest terms hopens => hopens
    exact (continues_pure _).mono (fun _ _ => False.elim) fun _ => False.elim

/-- A chain that stops before an opening ends there, as no operator stands at an opening. -/
theorem chain_continues {operand operand' : Parser Expr} {operator : Scanner BinaryOp}
    (hoperand : around.Continues (fun _ rest => Opens rest) (fun _ => True) operand operand')
    (hoperator : Leaves around.behind operator)
    (hnone : ∀ text, Opens text → operator text = none) :
    around.Continues (fun _ rest => Opens rest) (fun _ => True) (chain operand operator)
      (chain operand' operator) := by
  refine hoperand.bind_any (fun first => ?_) fun first rest terms hopens => ?_
  · exact continues_repeatStep (link_continues hoperand hoperator) (fun _ _ => id)
      (fun b rest hopens terms => link_none (hnone rest hopens)) maxChain first
  · rw [repeatStep_none (link_none (hnone rest hopens))]
    exact hopens

section Levels

variable (hrules : rules.Unparenthesized) (hlexicon : (Lexicon.ofRuleset rules).Unclosed)

include hrules hlexicon

theorem sum_continues (hnested : around.Nests nested nested') :
    around.Continues (fun _ rest => Opens rest) (fun _ => True) (sum (.ofRuleset rules) nested)
      (sum (.ofRuleset rules) nested') := by
  refine chain_continues (chain_continues (value_continues hnested hrules hlexicon)
    (productSign_leaves around.closes) fun _ => Opens.productSign_eq_none)
      (additiveSign_leaves around.closes) fun _ => Opens.additiveSign_eq_none

/-- With as many levels left, or with fewer where any request may be given up, what is read one
level deeper goes on in the surroundings. -/
theorem nestedWithin_nests {levels levels' : Nat} (hlevels : levels ≤ 100)
    (hfewer : levels' = levels ∨ levels' < levels ∧ ∀ terms, around.Lost terms) :
    around.Nests (nestedWithin (.ofRuleset rules) levels)
      (nestedWithin (.ofRuleset rules) levels') := by
  induction levels' generalizing levels with
  | zero =>
    have hpaid : (nestedWithin (.ofRuleset rules) levels).Paid levels := nestedWithin_paid hlevels
    rcases hfewer with rfl | ⟨-, hlost⟩
    · exact ⟨continues_tooLarge _, continues_tooLarge _⟩
    · exact ⟨continues_of_lost hlost (hpaid.sum.mono fun _ _ _ => trivial),
        continues_of_lost hlost (hpaid.sides.mono fun _ _ _ => trivial)⟩
  | succ levels' ih =>
    obtain ⟨levels, rfl⟩ : ∃ n, levels = n + 1 := ⟨levels - 1, by omega⟩
    have hnested := ih (Nat.le_of_succ_le hlevels)
      (hfewer.imp Nat.succ.inj fun h => ⟨Nat.lt_of_succ_lt_succ h.1, h.2⟩)
    exact ⟨sum_continues hrules hlexicon hnested, sides_continues hnested hrules hlexicon⟩

/-- A sum that is read to its end, or does not stop before an opening, is read in its surroundings
as well. -/
theorem keeps_of_sum {levels levels' : Nat} (hlevels : levels ≤ 100)
    (hfewer : levels' = levels ∨ levels' < levels ∧ ∀ terms, around.Lost terms)
    (hbefore : around.before ≤ maxTerms) {text rest : List Char} {e : Expr} {terms : Nat}
    (hread : sum (.ofRuleset rules) (nestedWithin (.ofRuleset rules) levels) text 0 =
      .parsed e rest terms) (hrest : ¬ Opens rest) :
    around.Keeps terms (sum (.ofRuleset rules) (nestedWithin (.ofRuleset rules) levels')
      (text ++ around.behind) around.before)
        (.parsed e (rest ++ around.behind) (terms + around.before)) := by
  have hsum := sum_continues hrules hlexicon
    (nestedWithin_nests hrules hlexicon hlevels hfewer)
  have hkeeps := hsum.reading text 0 (by omega)
  rw [hread, Nat.zero_add] at hkeeps
  exact hkeeps.resolve_left hrest

end Levels

end Phrases

end Surroundings

end SpokenDice.Request
